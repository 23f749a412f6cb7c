import TpSo.Entrenador.Aventura

/-!
# Goals and connections

The socket is a variable of `completarMapa`, the goal a trainer is at a global that `handShake`
sets back. `Conexion` is what someone who watches the trainer knows of its last connection.
-/

namespace TpSo.Entrenador

/-- The socket of the last `handShake` and what was captured since. -/
structure Conexion where
  socket : ℤ
  capturas : List UInt8
  deriving DecidableEq, Repr

def Conexion.ver (c : Conexion) : Suceso → Conexion
  | .handShake socket => ⟨socket, []⟩
  | .captura idPokemon => { c with capturas := c.capturas ++ [idPokemon] }
  | .envio _ _ | .cierre _ => c

/-- A message is on the socket of the connection, and the last one comes after all the goals,
each of them captured once and in order. -/
def Conexion.Admite (objetivos : List UInt8) (c : Conexion) : Suceso → Prop
  | .envio socket mensaje =>
    socket = c.socket ∧ (mensaje = .terminoObjetivos → c.capturas = objetivos)
  | .handShake _ | .captura _ | .cierre _ => True

def Respetan (objetivos : List UInt8) : Conexion → List Suceso → Prop
  | _, [] => True
  | c, e :: es => c.Admite objetivos e ∧ Respetan objetivos (c.ver e) es

theorem Respetan.append {objetivos : List UInt8} {es es' : List Suceso} {c : Conexion}
    (h : Respetan objetivos c es) (h' : Respetan objetivos (es.foldl Conexion.ver c) es') :
    Respetan objetivos c (es ++ es') := by
  induction es generalizing c with
  | nil => exact h'
  | cons e es ih => exact ⟨h.1, ih h.2 h'⟩

/-- The states in which the trainer goes after a goal that it has asked for. -/
def Estado.buscando : Estado → Bool
  | .enCamino | .enPokenest | .bloqueado | .enDeadlock => true
  | .sinPokenest | .conTodosLosPokemons | .mapaCompletado => false

/-- The trainer is as far as its last connection says. -/
structure AlDia (objetivos : List UInt8) (a : Aventura) (c : Conexion) : Prop where
  socket : a.mapaSocket = c.socket
  capturas : c.capturas = objetivos.take a.indexProximoPokemon
  sinPokenest : a.estado = .sinPokenest → a.indexProximoPokemon < objetivos.length
  buscando : a.estado.buscando = true → objetivos[a.indexProximoPokemon]? = some a.idPokemon
  conTodos : a.estado = .conTodosLosPokemons → objetivos.length ≤ a.indexProximoPokemon

theorem AlDia.inicial {objetivos : List UInt8} (h : objetivos ≠ []) (a : Aventura) (socket : ℤ) :
    AlDia objetivos (entrarAlMapa a socket) ⟨socket, []⟩ where
  socket := rfl
  capturas := List.take_zero.symm
  sinPokenest _ := List.length_pos_iff.mpr h
  buscando hb := by simp [entrarAlMapa, handShake, Estado.buscando] at hb
  conTodos hc := by simp [entrarAlMapa, handShake] at hc

/-- If the trainer dies in this round, the number of its new socket is that of the one it closed. -/
def Reconecta (a : Aventura) (e : Respuesta × List Suceso) : Prop :=
  ∀ socket, e.1 = .resultado morite socket → socket = a.mapaSocket

section Ronda
variable {objetivos : List UInt8} {a : Aventura} {c : Conexion}

/-- A round that leaves the goal and the socket as they are, and sends what is no farewell. -/
theorem AlDia.envio (h : AlDia objetivos a c) {mensaje : Mensaje}
    (hm : mensaje ≠ .terminoObjetivos) : Respetan objetivos c [.envio a.mapaSocket mensaje] :=
  ⟨⟨h.socket, fun he => absurd he hm⟩, trivial⟩

theorem AlDia.sigue (h : AlDia objetivos a c) (hb : a.estado.buscando = true) {v : Viaje}
    (hv : v.estado.buscando = true) : AlDia objetivos { a with toViaje := v } c where
  socket := h.socket
  capturas := h.capturas
  sinPokenest he := by
    change v.estado = _ at he
    simp [he, Estado.buscando] at hv
  buscando _ := h.buscando hb
  conTodos he := by
    change v.estado = _ at he
    simp [he, Estado.buscando] at hv

/-- What every round preserves. -/
theorem AlDia.paso {a' : Aventura} {e : Respuesta × List Suceso} (h : AlDia objetivos a c)
    (hpaso : Paso objetivos a e a') (hrec : Reconecta a e) :
    Respetan objetivos c e.2 ∧ AlDia objetivos a' (e.2.foldl Conexion.ver c) := by
  rcases hpaso.cases with ⟨_, _, rfl, he⟩ | ⟨_, id, _, hest, hid, rfl, he⟩ | ⟨_, hest, rfl, he⟩ |
    ⟨_, hest, rfl, he⟩ | ⟨_, hest, rfl, he⟩ | ⟨_, _, hest, rfl, he⟩ | ⟨socket, hr, _, _, rfl, he⟩ |
    ⟨_, _, _, _, hest, rfl, he⟩ | ⟨_, hest, rfl, he⟩
  case inl =>
    rw [he]
    exact ⟨trivial, h.socket, h.capturas, h.sinPokenest, h.buscando, h.conTodos⟩
  case inr.inl =>
    -- the goal is asked for
    rw [he]
    refine ⟨h.envio (by simp), h.socket, h.capturas, ?_, fun _ => hid, ?_⟩
    · intro hno
      cases hno
    · intro hno
      cases hno
  case inr.inr.inl =>
    rw [he]
    refine ⟨h.envio (by simp), h.sigue (by rw [hest]; rfl) ?_⟩
    rw [avanzar_estado _ hest]
    split <;> rfl
  case inr.inr.inr.inl =>
    -- the goal is captured, and the trainer goes on to the next one
    have hid := h.buscando (by rw [hest]; rfl)
    obtain ⟨hlt, hget⟩ := List.getElem?_eq_some_iff.mp hid
    rw [he]
    refine ⟨⟨⟨h.socket, fun hno => by cases hno⟩, ⟨h.socket, fun hno => by cases hno⟩, trivial,
      trivial⟩, h.socket, ?_, ?_, ?_, ?_⟩
    · change c.capturas ++ [a.idPokemon] = objetivos.take (a.indexProximoPokemon + 1)
      rw [List.take_add_one, hid, h.capturas]
      rfl
    · intro hsin
      change a.indexProximoPokemon + 1 < objetivos.length
      by_cases hfin : a.indexProximoPokemon + 1 = objetivos.length
      · simp [hfin] at hsin
      · omega
    · intro hb
      dsimp only at hb
      split at hb <;> cases hb
    · intro hcon
      change objetivos.length ≤ a.indexProximoPokemon + 1
      by_cases hfin : a.indexProximoPokemon + 1 = objetivos.length
      · exact hfin.ge
      · simp [hfin] at hcon
  case inr.inr.inr.inr.inl =>
    -- the trainer is blocked: goals are left, for it was after one
    have hid := h.buscando (by rw [hest]; rfl)
    obtain ⟨hlt, _⟩ := List.getElem?_eq_some_iff.mp hid
    rw [he, if_neg hlt.ne]
    exact ⟨h.envio (by simp), h.sigue (by rw [hest]; rfl) rfl⟩
  case inr.inr.inr.inr.inr.inl =>
    rw [he]
    refine ⟨trivial, h.sigue (by rw [hest]; rfl) ?_⟩
    dsimp only
    split
    · rfl
    · split <;> rfl
  case inr.inr.inr.inr.inr.inr.inl =>
    -- the trainer dies, and starts again
    have hid := h.buscando (by rw [‹a.estado = .enDeadlock›]; rfl)
    obtain ⟨hlt, _⟩ := List.getElem?_eq_some_iff.mp hid
    rw [he]
    refine ⟨⟨⟨h.socket, fun hno => by cases hno⟩, trivial, trivial, trivial⟩,
      (hrec socket hr).symm, List.take_zero.symm, fun _ => Nat.zero_lt_of_lt hlt, ?_, ?_⟩
    · intro hno
      cases hno
    · intro hno
      cases hno
  case inr.inr.inr.inr.inr.inr.inr.inl =>
    rw [he]
    refine ⟨h.envio (by simp), h.sigue (by rw [hest]; rfl) ?_⟩
    dsimp only
    split <;> rfl
  case inr.inr.inr.inr.inr.inr.inr.inr =>
    have htodos : c.capturas = objetivos := by
      rw [h.capturas, List.take_of_length_le (h.conTodos hest)]
    rw [he]
    refine ⟨⟨⟨h.socket, fun _ => htodos⟩, trivial⟩, h.socket, h.capturas, ?_, ?_, ?_⟩
    · intro hno
      cases hno
    · intro hno
      cases hno
    · intro hno
      cases hno

end Ronda

/-- A round in which a trainer that dies gets its old number back. -/
def PasoReconectado (objetivos : List UInt8) (a : Aventura) (e : Respuesta × List Suceso)
    (a' : Aventura) : Prop :=
  Paso objetivos a e a' ∧ Reconecta a e

theorem AlDia.respetan {objetivos : List UInt8} {a a' : Aventura} {c : Conexion}
    {es : List (Respuesta × List Suceso)} (h : AlDia objetivos a c)
    (hrun : Run (PasoReconectado objetivos) a es a') : Respetan objetivos c (sucesos es) := by
  induction hrun generalizing c with
  | nil _ => trivial
  | @cons _ _ _ e es hpaso _ ih =>
    obtain ⟨hres, hdia⟩ := h.paso hpaso.1 hpaso.2
    rw [sucesos, List.flatMap_cons]
    exact hres.append (ih hdia)

/-- In every run whose deaths, if any, give the trainer its socket back, its messages are all on
the socket of its last handshake, and it says that it has finished with all its goals captured. -/
theorem mensajes_por_su_conexion {objetivos : List UInt8} (h : objetivos ≠ []) (a : Aventura)
    (socket : ℤ) {es : List (Respuesta × List Suceso)} {a' : Aventura}
    (hrun : Run (PasoReconectado objetivos) (entrarAlMapa a socket) es a') :
    Respetan objetivos ⟨socket, []⟩ (sucesos es) :=
  (AlDia.inicial h a socket).respetan hrun

/-- Two battles, the second one lost, and a new connection with the same number. -/
def muereYTermina : List (Respuesta × List Suceso) :=
  [(.coordenada ⟨0, 0⟩, [.envio 5 (.conocerPokenest 66)]),
    (.ok, [.envio 5 (.moverPosicion 6)]), (.estasBloqueado, [.envio 5 (.capturar 66)]),
    (.aviso 4, []), (.resultado 12 0, [.envio 5 .pokemonMasFuerte]),
    (.aviso 4, []),
    (.resultado 1 5, [.envio 5 .pokemonMasFuerte, .cierre 5, .handShake 5]),
    (.coordenada ⟨0, 0⟩, [.envio 5 (.conocerPokenest 66)]),
    (.ok, [.envio 5 (.moverPosicion 6)]),
    (.teDoyElPokemon, [.envio 5 (.capturar 66), .envio 5 .semaforoArchivo, .captura 66]),
    (.medalla, [.envio 5 .terminoObjetivos])]

theorem mensajes_por_su_conexion_muereYTermina :
    Respetan [66] ⟨5, []⟩ (sucesos muereYTermina) := by
  have hsin : ∀ (a : Aventura) (r : Respuesta) (es : List Suceso),
      (∀ socket, r ≠ .resultado morite socket) → Reconecta a (r, es) :=
    fun a r es hr socket he => absurd he (hr socket)
  obtain ⟨a', hrun⟩ : ∃ a', Run (PasoReconectado [66]) recienLlegado muereYTermina a' := by
    refine ⟨_, .cons ⟨rfl, hsin _ _ _ (by simp)⟩ (.cons ⟨rfl, hsin _ _ _ (by simp)⟩
      (.cons ⟨rfl, hsin _ _ _ (by simp)⟩ (.cons ⟨rfl, hsin _ _ _ (by simp)⟩
      (.cons ⟨rfl, hsin _ _ _ (by simp [morite])⟩ (.cons ⟨rfl, hsin _ _ _ (by simp)⟩
      (.cons ⟨rfl, ?_⟩ (.cons ⟨rfl, hsin _ _ _ (by simp)⟩ (.cons ⟨rfl, hsin _ _ _ (by simp)⟩
      (.cons ⟨rfl, hsin _ _ _ (by simp)⟩ (.cons ⟨rfl, hsin _ _ _ (by simp)⟩
      (.nil _)))))))))))⟩
    intro socket he
    cases he
    rfl
  exact mensajes_por_su_conexion (by simp) _ 5 hrun

/-- The trainer dies, the new connection fails, and it goes on with the socket it closed. -/
theorem no_todo_mensaje_por_su_conexion : ¬ ∀ objetivos : List UInt8, objetivos ≠ [] →
    ∀ (a : Aventura) (socket : ℤ) (es : List (Respuesta × List Suceso)) (a' : Aventura),
      Run (Paso objetivos) (entrarAlMapa a socket) es a' →
      Respetan objetivos ⟨socket, []⟩ (sucesos es) := by
  intro hall
  obtain ⟨es, a', hes, hrun⟩ : ∃ es a', sucesos es =
      [.envio 5 (.conocerPokenest 66), .envio 5 (.moverPosicion 6), .envio 5 (.capturar 66),
        .envio 5 .pokemonMasFuerte, .cierre 5, .handShake (-1), .envio 5 (.conocerPokenest 66)] ∧
      Run (Paso [66]) recienLlegado es a' :=
    ⟨[(.coordenada ⟨0, 0⟩, _), (.ok, _), (.estasBloqueado, _), (.aviso 4, _), (.resultado 1 (-1), _),
      (.coordenada ⟨0, 0⟩, _)], _, rfl, .cons rfl (.cons rfl (.cons rfl (.cons rfl (.cons rfl
      (.cons rfl (.nil _))))))⟩
  have hres := hall [66] (by simp) _ 5 es a' hrun
  rw [hes] at hres
  have hsocket : (5 : ℤ) = -1 := hres.2.2.2.2.2.2.1.1
  exact absurd hsocket (by decide)

end TpSo.Entrenador
