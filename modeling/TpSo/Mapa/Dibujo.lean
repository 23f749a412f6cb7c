import TpSo.Base.Handshake
import TpSo.Mapa.Hilos

/-!
# The drawing thread and those that wait for it

Every thread that posts `semGui` waits at once for `semEntrenadorYaSeDibujo`. The tokens of the two
semaphores and the pass that is running pay for the threads that wait, with one more for the token
that `semGui` starts with. A pass that finds no change takes its token and posts nothing: the first
one loses the token that is spare, the second leaves somebody without an answer.
-/

namespace TpSo.Mapa.Hilado

open Locking

/-- A redraw is asked for with `semGui` and waited for with `semEntrenadorYaSeDibujo`. -/
def dibujos : Handshake Orden where
  used
    | .semPost .semEntrenadorYaSeDibujo | .semWait .semGui => False
    | _ => True
  ask
    | .semPost .semGui => true
    | _ => false
  await
    | .semWait .semEntrenadorYaSeDibujo => true
    | _ => false

def Orden.SinSemaforo : Orden → Prop
  | semPost _ | semWait _ => False
  | _ => True

/-! ## The programs -/

/-- After each redraw that is asked for comes the wait for it. -/
abbrev Pide {α : Type} (x : Programa α) : Prop := Paired dibujos false x

theorem pide_pure {α : Type} (a : α) : Pide (pure a : Programa α) := Paired.pure a

theorem pide_orden {o : Orden} (h : o.SinSemaforo) : Pide (orden o) := by
  cases o with
  | semPost s => cases h
  | semWait s => cases h
  | _ => exact Paired.other trivial rfl rfl

theorem pide_lock (k : Cerrojo) : Pide (lock k) := Paired.acquire k

theorem pide_unlock (k : Cerrojo) : Pide (unlock k) := Paired.release k

theorem pide_pedirDibujo : Pide pedirDibujo := Paired.ask_await trivial trivial rfl rfl rfl rfl

section Pide
variable {α : Type}

theorem pide_conPuntero {p : Option ℕ} {f : ℕ → Programa α} (hf : ∀ p, Pide (f p)) :
    Pide (conPuntero p f) := by
  cases p with
  | some p => exact hf p
  | none => exact Paired.stop

theorem pide_repetir {x : Programa PUnit} (hx : Pide x) (n : ℕ) : Pide (repetir x n) := by
  induction n with
  | zero => exact pide_pure _
  | succ n ih => exact hx.bind fun _ => ih

theorem pide_buscar (sockfd : ℤ) (is : List ℕ) (p : Option ℕ) : Pide (buscar sockfd p is) := by
  induction is generalizing p with
  | nil => exact pide_pure _
  | cons i is ih =>
    apply (pide_orden (by trivial)).bind
    intro pcb
    apply pide_conPuntero
    intro p
    apply (pide_orden (by trivial)).bind
    intro s
    split
    · exact pide_pure _
    · exact ih _

theorem pide_getPcbBySockFdListos (sockfd : ℤ) : Pide (getPcbBySockFdListos sockfd) := by
  apply (pide_lock _).bind
  intro _
  apply (pide_orden (by trivial)).bind
  intro cantidad
  apply (pide_buscar sockfd _ none).bind
  intro pcb
  exact (pide_unlock _).bind fun _ => pide_pure _

theorem pide_getPokenestById : Pide getPokenestById :=
  (pide_lock _).bind fun _ => pide_unlock _

theorem pide_nuevoEntrenadorConectado : Pide nuevoEntrenadorConectado := by
  apply (pide_orden (by trivial)).bind
  intro sockfd
  apply pide_getPokenestById.bind
  intro _
  apply (pide_orden (by trivial)).bind
  intro p
  apply (pide_lock _).bind
  intro _
  apply (pide_orden (by trivial)).bind
  intro _
  exact (pide_unlock _).bind fun _ => pide_pedirDibujo

theorem pide_eliminarDesde {l : Lista} {antes : ℕ → Programa PUnit} (sockfd : ℤ)
    (ha : ∀ p, Pide (antes p)) (is : List ℕ) : Pide (eliminarDesde l sockfd antes is) := by
  induction is with
  | nil => exact pide_pure _
  | cons i is ih =>
    apply (pide_orden (by trivial)).bind
    intro pcb
    apply pide_conPuntero
    intro p
    apply (pide_orden (by trivial)).bind
    intro s
    split
    · exact (ha p).bind fun _ => pide_orden trivial
    · exact ih

theorem pide_eliminarSocketListaListos (sockfd : ℤ) (b : Bool) :
    Pide (eliminarSocketListaListos sockfd b) := by
  apply (pide_lock _).bind
  intro _
  apply (pide_orden (by trivial)).bind
  intro sizeList
  split
  · exact pide_pure _
  · have hdespedir : ∀ p, Pide (despedirDibujo b p) := fun p =>
      (pide_orden (by trivial)).bind fun _ => pide_pedirDibujo
    exact (pide_eliminarDesde sockfd hdespedir _).bind fun _ => pide_unlock _

theorem pide_eliminarSocketListaBloqueados (sockfd : ℤ) :
    Pide (eliminarSocketListaBloqueados sockfd) := by
  apply (pide_orden (by trivial)).bind
  intro sizeList
  apply (pide_lock _).bind
  intro _
  exact (pide_eliminarDesde sockfd (fun _ => pide_pure _) _).bind fun _ => pide_unlock _

theorem pide_liberarRecursos : Pide liberarRecursos :=
  (pide_orden (by trivial)).bind fun _ => pide_repetir pide_getPokenestById _

theorem pide_obtenerPokenest (sockfd : ℤ) : Pide (obtenerPokenest sockfd) := by
  apply (pide_getPcbBySockFdListos sockfd).bind
  intro entrenadorActual
  apply (pide_orden (by trivial)).bind
  intro recibido
  split
  · exact pide_pure _
  · apply pide_getPokenestById.bind
    exact fun _ => pide_conPuntero fun _ => pide_pure _

theorem pide_moverPosicion (sockfd : ℤ) : Pide (moverPosicion sockfd) := by
  apply (pide_orden (by trivial)).bind
  intro recibido
  split
  · exact pide_pure _
  · apply (pide_getPcbBySockFdListos sockfd).bind
    intro currentPcb
    apply pide_conPuntero
    intro p
    apply (pide_orden (by trivial)).bind
    intro _
    exact pide_pedirDibujo.bind fun _ => pide_pure _

theorem pide_bloquear (sockfd : ℤ) : Pide (bloquear sockfd) := by
  apply (pide_lock _).bind
  intro _
  apply (pide_getPcbBySockFdListos sockfd).bind
  intro currentPcb
  apply Paired.bind
  · apply pide_conPuntero
    intro p
    exact (pide_orden (by trivial)).bind fun _ => pide_pedirDibujo
  · exact fun _ => (pide_unlock _).bind fun _ => pide_pure _

theorem pide_capturarPokemon (sockfd : ℤ) : Pide (capturarPokemon sockfd) := by
  apply (pide_getPcbBySockFdListos sockfd).bind
  intro pcbActual
  apply (pide_orden (by trivial)).bind
  intro recibido
  split
  · exact pide_pure _
  · apply pide_getPokenestById.bind
    intro _
    apply (pide_orden (by trivial)).bind
    intro pokenest
    split
    · exact pide_pure _
    split
    · apply (pide_orden (by trivial)).bind
      intro acuse
      split <;> exact pide_pure _
    · exact pide_bloquear sockfd

theorem pide_mensaje (sockfd : ℤ) : Pide (mensajeDeEntrenadorRecibido sockfd) := by
  apply (pide_orden (by trivial)).bind
  intro tipoMensaje
  split
  · exact pide_obtenerPokenest sockfd
  split
  · exact pide_moverPosicion sockfd
  split
  · exact pide_capturarPokemon sockfd
  · apply Paired.bind
    · apply (pide_getPcbBySockFdListos sockfd).bind
      exact fun _ => pide_conPuntero fun _ => pide_liberarRecursos
    · intro _
      apply (pide_eliminarSocketListaListos sockfd false).bind
      exact fun _ => pide_pure _

theorem pide_turno (p remain : ℕ) (result : ℕ) : Pide (turno p result remain) := by
  induction remain generalizing result with
  | zero => exact pide_pure _
  | succ remain ih =>
    apply (pide_orden (by trivial)).bind
    intro sockfd
    apply (pide_mensaje sockfd).bind
    intro result
    split
    · exact pide_pure _
    · exact ih result

theorem pide_finDeTurno (p result : ℕ) : Pide (finDeTurno p result) := by
  unfold finDeTurno
  split
  · apply (pide_orden (by trivial)).bind
    exact fun sockfd => pide_eliminarSocketListaListos sockfd true
  split
  · apply (pide_lock _).bind
    intro _
    apply (pide_orden (by trivial)).bind
    intro _
    apply (pide_orden (by trivial)).bind
    exact fun _ => pide_unlock _
  · exact pide_pure _

theorem pide_roundRobinAlgorithm : Pide roundRobinAlgorithm := by
  apply (pide_lock _).bind
  intro _
  apply (pide_orden (by trivial)).bind
  intro primero
  apply Paired.bind (pide_conPuntero fun _ => pide_pure _)
  intro p
  apply (pide_unlock _).bind
  intro _
  apply (pide_orden (by trivial)).bind
  intro quantum
  apply (pide_orden (by trivial)).bind
  intro result
  apply (pide_turno p quantum result).bind
  exact fun result => pide_finDeTurno p result

theorem pide_srdfAlgorithm : Pide srdfAlgorithm := by
  apply (pide_orden (by trivial)).bind
  intro indexMenor
  apply (pide_orden (by trivial)).bind
  intro elegido
  apply pide_conPuntero
  intro p
  apply (pide_orden (by trivial)).bind
  intro sockfd
  apply (pide_mensaje sockfd).bind
  intro result
  split
  · exact (pide_mensaje sockfd).bind fun _ => pide_pure _
  · exact pide_pure _

theorem pide_planificate : Pide planificate := by
  apply (pide_lock _).bind
  intro _
  apply (pide_orden (by trivial)).bind
  intro size
  apply (pide_unlock _).bind
  intro _
  split
  · apply (pide_orden (by trivial)).bind
    intro algoritmo
    split
    · exact pide_roundRobinAlgorithm
    split
    · exact pide_srdfAlgorithm
    · exact pide_pure _
  · exact pide_pure _

theorem pide_copiarDesde (is : List ℕ) : Pide (copiarDesde is) := by
  induction is with
  | nil => exact pide_pure _
  | cons i is ih =>
    apply (pide_orden (by trivial)).bind
    intro pcb
    apply pide_conPuntero
    intro p
    apply (pide_orden (by trivial)).bind
    intro _
    exact ih.bind fun _ => pide_pure _

theorem pide_copiarEntrenadores : Pide copiarEntrenadores := by
  apply (pide_lock _).bind
  intro _
  apply (pide_orden (by trivial)).bind
  intro size
  apply (pide_copiarDesde _).bind
  intro pcbs
  exact (pide_unlock _).bind fun _ => pide_pure _

theorem pide_marcarEntrenadores (ps : List ℕ) : Pide (marcarEntrenadores ps) := by
  induction ps with
  | nil => exact pide_pure _
  | cons p ps ih =>
    apply (pide_orden (by trivial)).bind
    intro recurso
    apply ih.bind
    intro listas
    dsimp only
    split <;> exact pide_pure _

theorem pide_liberarNoMarcados (ps : List ℕ) : Pide (liberarNoMarcados ps) := by
  induction ps with
  | nil => exact pide_pure _
  | cons p ps ih =>
    apply (pide_lock _).bind
    intro _
    apply (pide_orden (by trivial)).bind
    intro _
    exact (pide_unlock _).bind fun _ => ih

theorem pide_morir (perdedor : ℕ) : Pide (morir perdedor) := by
  apply pide_liberarRecursos.bind
  intro _
  apply (pide_orden (by trivial)).bind
  exact fun sockfd => pide_eliminarSocketListaBloqueados sockfd

theorem pide_batallas (primero : ℕ) (marcados : List ℕ) : Pide (batallas primero marcados) := by
  induction marcados generalizing primero with
  | nil => exact pide_pure _
  | cons segundo resto ih =>
    apply (pide_orden (by trivial)).bind
    intro empates
    apply Paired.bind
    · exact pide_repetir ((pide_orden (by trivial)).bind fun _ => pide_pure _) _
    intro _
    apply (pide_orden (by trivial)).bind
    intro perdedor
    split
    · split
      · exact (pide_morir primero).bind fun _ => ih _
      · exact ih _
    · split
      · exact (pide_morir segundo).bind fun _ => ih _
      · exact ih _

theorem pide_batallar (marcados : List ℕ) : Pide (batallar marcados) := by
  cases marcados with
  | nil => exact pide_pure _
  | cons primero resto => exact pide_batallas primero resto

theorem pide_liberarDesde (is : List ℕ) : Pide (liberarDesde is) := by
  induction is with
  | nil => exact pide_pure _
  | cons i is ih =>
    apply (pide_orden (by trivial)).bind
    intro pcb
    apply (pide_orden (by trivial)).bind
    intro recursos
    cases pcb with
    | some p =>
      apply Paired.bind
      · apply pide_repetir
        apply (pide_orden (by trivial)).bind
        intro _
        exact pide_pedirDibujo.bind fun _ => pide_orden trivial
      · exact fun _ => ih
    | none =>
      dsimp only
      split
      · exact ih
      · exact Paired.stop

theorem pide_pelear : Pide pelear := by
  apply pide_copiarEntrenadores.bind
  intro entrenadores
  apply Paired.bind
  · exact (pide_lock _).bind fun _ => pide_unlock _
  intro _
  apply (pide_marcarEntrenadores entrenadores).bind
  intro listas
  exact (pide_liberarNoMarcados listas.2).bind fun _ => pide_batallar listas.1

theorem pide_detectarDeadLock : Pide detectarDeadLock := by
  have hfin : Pide liberarBloqueados := by
    apply (pide_orden (by trivial)).bind
    exact fun _ => pide_liberarDesde _
  apply (pide_lock _).bind
  intro _
  apply (pide_orden (by trivial)).bind
  intro cant
  apply (pide_unlock _).bind
  intro _
  apply (pide_orden (by trivial)).bind
  intro batalla
  dsimp only
  split
  · exact Paired.bind (f := fun _ => liberarBloqueados) pide_pelear fun _ => hfin
  · exact hfin

theorem pide_vuelta (hilo : Hilo) : Pide (vuelta hilo) := by
  cases hilo with
  | conexiones => exact pide_nuevoEntrenadorConectado
  | planificador => exact pide_planificate
  | interbloqueo => exact pide_detectarDeadLock

end Pide

/-! ## The account -/

namespace Memoria

def pintando (m : Memoria) : ℕ := if m.pintor = .espera then 0 else 1

/-- What there is to answer the waiting threads with: the tokens, and the pass that is running. -/
def respuestas (m : Memoria) : ℕ := m.semGui + m.semEntrenadorYaSeDibujo + m.pintando

/-- The next round ends a pass that has found no change. -/
def enVano (m : Memoria) : Bool :=
  match m.pintor with
  | .bloqueados i (some _) huboCambios => m.listaBloqueados.length ≤ i && !huboCambios
  | .bloqueados _ none huboCambios => !huboCambios
  | _ => false

/-- `inicializarVariablesGlobales`; the lists are any. -/
structure Arranca (m : Memoria) : Prop where
  semGui : m.semGui = 1
  semEntrenadorYaSeDibujo : m.semEntrenadorYaSeDibujo = 0
  pintor : m.pintor = .espera

end Memoria

/-- A pass that finds no change loses its token. -/
theorem respuestas_dibujarGUI {m m' : Memoria} (h : dibujarGUI m = some m') :
    m'.respuestas + m.enVano.toNat = m.respuestas := by
  unfold dibujarGUI at h
  split at h
  · next hp =>
    split at h
    · next hgui =>
      cases h
      simp [Memoria.respuestas, Memoria.pintando, Memoria.enVano, hp]
      omega
    · cases h
  · next i entrenador hubo hp =>
    split at h <;> cases h <;>
      simp [Memoria.respuestas, Memoria.pintando, Memoria.enVano, hp]
  · next i hubo hp =>
    cases h
    simp [Memoria.respuestas, Memoria.pintando, Memoria.enVano, hp]
  · next i entrenador hubo hp =>
    split at h
    · next hi =>
      cases h
      simp [Memoria.respuestas, Memoria.pintando, Memoria.enVano, hp, Nat.not_le.mpr hi]
    · next hi =>
      have hle : m.listaBloqueados.length ≤ i := Nat.le_of_not_lt hi
      cases h
      cases hubo <;>
        simp [Memoria.respuestas, Memoria.pintando, Memoria.enVano, hp, hle, Nat.add_assoc]
  · next i hubo hp =>
    cases h
    cases hubo <;>
      simp [Memoria.respuestas, Memoria.pintando, Memoria.enVano, hp, Nat.add_assoc]

/-- What the commands other than those of the semaphores leave as it was. -/
structure MismoDibujo (m m' : Memoria) : Prop where
  semGui : m'.semGui = m.semGui
  semEntrenadorYaSeDibujo : m'.semEntrenadorYaSeDibujo = m.semEntrenadorYaSeDibujo
  pintor : m'.pintor = m.pintor

theorem mismoDibujo_ejecutar {o : Orden} {n : ℕ} {m m' : Memoria} {r : o.Respuesta}
    (ho : o.SinSemaforo) (h : o.ejecutar n m = some (r, m')) : MismoDibujo m m' := by
  cases o with
  | semPost s => cases ho
  | semWait s => cases ho
  | listAdd l p =>
    cases h
    cases l <;> exact ⟨rfl, rfl, rfl⟩
  | listRemove l i =>
    cases h
    cases l <;> exact ⟨rfl, rfl, rfl⟩
  | _ =>
    cases h
    exact ⟨rfl, rfl, rfl⟩

theorem MismoDibujo.respuestas {m m' : Memoria} (h : MismoDibujo m m') :
    m'.respuestas = m.respuestas := by
  unfold Memoria.respuestas Memoria.pintando
  rw [h.semGui, h.semEntrenadorYaSeDibujo, h.pintor]

theorem respuestas_ejecutar {o : Orden} {n : ℕ} {m m' : Memoria} {r : o.Respuesta}
    (hused : dibujos.used o) (h : o.ejecutar n m = some (r, m')) :
    m'.respuestas + (dibujos.await o).toNat = m.respuestas + (dibujos.ask o).toNat := by
  by_cases ho : o.SinSemaforo
  · have hmismo := (mismoDibujo_ejecutar ho h).respuestas
    cases o with
    | semPost s => cases ho
    | semWait s => cases ho
    | _ => exact hmismo
  cases o with
  | semPost s =>
    cases s with
    | semGui =>
      cases h
      simp [Memoria.respuestas, Memoria.pintando, dibujos]
      omega
    | semEntrenadorYaSeDibujo => cases hused
  | semWait s =>
    cases s with
    | semGui => cases hused
    | semEntrenadorYaSeDibujo =>
      unfold Orden.ejecutar at h
      dsimp only at h
      split at h
      · next hya =>
        cases h
        simp [Memoria.respuestas, Memoria.pintando, dibujos]
        omega
      · cases h
  | _ => exact absurd trivial ho

def servicio : Service sistema where
  toHandshake := dibujos
  tokens := Memoria.respuestas
  lost m := m.enVano.toNat
  tokens_exec := by
    intro o m r m' hused ⟨n, hexec⟩
    exact respuestas_ejecutar hused hexec
  tokens_environment := respuestas_dibujarGUI

instance : Fintype Hilo where
  elems := {.conexiones, .planificador, .interbloqueo}
  complete hilo := by cases hilo <;> simp

/-- A thread waits for a drawing, and the drawing thread for somebody to ask. -/
def Trabado (c : Config Hilo Cerrojo Orden Orden.Respuesta Memoria) : Prop :=
  (∃ hilo next, c.thread hilo = .call (.other (.semWait .semEntrenadorYaSeDibujo)) next) ∧
  c.memory.semEntrenadorYaSeDibujo = 0 ∧ c.memory.semGui = 0 ∧ c.memory.pintor = .espera

theorem Trabado.sin_respuesta {c : Config Hilo Cerrojo Orden Orden.Respuesta Memoria}
    (h : Trabado c) : c.memory.respuestas < servicio.waiting c := by
  obtain ⟨⟨hilo, next, ht⟩, hya, hgui, hp⟩ := h
  have hcero : c.memory.respuestas = 0 := by
    simp [Memoria.respuestas, Memoria.pintando, hya, hgui, hp]
  have huno : 0 < servicio.waiting c := by
    apply Service.waiting_pos (i := hilo)
    rw [ht]
    rfl
  omega

theorem lista_inicio (m : Memoria) : servicio.Ready (inicio m) := fun _ => rfl

theorem nadie_espera_inicio (m : Memoria) : servicio.waiting (inicio m) = 0 := by
  apply Finset.sum_eq_zero
  exact fun _ _ => rfl

theorem Memoria.Arranca.respuestas {m : Memoria} (h : m.Arranca) : m.respuestas = 1 := by
  simp [Memoria.respuestas, Memoria.pintando, h.semGui, h.semEntrenadorYaSeDibujo, h.pintor]

theorem cuenta_dibujos {m : Memoria} (h : m.Arranca)
    {es : List (Event Hilo Cerrojo Orden Orden.Respuesta)}
    {c : Config Hilo Cerrojo Orden Orden.Respuesta Memoria} {vanas : ℕ}
    (hcuenta : Run servicio.Accounted (inicio m, 0) es (c, vanas)) :
    servicio.Ready c ∧ c.memory.respuestas + vanas = 1 + servicio.waiting c ∧
      servicio.asks es = servicio.answers es + servicio.waiting c := by
  obtain ⟨hlista, hfichas, hpedidos⟩ := (lista_inicio m).account pide_vuelta hcuenta
  have huno : servicio.tokens (inicio m).memory = 1 := h.respuestas
  have hfin : servicio.tokens c.memory = c.memory.respuestas := rfl
  rw [nadie_espera_inicio] at hfichas hpedidos
  exact ⟨hlista, by omega, by omega⟩

/-- Until a second pass is in vain the tokens do not get stuck. -/
theorem no_trabado {c : Config Hilo Cerrojo Orden Orden.Respuesta Memoria} {vanas : ℕ}
    (hcuenta : c.memory.respuestas + vanas = 1 + servicio.waiting c) (hvanas : vanas ≤ 1) :
    ¬ Trabado c := by
  intro htrabado
  have := htrabado.sin_respuesta
  omega

/-- Whatever the threads do and the lists hold, each redraw that was asked for has been answered or
its thread waits, and the tokens are enough for all that wait if, and only if, no more than one
pass of the run has ended without a change: the tokens never get stuck before the second. -/
theorem dibujos_respondidos_iff {m : Memoria} (h : m.Arranca)
    {es : List (Event Hilo Cerrojo Orden Orden.Respuesta)}
    {c : Config Hilo Cerrojo Orden Orden.Respuesta Memoria}
    (hrun : Run (Step sistema) (inicio m) es c) :
    ∃ vanas, Run servicio.Accounted (inicio m, 0) es (c, vanas) ∧
      servicio.asks es = servicio.answers es + servicio.waiting c ∧
      (servicio.waiting c ≤ c.memory.respuestas ↔ vanas ≤ 1) ∧ (vanas ≤ 1 → ¬ Trabado c) := by
  obtain ⟨vanas, hcuenta⟩ := Service.accounted_of_run (S := servicio) hrun 0
  obtain ⟨_, hfichas, hpedidos⟩ := cuenta_dibujos h hcuenta
  exact ⟨vanas, hcuenta, hpedidos, by omega, no_trabado hfichas⟩

/-! ## A mark that somebody else's pass draws -/

/-- The programs that leave the lists and the semaphores alone while no trainer is blocked. -/
def callado : Protocol (LockCmd Cerrojo Orden) (LockCmd.Answer Orden.Respuesta) PUnit where
  pre o _ := match o with
    | .other (.semPost _) | .other (.semWait _) | .other (.listAdd ..) | .other (.listRemove ..) =>
      False
    | _ => True
  post o _ r _ := match o, r with
    | .other (.listSize .listaBloqueados), size => size = 0
    | _, _ => True
  stopped := True

theorem callado_detectarDeadLock : callado.Follows (fun _ _ => True) detectarDeadLock ⟨⟩ := by
  have hfin : callado.Follows (fun _ _ => True) liberarBloqueados ⟨⟩ := by
    refine ⟨trivial, ?_⟩
    intro size _ hsize
    obtain rfl := (show size = 0 from hsize)
    exact trivial
  refine ⟨trivial, fun _ _ _ => ⟨trivial, ?_⟩⟩
  intro cantBloqueados _ hcant
  obtain rfl := (show cantBloqueados = 0 from hcant)
  exact ⟨trivial, fun _ _ _ => ⟨trivial, fun _ _ _ => hfin⟩⟩

/-- The planner waits for a drawing with `mutexListaListos`, that the connections wait for, and the
detection has nobody to unblock. -/
structure Varado (c : Config Hilo Cerrojo Orden Orden.Respuesta Memoria) : Prop where
  planificador : ∃ next,
    c.thread .planificador = .call (.other (.semWait .semEntrenadorYaSeDibujo)) next
  conexiones : ∃ next, c.thread .conexiones = .call (.acquire .mutexListaListos) next
  interbloqueo : callado.Follows (fun _ _ => True) (c.thread .interbloqueo) ⟨⟩
  cerrojo : c.owner .mutexListaListos = some .planificador
  semEntrenadorYaSeDibujo : c.memory.semEntrenadorYaSeDibujo = 0
  semGui : c.memory.semGui = 0
  pintor : c.memory.pintor = .espera
  listaBloqueados : c.memory.listaBloqueados = []

theorem Varado.trabado {c : Config Hilo Cerrojo Orden Orden.Respuesta Memoria} (h : Varado c) :
    Trabado c :=
  ⟨⟨_, h.planificador⟩, h.semEntrenadorYaSeDibujo, h.semGui, h.pintor⟩

open Function (update) in
theorem Varado.sigue {c : Config Hilo Cerrojo Orden Orden.Respuesta Memoria} (h : Varado c)
    {m : Memoria} {o : Cerrojo → Option Hilo} {x : Programa PUnit}
    (hx : callado.Follows (fun _ _ => True) x ⟨⟩) (hm : MismoDibujo c.memory m)
    (hb : m.listaBloqueados = c.memory.listaBloqueados)
    (ho : o .mutexListaListos = c.owner .mutexListaListos) :
    Varado ⟨m, o, update c.thread .interbloqueo x⟩ where
  planificador := h.planificador
  conexiones := h.conexiones
  interbloqueo := hx
  cerrojo := ho.trans h.cerrojo
  semEntrenadorYaSeDibujo := hm.semEntrenadorYaSeDibujo.trans h.semEntrenadorYaSeDibujo
  semGui := hm.semGui.trans h.semGui
  pintor := hm.pintor.trans h.pintor
  listaBloqueados := hb.trans h.listaBloqueados

theorem ejecutar_callado {o : Orden} {n : ℕ} {m m' : Memoria} {r : o.Respuesta}
    (hpre : callado.pre (.other o) ⟨⟩) (hb : m.listaBloqueados = [])
    (h : o.ejecutar n m = some (r, m')) :
    callado.post (.other o) ⟨⟩ r ⟨⟩ ∧ MismoDibujo m m' ∧
      m'.listaBloqueados = m.listaBloqueados := by
  cases o with
  | semPost s => cases hpre
  | semWait s => cases hpre
  | listAdd l p => cases hpre
  | listRemove l i => cases hpre
  | listSize l =>
    cases h
    refine ⟨?_, ⟨rfl, rfl, rfl⟩, rfl⟩
    cases l with
    | listaListos => trivial
    | listaBloqueados => exact congrArg List.length hb
  | _ =>
    cases h
    exact ⟨trivial, ⟨rfl, rfl, rfl⟩, rfl⟩

/-- Only the detection takes steps, and it asks for nothing. -/
theorem Varado.step {c c' : Config Hilo Cerrojo Orden Orden.Respuesta Memoria}
    {e : Event Hilo Cerrojo Orden Orden.Respuesta} (h : Varado c) (hstep : Step sistema c e c') :
    Varado c' := by
  obtain ⟨nextP, hP⟩ := h.planificador
  obtain ⟨nextC, hC⟩ := h.conexiones
  have hI := h.interbloqueo
  have hlistos := h.cerrojo
  cases hstep with
  | @acquire hilo k next ht ho =>
    cases hilo with
    | conexiones =>
      rw [hC] at ht
      cases ht
      rw [hlistos] at ho
      cases ho
    | planificador =>
      rw [hP] at ht
      cases ht
    | interbloqueo =>
      rw [ht] at hI
      apply h.sigue (hI.2 _ _ trivial) ⟨rfl, rfl, rfl⟩ rfl
      apply Function.update_of_ne
      intro hk
      subst hk
      rw [hlistos] at ho
      cases ho
  | @release hilo k next ht ho =>
    cases hilo with
    | conexiones =>
      rw [hC] at ht
      cases ht
    | planificador =>
      rw [hP] at ht
      cases ht
    | interbloqueo =>
      rw [ht] at hI
      apply h.sigue (hI.2 _ _ trivial) ⟨rfl, rfl, rfl⟩ rfl
      apply Function.update_of_ne
      intro hk
      subst hk
      rw [hlistos] at ho
      cases ho
  | @other hilo o next r m ht hexec =>
    obtain ⟨n, hexec⟩ := hexec
    cases hilo with
    | conexiones =>
      rw [hC] at ht
      cases ht
    | planificador =>
      rw [hP] at ht
      cases ht
      simp [Orden.ejecutar, h.semEntrenadorYaSeDibujo] at hexec
    | interbloqueo =>
      rw [ht] at hI
      obtain ⟨hpost, hmismo, hb⟩ := ejecutar_callado hI.1 h.listaBloqueados hexec
      exact h.sigue (hI.2 _ _ hpost) hmismo hb rfl
  | @again hilo ht =>
    cases hilo with
    | conexiones =>
      rw [hC] at ht
      cases ht
    | planificador =>
      rw [hP] at ht
      cases ht
    | interbloqueo => exact h.sigue callado_detectarDeadLock ⟨rfl, rfl, rfl⟩ rfl rfl
  | @environment m hm =>
    have hpintor : dibujarGUI c.memory = none := by
      unfold dibujarGUI
      rw [h.pintor]
      simp [h.semGui]
    have hnone : none = some m := hpintor.symm.trans hm
    cases hnone

/-- Empty lists, a pass for nobody, then a trainer that is drawn. A second one connects while the
planner takes the first one out: one pass draws both, and the pass that the planner then asks for
finds no change. A third one connects. -/
def dosPedidos : List (Option (Hilo × ℕ)) :=
  dibuja 3 ++ pasos .conexiones 9 ++ dibuja 4 ++ pasos .conexiones 2 ++
  [some (.conexiones, 1)] ++ pasos .conexiones 6 ++
  pasos .planificador 4 ++ [some (.planificador, 1)] ++ pasos .planificador 3 ++
  [some (.planificador, 1)] ++ pasos .planificador 14 ++
  pasos .conexiones 1 ++ dibuja 5 ++ pasos .planificador 1 ++ dibuja 5 ++ pasos .conexiones 6

theorem dosPedidos_varado :
    ∃ es c, scheduleAll Orden.ejecutar vuelta dibujarGUI (inicio memoriaInicial) dosPedidos =
      some (es, c) ∧ Varado c :=
  ⟨_, _, rfl, ⟨_, rfl⟩, ⟨_, rfl⟩, trivial, rfl, rfl, rfl, rfl, rfl⟩

/-- The planner waits for ever: nobody can post any more. -/
theorem no_todo_dibujo_respondido :
    memoriaInicial.Arranca ∧ ∃ es c, Run (Step sistema) (inicio memoriaInicial) es c ∧
      ∀ es' c', Run (Step sistema) c es' c' → Trabado c' := by
  refine ⟨⟨rfl, rfl, rfl⟩, ?_⟩
  obtain ⟨es, c, hc, hvarado⟩ := dosPedidos_varado
  refine ⟨es, c, run_of_schedule hc, ?_⟩
  intro es' c' hrun
  exact (hrun.invariant (fun _ _ _ h hstep => h.step hstep) hvarado).trabado

/-- A trainer moves, and its drawing is asked for and answered. -/
theorem unTurno_termina :
    ∃ es c, scheduleAll Orden.ejecutar vuelta dibujarGUI (inicio memoriaConUno) unTurno =
      some (es, c) ∧ (∀ hilo, c.thread hilo = .ret ⟨⟩) ∧ c.memory.respuestas = 0 ∧
      servicio.asks es = 1 :=
  ⟨_, _, rfl, fun hilo => by cases hilo <;> rfl, rfl, rfl⟩

/-- In that turn only the first pass is in vain, and in the run that gets stuck another one is. -/
theorem dibujos_respondidos_dos :
    (∃ es c vanas, Run servicio.Accounted (inicio memoriaConUno, 0) es (c, vanas) ∧ vanas = 1 ∧
      servicio.asks es = 1 ∧ servicio.answers es = 1 ∧ ¬ Trabado c) ∧
    ∃ es c vanas, Run servicio.Accounted (inicio memoriaInicial, 0) es (c, vanas) ∧
      c.memory.respuestas < servicio.waiting c ∧ 1 < vanas := by
  constructor
  · obtain ⟨es, c, hc, hret, hrespuestas, hasks⟩ := unTurno_termina
    obtain ⟨vanas, hcuenta, hpedidos, hiff, htrabado⟩ :=
      dibujos_respondidos_iff (m := memoriaConUno) ⟨rfl, rfl, rfl⟩ (run_of_schedule hc)
    have hwaiting : servicio.waiting c = 0 :=
      Finset.sum_eq_zero fun hilo _ => by rw [hret hilo]; rfl
    obtain ⟨-, hfichas, -⟩ := cuenta_dibujos (m := memoriaConUno) ⟨rfl, rfl, rfl⟩ hcuenta
    exact ⟨es, c, vanas, hcuenta, by omega, hasks, by omega, htrabado (by omega)⟩
  · obtain ⟨es, c, hc, hvarado⟩ := dosPedidos_varado
    obtain ⟨vanas, hcuenta, _, _, htrabado⟩ :=
      dibujos_respondidos_iff ⟨rfl, rfl, rfl⟩ (run_of_schedule hc)
    have hvanas : 1 < vanas := by
      by_contra hle
      exact htrabado (Nat.le_of_not_lt hle) hvarado.trabado
    exact ⟨es, c, vanas, hcuenta, hvarado.trabado.sin_respuesta, hvanas⟩

end TpSo.Mapa.Hilado
