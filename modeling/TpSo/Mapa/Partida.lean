import TpSo.Mapa.Bajas
import TpSo.Mapa.Quantum

/-!
# The process and who plays

`Partida` is a map process with the trainers that have connected and have not left: a trainer leaves
when it finishes, when a call to `recv` finds its connection closed, and when it is sent `MORITE`.
The configuration is read again at any time. `Movida` says what a message does to the lists, to what
the trainers hold and to the units of the pokenests.
-/

namespace TpSo.Mapa

open Function (update)
open Entrenador (morite)

/-- What `setMapa` reads again of `t_mapa`. -/
structure Ajustes where
  algoritmo : Algoritmo
  quantum : ℕ
  batalla : Bool

/-- A recv of the message fails, or the trainer finishes. -/
def Recibido.seVa (r : Recibido) (a : Almacen) : Bool :=
  if r.tipoMensaje = 1 then r.pokemon.isNone
  else if r.tipoMensaje = 2 then r.direccion.isNone
  else if r.tipoMensaje = 3 then r.pokemon.isNone || r.pokemon.any a.hayUnidad && !r.acuse
  else true

/-- The message is the capture of a pokemon of which no unit is left. -/
def Recibido.seBloquea (r : Recibido) (a : Almacen) : Bool :=
  r.tipoMensaje = 3 && r.pokemon.any fun id =>
    (a.getPokenestById id).any fun p => p.identificador = id ∧ ¬ 0 < p.cant

/-- A map process and the addresses of the `t_pcb` of those who play. -/
structure Partida where
  proceso : Proceso
  jugando : List ℕ

namespace Partida

variable (s : Partida)

def mapa : Estado := s.proceso.mapa

def turno : Turno := s.proceso.turno

def listos : List ℤ := s.mapa.listaListos.map s.mapa.sock

def bloqueados : List ℤ := s.mapa.listaBloqueados.map s.mapa.sock

def presentes : List ℤ := s.jugando.map s.mapa.sock

def sinSocket (sockfd : ℤ) : List ℕ := s.jugando.filter fun p => s.mapa.sock p ≠ sockfd

/-- Who plays after a step that leaves the map in `m`. -/
def siguen (m : Estado) : Evento → List ℕ
  | .conecta _ _ _ => s.mapa.libre :: s.jugando
  | .atiende r =>
    match s.turno with
    | .enCurso p _ => if r.seVa s.mapa.toAlmacen then s.sinSocket (s.mapa.sock p) else s.jugando
    | .elegido p _ => if r.seVa s.mapa.toAlmacen then s.sinSocket (s.mapa.sock p) else s.jugando
    | _ => s.jugando
  | .detecta _ => s.jugando.filter fun p =>
      (s.mapa.sock p, .resultado morite) ∉ m.enviados.drop s.mapa.enviados.length
  | _ => s.jugando

def ajustar (a : Ajustes) : Partida :=
  { s with
    proceso := { s.proceso with
      mapa := { s.proceso.mapa with quantum := a.quantum, batalla := a.batalla } } }

def avanzar (f : Fabrica) (algoritmo : Algoritmo) (e : Evento) : Option Partida :=
  (pasoMapa algoritmo f s.proceso e).map fun proceso => ⟨proceso, s.siguen proceso.mapa e⟩

def paso (f : Fabrica) (e : Ajustes × Evento) : Option Partida :=
  (s.ajustar e.1).avanzar f e.1.algoritmo e.2

/-- The socket of a connection that is open is not given to another one. -/
def Admite : Evento → Prop
  | .conecta sockfd _ _ => ∀ p ∈ s.jugando, s.mapa.sock p ≠ sockfd
  | _ => True

instance : ∀ e : Evento, Decidable (s.Admite e)
  | .conecta _ _ _ => inferInstanceAs (Decidable (∀ p ∈ s.jugando, _))
  | .empieza => .isTrue trivial
  | .atiende _ => .isTrue trivial
  | .termina => .isTrue trivial
  | .detecta _ => .isTrue trivial
  | .recarga => .isTrue trivial

structure Comienza : Prop where
  turno : s.turno = .libre
  listaListos : s.mapa.listaListos = []
  listaBloqueados : s.mapa.listaBloqueados = []
  jugando : s.jugando = []

end Partida

/-- One step, with the configuration of that moment. -/
def PasoPartida (f : Fabrica) (s : Partida) (e : Ajustes × Evento) (s' : Partida) : Prop :=
  s.paso f e = some s' ∧ s.Admite e.2

/-! ## Messages -/

/-- The trainers are in the same lists, and their `t_pcb` point to the same resources. -/
structure Inmovil (m m' : Estado) : Prop extends Quieto m m' where
  listaBloqueados : m'.listaBloqueados = m.listaBloqueados
  lista : m'.lista = m.lista

namespace Inmovil

theorem refl (m : Estado) : Inmovil m m := ⟨.refl m, rfl, rfl⟩

theorem modificarPcb {m m' : Estado} (h : Inmovil m m') (p : ℕ) {f : Pcb → Pcb}
    (hf : ∀ e, (f e).sockfd = e.sockfd) (hl : ∀ e, (f e).listaRecursos = e.listaRecursos) :
    Inmovil m (modificarPcb p f m') :=
  ⟨h.toQuieto.modificarPcb p hf, h.listaBloqueados, (lista_modificarPcb hl).trans h.lista⟩

theorem enviar {m m' : Estado} {s : ℤ} {e : Envio} (h : Inmovil m m') :
    Inmovil m (m'.enviar s e) := ⟨h.toQuieto.enviar, h.2, h.3⟩

end Inmovil

inductive Movida (m : Estado) (sockfd : ℤ) (r : Recibido) : ℤ → Estado → Prop where
  | sigue {k : ℤ} {m' : Estado} : k ≠ 1 → r.seVa m.toAlmacen = false → Inmovil m m' →
      m'.recursos = m.recursos → m'.listaPokenest = m.listaPokenest → Movida m sockfd r k m'
  | captura {m' : Estado} {q : ℕ} {id : UInt8} : r.tipoMensaje = 3 → r.pokemon = some id →
      m.hayUnidad id = true → r.acuse = true → m.getPcbBySockFdListos sockfd = some q →
      Inmovil m m' → m'.recursos = update m.recursos (m.lista q) (m.capturados q ++ [id]) →
      m'.listaPokenest = sumarCant id (-1) m.listaPokenest → Movida m sockfd r 0 m'
  | bloqueado {q : ℕ} : r.seBloquea m.toAlmacen = true → r.seVa m.toAlmacen = false →
      m.getPcbBySockFdListos sockfd = some q →
      Movida m sockfd r 1 { m.enviar sockfd .estasBloqueado with
        listaBloqueados := m.listaBloqueados ++ [q] }
  | cortado : r.tipoMensaje = 1 ∧ r.pokemon = none ∨ r.tipoMensaje = 2 ∧ r.direccion = none ∨
      r.tipoMensaje = 3 ∧ r.pokemon = none → Movida m sockfd r 1 m
  | perdida {m' : Estado} {id : UInt8} : r.tipoMensaje = 3 → r.pokemon = some id →
      m.hayUnidad id = true → r.acuse = false → Inmovil m m' → m'.recursos = m.recursos →
      m'.listaPokenest = sumarCant id (-1) m.listaPokenest → Movida m sockfd r 1 m'
  | despedido {m' : Estado} {q : ℕ} : r.tipoMensaje ≠ 1 → r.tipoMensaje ≠ 2 →
      r.tipoMensaje ≠ 3 → m.getPcbBySockFdListos sockfd = some q → Inmovil m m' →
      m'.recursos = m.recursos → m'.listaPokenest = devolver (m.capturados q) m.listaPokenest →
      Movida m sockfd r 1 (eliminarSocketListaListos sockfd m')

section Movida
variable {m m' : Estado} {sockfd k : ℤ} {r : Recibido}

theorem movida_obtenerPokenest (ht : r.tipoMensaje = 1)
    (h : obtenerPokenest sockfd r m = (some k, m')) : Movida m sockfd r k m' := by
  unfold obtenerPokenest at h
  split at h
  · next hpok =>
    obtain ⟨rfl, rfl⟩ := Op.some_inj h
    exact .cortado (.inl ⟨ht, hpok⟩)
  · next hpok =>
    split at h
    · obtain ⟨rfl, rfl⟩ := Op.some_inj h
      refine .sigue (by decide) (by simp [Recibido.seVa, ht, hpok]) ?_ rfl rfl
      apply Inmovil.enviar
      exact (Inmovil.refl m).modificarPcb _ (fun _ => rfl) fun _ => rfl
    · cases h

theorem movida_moverPosicion (ht : r.tipoMensaje = 2)
    (h : moverPosicion sockfd r m = (some k, m')) : Movida m sockfd r k m' := by
  unfold moverPosicion at h
  split at h
  · next hdir =>
    obtain ⟨rfl, rfl⟩ := Op.some_inj h
    exact .cortado (.inr (.inl ⟨ht, hdir⟩))
  · next hdir =>
    split at h
    · obtain ⟨rfl, rfl⟩ := Op.some_inj h
      refine .sigue (by decide) (by simp [Recibido.seVa, ht, hdir]) ?_ rfl rfl
      apply Inmovil.enviar
      exact (Inmovil.refl m).modificarPcb _ (fun _ => rfl) fun _ => rfl
    · cases h

theorem movida_entregarPokemon {q : ℕ} {id : UInt8} {pokenest : Pokenest} (ht : r.tipoMensaje = 3)
    (hpok : r.pokemon = some id) (hay : m.hayUnidad id = true)
    (hq : m.getPcbBySockFdListos sockfd = some q)
    (h : entregarPokemon sockfd q id pokenest r m = (some k, m')) : Movida m sockfd r k m' := by
  have hcopia : ∀ a : Almacen, ∀ path archivo,
      (a.copiarADirDeBill path pokenest.species archivo).listaPokenest = a.listaPokenest := by
    intro a path archivo
    unfold Almacen.copiarADirDeBill
    split <;> rfl
  unfold entregarPokemon at h
  dsimp only at h
  split at h
  · next hacuse =>
    obtain ⟨rfl, rfl⟩ := Op.some_inj h
    apply Movida.captura ht hpok hay hacuse hq
    · refine Inmovil.modificarPcb ?_ q (fun _ => rfl) fun _ => rfl
      exact ⟨⟨rfl, rfl, rfl, rfl⟩, rfl, rfl⟩
    · rfl
    · change Almacen.listaPokenest (if r.copia then _ else _) = _
      split
      · exact hcopia _ _ _
      · rfl
  · next hacuse =>
    obtain ⟨rfl, rfl⟩ := Op.some_inj h
    refine .perdida ht hpok hay (by simpa using hacuse) ?_ rfl ?_
    · exact ⟨⟨rfl, rfl, rfl, rfl⟩, rfl, rfl⟩
    · change Almacen.listaPokenest (if r.copia then _ else _) = _
      split
      · exact hcopia _ _ _
      · rfl

theorem movida_capturarPokemon (ht : r.tipoMensaje = 3)
    (h : capturarPokemon sockfd r m = (some k, m')) : Movida m sockfd r k m' := by
  unfold capturarPokemon at h
  split at h
  · next hpok =>
    obtain ⟨rfl, rfl⟩ := Op.some_inj h
    exact .cortado (.inr (.inr ⟨ht, hpok⟩))
  · next id hpok =>
    split at h
    · next q pokenest hq hnest =>
      have hunidad : m.hayUnidad id = decide (pokenest.identificador = id ∧ 0 < pokenest.cant) := by
        rw [Almacen.hayUnidad, hnest, Option.any_some]
      split at h
      · next hid =>
        obtain ⟨rfl, rfl⟩ := Op.some_inj h
        refine .sigue (by decide) ?_ (.refl m) rfl rfl
        simp [Recibido.seVa, ht, hpok, hunidad, hid]
      · next hid =>
        rw [ne_eq, not_not] at hid
        split at h
        · next hcant =>
          have hay : m.hayUnidad id = true := by
            rw [hunidad]
            exact decide_eq_true ⟨hid, hcant⟩
          exact movida_entregarPokemon ht hpok hay hq h
        · next hcant =>
          obtain ⟨rfl, rfl⟩ := Op.some_inj h
          apply Movida.bloqueado _ _ hq
          · simp only [Recibido.seBloquea, ht, hpok, hnest, Option.any_some]
            simp [hid, hcant]
          · simp [Recibido.seVa, ht, hpok, hunidad, hcant]
    · cases h

theorem movida_despedir (h1 : r.tipoMensaje ≠ 1) (h2 : r.tipoMensaje ≠ 2) (h3 : r.tipoMensaje ≠ 3)
    {m₀ : Estado} (hm : Inmovil m₀ m) (hrec : m.recursos = m₀.recursos)
    (hnest : m.listaPokenest = m₀.listaPokenest) (h : despedir sockfd m = (some k, m')) :
    Movida m₀ sockfd r k m' := by
  obtain ⟨_, m₁, hlib, _⟩ := Op.of_bind (congrArg Prod.fst h)
  rw [despedir, Op.bind_some hlib, Op.modify_bind] at h
  obtain ⟨rfl, rfl⟩ := Op.some_inj h
  rw [liberarRecursosListos, Op.get_bind] at hlib
  cases hq : m.getPcbBySockFdListos sockfd with
  | some q =>
    rw [hq] at hlib
    have hcap : m.capturados q = m₀.capturados q := by
      unfold Estado.capturados
      rw [hm.lista, hrec]
    have hq₀ : m₀.getPcbBySockFdListos sockfd = some q := by
      rw [← hq]
      unfold Estado.getPcbBySockFdListos
      rw [hm.listaListos, hm.sock]
    obtain ⟨a, rfl, hdev⟩ := liberarRecursosBloqueados_some hlib
    rw [hcap, hnest] at hdev
    refine .despedido h1 h2 h3 hq₀ ?_ hrec hdev
    exact ⟨⟨hm.listaListos, hm.sock, hm.libre, hm.quantum⟩, hm.listaBloqueados, hm.lista⟩
  | none =>
    rw [hq] at hlib
    cases hlib

theorem movida_mensaje (h : mensajeDeEntrenadorRecibido sockfd r m = (some k, m')) :
    Movida m sockfd r k m' := by
  unfold mensajeDeEntrenadorRecibido at h
  split at h
  · next ht => exact movida_obtenerPokenest ht h
  split at h
  · next ht => exact movida_moverPosicion ht h
  split at h
  · next ht => exact movida_capturarPokemon ht h
  · next h1 h2 h3 =>
    split at h
    · rw [Op.modify_bind] at h
      exact movida_despedir h1 h2 h3 (Inmovil.refl m).enviar rfl rfl h
    · exact movida_despedir h1 h2 h3 (.refl m) rfl rfl h

end Movida

/-! ### What a message does to the lists -/

theorem Inmovil.trans {m m' m'' : Estado} (h : Inmovil m m') (h' : Inmovil m' m'') :
    Inmovil m m'' :=
  ⟨h.toQuieto.trans h'.toQuieto, h'.2.trans h.2, h'.3.trans h.3⟩

/-- The part of `Movida` that is about the lists. -/
inductive Cambio (m : Estado) (sockfd : ℤ) (r : Recibido) : ℤ → Estado → Prop where
  | queda {k : ℤ} {m' : Estado} : k ≠ 1 → r.seVa m.toAlmacen = false → Inmovil m m' →
      Cambio m sockfd r k m'
  | bloqueado {q : ℕ} {m' : Estado} : r.seBloquea m.toAlmacen = true →
      r.seVa m.toAlmacen = false → m.getPcbBySockFdListos sockfd = some q →
      Inmovil { m with listaBloqueados := m.listaBloqueados ++ [q] } m' → Cambio m sockfd r 1 m'
  | cortado {m' : Estado} : r.tipoMensaje = 1 ∨ r.tipoMensaje = 2 ∨ r.tipoMensaje = 3 →
      r.seVa m.toAlmacen = true → Inmovil m m' → Cambio m sockfd r 1 m'
  | despedido {m' : Estado} : r.seVa m.toAlmacen = true →
      Inmovil (eliminarSocketListaListos sockfd m) m' → Cambio m sockfd r 1 m'

section Cambio
variable {m m' m'' : Estado} {sockfd k : ℤ} {r : Recibido}

theorem Movida.cambio (h : Movida m sockfd r k m') : Cambio m sockfd r k m' := by
  cases h with
  | sigue hk hva hi _ _ => exact .queda hk hva hi
  | captura ht hpok hay hacuse _ hi _ _ =>
    exact .queda (by decide) (by simp [Recibido.seVa, ht, hpok, hacuse]) hi
  | bloqueado hblo hva hq => exact .bloqueado hblo hva hq ⟨⟨rfl, rfl, rfl, rfl⟩, rfl, rfl⟩
  | cortado hr =>
    rcases hr with ⟨ht, hr⟩ | ⟨ht, hr⟩ | ⟨ht, hr⟩
    · exact .cortado (.inl ht) (by simp [Recibido.seVa, ht, hr]) (.refl m)
    · exact .cortado (.inr (.inl ht)) (by simp [Recibido.seVa, ht, hr]) (.refl m)
    · exact .cortado (.inr (.inr ht)) (by simp [Recibido.seVa, ht, hr]) (.refl m)
  | perdida ht hpok hay hacuse hi _ _ =>
    exact .cortado (.inr (.inr ht)) (by simp [Recibido.seVa, ht, hpok, hay, hacuse]) hi
  | despedido h1 h2 h3 _ hi _ _ =>
    refine .despedido (by simp [Recibido.seVa, h1, h2, h3]) ?_
    refine ⟨⟨?_, hi.sock, hi.libre, hi.quantum⟩, hi.listaBloqueados, hi.lista⟩
    change List.eraseP _ _ = List.eraseP _ _
    rw [hi.listaListos, hi.sock]

theorem Cambio.inmovil (h : Cambio m sockfd r k m') (hi : Inmovil m' m'') :
    Cambio m sockfd r k m'' := by
  cases h with
  | queda hk hva h => exact .queda hk hva (h.trans hi)
  | bloqueado hblo hva hq h => exact .bloqueado hblo hva hq (h.trans hi)
  | cortado ht hva h => exact .cortado ht hva (h.trans hi)
  | despedido hva h => exact .despedido hva (h.trans hi)

theorem mem_of_getPcbBySockFdListos {q : ℕ} (h : m.getPcbBySockFdListos sockfd = some q) :
    q ∈ m.listaListos := by
  cases Option.or_eq_some_iff.mp h with
  | inl hf => exact List.mem_of_find?_eq_some hf
  | inr hl => exact List.mem_of_getLast? hl.2

/-- A message takes trainers out of the lists, and may put a ready one in the other. -/
theorem Cambio.listas (h : Cambio m sockfd r k m') : m'.sock = m.sock ∧ m'.libre = m.libre ∧
    (∀ p ∈ m'.listaListos, p ∈ m.listaListos) ∧
    ∀ p ∈ m'.listaBloqueados, p ∈ m.listaListos ∨ p ∈ m.listaBloqueados := by
  cases h with
  | queda _ _ hi =>
    rw [hi.listaListos, hi.listaBloqueados]
    exact ⟨hi.sock, hi.libre, fun _ hp => hp, fun _ hp => .inr hp⟩
  | bloqueado _ _ hq hi =>
    rw [hi.listaListos, hi.listaBloqueados]
    refine ⟨hi.sock, hi.libre, fun _ hp => hp, ?_⟩
    intro p hp
    cases List.mem_append.mp hp with
    | inl hp => exact .inr hp
    | inr hp =>
      rw [List.mem_singleton.mp hp]
      exact .inl (mem_of_getPcbBySockFdListos hq)
  | cortado _ _ hi =>
    rw [hi.listaListos, hi.listaBloqueados]
    exact ⟨hi.sock, hi.libre, fun _ hp => hp, fun _ hp => .inr hp⟩
  | despedido _ hi =>
    rw [hi.listaListos, hi.listaBloqueados]
    exact ⟨hi.sock, hi.libre, fun _ hp => List.mem_of_mem_eraseP hp, fun _ hp => .inr hp⟩

theorem sock_of_getPcbBySockFdListos {p q : ℕ} (hp : p ∈ m.listaListos)
    (h : m.getPcbBySockFdListos (m.sock p) = some q) : m.sock q = m.sock p := by
  cases Option.or_eq_some_iff.mp h with
  | inl hf => simpa using List.find?_some hf
  | inr hl => exact absurd (decide_eq_true rfl) (List.find?_eq_none.mp hl.1 p hp)

end Cambio

/-! ## Connections -/

/-- What a connection does: the `t_pcb` and the list of resources of the trainer are new. -/
structure Conectado (m : Estado) (sockfd : ℤ) (m' : Estado) : Prop where
  listaListos : m'.listaListos = m.listaListos ++ [m.libre]
  listaBloqueados : m'.listaBloqueados = m.listaBloqueados
  libre : m'.libre = m.libre + 1
  sock : m'.sock m.libre = sockfd
  lista : m'.lista m.libre = m.libre
  punto : (m'.pcb m.libre).punto = ⟨0, 0⟩
  pcb : ∀ p < m.libre, m'.pcb p = m.pcb p
  recursos : m'.recursos = update m.recursos m.libre []
  listaPokenest : m'.listaPokenest = m.listaPokenest
  enviados : m'.enviados = m.enviados

theorem conectado_nuevoEntrenadorConectado {m m' : Estado} {sockfd : ℤ} {path : Nombre} {id : UInt8}
    (h : nuevoEntrenadorConectado sockfd path id m = (some ⟨⟩, m')) : Conectado m sockfd m' := by
  unfold nuevoEntrenadorConectado at h
  split at h
  · next proxima _ =>
    obtain ⟨_, rfl⟩ := Op.some_inj h
    refine ⟨rfl, rfl, rfl, ?_, ?_, ?_, fun p hp => Function.update_of_ne hp.ne _ _, rfl, rfl, rfl⟩
    · unfold Estado.sock
      dsimp only
      rw [Function.update_self]
    · unfold Estado.lista
      dsimp only
      rw [Function.update_self]
    · dsimp only
      rw [Function.update_self]
  · cases h

/-! ## Steps -/

theorem menorDistancia_mem {m : Estado} {l : List ℕ} {p : ℕ} (h : menorDistancia m l = some p) :
    p ∈ l := by
  have hfold : ∀ (ps : List ℕ) (menor : ℕ), ps.foldl (fun menor q =>
      if calcularDistancia (m.pcb q) ≤ calcularDistancia (m.pcb menor) then q else menor) menor ∈
        menor :: ps := by
    intro ps
    induction ps with
    | nil => exact fun menor => List.mem_singleton.mpr rfl
    | cons q ps ih =>
      intro menor
      rw [List.foldl_cons]
      split
      · exact List.mem_cons_of_mem _ (ih q)
      · cases List.mem_cons.mp (ih menor) with
        | inl he => simp [he]
        | inr hps => simp [hps]
  cases l with
  | nil => cases h
  | cons q l =>
    rw [← Option.some.inj h]
    exact hfold l q

theorem elegirSrdf_mem {m : Estado} {p : ℕ} (h : elegirSrdf m = some p) : p ∈ m.listaListos := by
  cases Option.or_eq_some_iff.mp h with
  | inl hf => exact List.mem_of_find?_eq_some hf
  | inr hm => exact menorDistancia_mem hm.2

/-- Who plays after a message of the trainer at `p`. -/
def Partida.quedan (s : Partida) (r : Recibido) (p : ℕ) : List ℕ :=
  if r.seVa s.mapa.toAlmacen then s.sinSocket (s.mapa.sock p) else s.jugando

theorem Partida.siguen_enCurso {s : Partida} {p n : ℕ} (h : s.turno = .enCurso p n) (m : Estado)
    (r : Recibido) : s.siguen m (.atiende r) = s.quedan r p := by
  simp only [Partida.siguen, h, Partida.quedan]

theorem Partida.siguen_elegido {s : Partida} {p : ℕ} {segundo : Bool}
    (h : s.turno = .elegido p segundo) (m : Estado) (r : Recibido) :
    s.siguen m (.atiende r) = s.quedan r p := by
  simp only [Partida.siguen, h, Partida.quedan]

inductive Jugada (f : Fabrica) (s : Partida) : Evento → Partida → Prop where
  | conecta {sockfd : ℤ} {path : Nombre} {id : UInt8} {m' : Estado} :
      nuevoEntrenadorConectado sockfd path id s.mapa = (some ⟨⟩, m') →
      Jugada f s (.conecta sockfd path id) ⟨⟨m', s.turno⟩, s.mapa.libre :: s.jugando⟩
  | empieza {p n : ℕ} : s.turno = .libre → s.mapa.listaListos.head? = some p →
      Jugada f s .empieza ⟨⟨s.mapa, .enCurso p n⟩, s.jugando⟩
  | elige {p : ℕ} : s.turno = .libre → p ∈ s.mapa.listaListos →
      Jugada f s .empieza ⟨⟨s.mapa, .elegido p false⟩, s.jugando⟩
  | atiende {r : Recibido} {p n : ℕ} {k : ℤ} {m' : Estado} : s.turno = .enCurso p (n + 1) →
      Movida s.mapa (s.mapa.sock p) r k m' →
      Jugada f s (.atiende r) ⟨⟨m', trasMensaje p n k⟩, s.quedan r p⟩
  | atiendeElegido {r : Recibido} {p : ℕ} {segundo : Bool} {k : ℤ} {m₁ m' : Estado} {t : Turno} :
      s.turno = .elegido p segundo → Movida s.mapa (s.mapa.sock p) r k m₁ → Inmovil m₁ m' →
      m'.recursos = m₁.recursos → m'.listaPokenest = m₁.listaPokenest →
      t = .libre ∨ k ≠ 1 ∧ t = .elegido p true →
      Jugada f s (.atiende r) ⟨⟨m', t⟩, s.quedan r p⟩
  | termina {p : ℕ} {k : ℤ} : s.turno = .agotado p k →
      Jugada f s .termina ⟨⟨finDeTurno p k s.mapa, .libre⟩, s.jugando⟩
  | detecta {peleas : Peleas} {m' : Estado} : detectarDeadLock f peleas s.mapa = (some ⟨⟩, m') →
      Jugada f s (.detecta peleas) ⟨⟨m', s.turno⟩, s.siguen m' (.detecta peleas)⟩
  | recarga : Jugada f s .recarga
      ⟨⟨{ s.mapa with toAlmacen := s.mapa.cargarPokenest }, s.turno⟩, s.jugando⟩

theorem Partida.avanzar_jugada {f : Fabrica} {algoritmo : Algoritmo} {s s' : Partida} {e : Evento}
    (h : s.avanzar f algoritmo e = some s') : Jugada f s e s' := by
  obtain ⟨proceso, hpaso, rfl⟩ := Option.map_eq_some_iff.mp h
  cases e with
  | conecta sockfd path id =>
    obtain ⟨⟨_, m⟩, ho, rfl⟩ := Option.map_eq_some_iff.mp hpaso
    exact .conecta (Op.outcome_eq_some.mp ho)
  | empieza =>
    unfold pasoMapa at hpaso
    dsimp only at hpaso
    split at hpaso
    · next hlibre =>
      obtain ⟨turno, ht, rfl⟩ := Option.map_eq_some_iff.mp hpaso
      unfold empezar at ht
      split at ht
      · split at ht
        · cases ht
        · obtain ⟨p, hp, rfl⟩ := Option.map_eq_some_iff.mp ht
          exact .empieza hlibre hp
      · obtain ⟨p, hp, rfl⟩ := Option.map_eq_some_iff.mp ht
        exact .elige hlibre (elegirSrdf_mem hp)
    · cases hpaso
  | atiende r =>
    change atender s.proceso r = some proceso at hpaso
    unfold atender at hpaso
    split at hpaso
    · next p n ht =>
      obtain ⟨⟨k, m⟩, ho, rfl⟩ := Option.map_eq_some_iff.mp hpaso
      change Jugada f s (.atiende r) ⟨⟨m, trasMensaje p n k⟩, s.siguen m (.atiende r)⟩
      rw [Partida.siguen_enCurso ht]
      exact .atiende ht (movida_mensaje (Op.outcome_eq_some.mp ho))
    · next p ht =>
      obtain ⟨⟨k, m⟩, ho, rfl⟩ := Option.map_eq_some_iff.mp hpaso
      change Jugada f s (.atiende r) ⟨⟨m, _⟩, s.siguen m (.atiende r)⟩
      rw [Partida.siguen_elegido ht]
      refine .atiendeElegido ht (movida_mensaje (Op.outcome_eq_some.mp ho)) (.refl m) rfl rfl ?_
      by_cases hk : k = 2
      · exact .inr ⟨by omega, if_pos hk⟩
      · exact .inl (if_neg hk)
    · next p ht =>
      obtain ⟨⟨k, m⟩, ho, rfl⟩ := Option.map_eq_some_iff.mp hpaso
      change Jugada f s (.atiende r) ⟨⟨modificarPcb p _ m, .libre⟩, s.siguen _ (.atiende r)⟩
      rw [Partida.siguen_elegido ht]
      refine .atiendeElegido ht (movida_mensaje (Op.outcome_eq_some.mp ho)) ?_ rfl rfl (.inl rfl)
      exact (Inmovil.refl m).modificarPcb p (fun _ => rfl) fun _ => rfl
    · cases hpaso
  | termina =>
    unfold pasoMapa at hpaso
    dsimp only at hpaso
    split at hpaso
    · next p k ht =>
      obtain rfl := Option.some.inj hpaso
      exact .termina ht
    · cases hpaso
  | detecta peleas =>
    obtain ⟨⟨_, m⟩, ho, rfl⟩ := Option.map_eq_some_iff.mp hpaso
    exact .detecta (Op.outcome_eq_some.mp ho)
  | recarga =>
    obtain rfl := Option.some.inj hpaso
    exact .recarga

/-! ## What holds in every run -/

theorem Partida.Admite.ajustar {s : Partida} {e : Evento} (h : s.Admite e) (a : Ajustes) :
    (s.ajustar a).Admite e := by
  cases e <;> exact h

theorem presentes_sinSocket {s : Partida} (h : s.presentes.Nodup) (k : ℤ) :
    (s.sinSocket k).map s.mapa.sock = s.presentes.erase k := by
  rw [h.erase_eq_filter, Partida.presentes, List.filter_map, Partida.sinSocket]
  congr 1
  apply List.filter_congr
  intro p _
  rw [Bool.eq_iff_iff]
  simp

section Quedan
variable {s : Partida}

theorem quedan_sublist (r : Recibido) (p : ℕ) : (s.quedan r p).Sublist s.jugando := by
  unfold Partida.quedan
  split
  · exact List.filter_sublist
  · exact List.Sublist.refl _

theorem quedan_sigue {r : Recibido} {p : ℕ} (h : r.seVa s.mapa.toAlmacen = false) :
    s.quedan r p = s.jugando := by
  rw [Partida.quedan, if_neg (by simp [h])]

theorem quedan_seVa {r : Recibido} {p : ℕ} (hnd : s.presentes.Nodup)
    (h : r.seVa s.mapa.toAlmacen = true) :
    (s.quedan r p).map s.mapa.sock = s.presentes.erase (s.mapa.sock p) := by
  rw [Partida.quedan, if_pos h, presentes_sinSocket hnd]

theorem siguen_detecta {f : Fabrica} {peleas : Peleas} {m' : Estado}
    (hd : Deteccion f peleas s.mapa m') : s.siguen m' (.detecta peleas) =
      (quienCae f peleas s.mapa).elim s.jugando fun c => s.sinSocket (s.mapa.sock c) := by
  have hmuere : ∀ k, (k, Envio.resultado morite) ∈ m'.enviados.drop s.mapa.enviados.length ↔
      (quienCae f peleas s.mapa).map s.mapa.sock = some k := hd.enviados
  cases hc : quienCae f peleas s.mapa with
  | none =>
    apply List.filter_eq_self.mpr
    intro p _
    rw [decide_eq_true_iff, hmuere, hc]
    simp
  | some c =>
    apply List.filter_congr
    intro p _
    rw [Bool.eq_iff_iff, decide_eq_true_iff, decide_eq_true_iff, hmuere, hc]
    simp [eq_comm]

end Quedan

/-- The end of a turn changes the list of the ready trainers and nothing else. -/
theorem finDeTurno_lista (p : ℕ) (k : ℤ) (m : Estado) :
    ∃ l, finDeTurno p k m = { m with listaListos := l } := by
  unfold finDeTurno
  split
  · exact ⟨_, rfl⟩
  split
  · exact ⟨_, rfl⟩
  · exact ⟨m.listaListos, rfl⟩

/-- The `t_pcb` in use have been given, and those who play have sockets of their own. -/
structure Fresca (s : Partida) : Prop where
  listos : ∀ p ∈ s.mapa.listaListos, p < s.mapa.libre
  bloqueados : ∀ p ∈ s.mapa.listaBloqueados, p < s.mapa.libre
  jugando : ∀ p ∈ s.jugando, p < s.mapa.libre
  turno : ∀ p ∈ s.turno.de, p < s.mapa.libre
  distintos : s.presentes.Nodup

namespace Fresca

variable {s : Partida}

theorem comienza (h : s.Comienza) : Fresca s := by
  refine ⟨?_, ?_, ?_, ?_, ?_⟩
  · simp [h.listaListos]
  · simp [h.listaBloqueados]
  · simp [h.jugando]
  · simp [h.turno, Turno.de]
  · simp [Partida.presentes, h.jugando]

theorem ajustar (h : Fresca s) (a : Ajustes) : Fresca (s.ajustar a) :=
  ⟨h.listos, h.bloqueados, h.jugando, h.turno, h.distintos⟩

theorem igual {m' : Estado} {t : Turno} {js : List ℕ} (h : Fresca s)
    (hsock : m'.sock = s.mapa.sock) (hlibre : m'.libre = s.mapa.libre)
    (hlistos : ∀ p ∈ m'.listaListos, p < s.mapa.libre)
    (hbloq : ∀ p ∈ m'.listaBloqueados, p < s.mapa.libre) (hjs : js.Sublist s.jugando)
    (ht : ∀ p ∈ t.de, p < s.mapa.libre) : Fresca ⟨⟨m', t⟩, js⟩ := by
  constructor
  · exact fun p hp => (hlistos p hp).trans_eq hlibre.symm
  · exact fun p hp => (hbloq p hp).trans_eq hlibre.symm
  · exact fun p hp => (h.jugando p (hjs.subset hp)).trans_eq hlibre.symm
  · exact fun p hp => (ht p hp).trans_eq hlibre.symm
  · change (js.map m'.sock).Nodup
    rw [hsock]
    exact h.distintos.sublist (hjs.map _)

theorem cambio {r : Recibido} {p : ℕ} {k : ℤ} {m' : Estado} {t : Turno} (h : Fresca s)
    (hc : Cambio s.mapa (s.mapa.sock p) r k m') (ht : ∀ q ∈ t.de, q < s.mapa.libre) :
    Fresca ⟨⟨m', t⟩, s.quedan r p⟩ := by
  obtain ⟨hsock, hlibre, hlistos, hbloq⟩ := hc.listas
  refine h.igual hsock hlibre (fun q hq => h.listos q (hlistos q hq)) ?_ (quedan_sublist r p) ht
  exact fun q hq => (hbloq q hq).elim (h.listos q) (h.bloqueados q)

theorem conecta {sockfd : ℤ} {path : Nombre} {id : UInt8} {m' : Estado} (h : Fresca s)
    (hadmite : s.Admite (.conecta sockfd path id)) (hc : Conectado s.mapa sockfd m') :
    Fresca ⟨⟨m', s.turno⟩, s.mapa.libre :: s.jugando⟩ := by
  have hle : s.mapa.libre ≤ m'.libre := by
    rw [hc.libre]
    exact Nat.le_succ _
  have hlt : s.mapa.libre < m'.libre := by
    rw [hc.libre]
    exact Nat.lt_succ_self _
  have hsock : ∀ p ∈ s.jugando, m'.sock p = s.mapa.sock p := fun p hp =>
    congrArg Pcb.sockfd (hc.pcb p (h.jugando p hp))
  constructor
  · intro p hp
    change p ∈ m'.listaListos at hp
    rw [hc.listaListos] at hp
    cases List.mem_append.mp hp with
    | inl hp => exact (h.listos p hp).trans_le hle
    | inr hp => rwa [List.mem_singleton.mp hp]
  · intro p hp
    change p ∈ m'.listaBloqueados at hp
    rw [hc.listaBloqueados] at hp
    exact (h.bloqueados p hp).trans_le hle
  · exact List.forall_mem_cons.mpr ⟨hlt, fun p hp => (h.jugando p hp).trans_le hle⟩
  · exact fun p hp => (h.turno p hp).trans_le hle
  · change ((s.mapa.libre :: s.jugando).map m'.sock).Nodup
    rw [List.map_cons, List.map_congr_left hsock, hc.sock, List.nodup_cons]
    refine ⟨?_, h.distintos⟩
    intro hmem
    obtain ⟨p, hp, he⟩ := List.mem_map.mp hmem
    exact hadmite p hp he

theorem detecta {f : Fabrica} {peleas : Peleas} {m' : Estado} (h : Fresca s)
    (hd : Deteccion f peleas s.mapa m') :
    Fresca ⟨⟨m', s.turno⟩, s.siguen m' (.detecta peleas)⟩ := by
  have hjs : (s.siguen m' (.detecta peleas)).Sublist s.jugando := List.filter_sublist
  constructor
  · intro p hp
    change p ∈ m'.listaListos at hp
    rw [hd.listaListos] at hp
    cases List.mem_append.mp hp with
    | inl hp => exact (h.listos p hp).trans_le hd.libre
    | inr hp => exact hd.sueltos p hp
  · exact fun p hp => (h.bloqueados p (hd.listaBloqueados hp)).trans_le hd.libre
  · exact fun p hp => (h.jugando p (hjs.subset hp)).trans_le hd.libre
  · exact fun p hp => (h.turno p hp).trans_le hd.libre
  · have hsock : ∀ p ∈ s.siguen m' (.detecta peleas), m'.sock p = s.mapa.sock p := fun p hp =>
      congrArg Pcb.sockfd (hd.pcb p (h.jugando p (hjs.subset hp)))
    change ((s.siguen m' (.detecta peleas)).map m'.sock).Nodup
    rw [List.map_congr_left hsock]
    exact h.distintos.sublist (hjs.map _)

theorem termina {p : ℕ} {k : ℤ} (h : Fresca s) (ht : s.turno = .agotado p k) :
    Fresca ⟨⟨finDeTurno p k s.mapa, .libre⟩, s.jugando⟩ := by
  have hp : p < s.mapa.libre := h.turno p (by rw [ht]; rfl)
  have hfin := @frescos_finDeTurno p s.mapa k h.listos hp
  obtain ⟨l, hl⟩ := finDeTurno_lista p k s.mapa
  rw [hl] at hfin ⊢
  exact h.igual rfl rfl hfin h.bloqueados (List.Sublist.refl _) (by simp [Turno.de])

theorem jugada {f : Fabrica} {s' : Partida} {e : Evento} (h : Fresca s) (hadmite : s.Admite e)
    (hj : Jugada f s e s') : Fresca s' := by
  cases hj with
  | conecta he => exact h.conecta hadmite (conectado_nuevoEntrenadorConectado he)
  | @empieza p n _ hp =>
    refine ⟨h.listos, h.bloqueados, h.jugando, ?_, h.distintos⟩
    exact fun q hq => Option.some.inj hq ▸ h.listos p (List.mem_of_head? hp)
  | @elige p _ hp =>
    refine ⟨h.listos, h.bloqueados, h.jugando, ?_, h.distintos⟩
    exact fun q hq => Option.some.inj hq ▸ h.listos p hp
  | @atiende r p n k m' ht hm =>
    apply h.cambio hm.cambio
    have hp : p < s.mapa.libre := h.turno p (by rw [ht]; rfl)
    unfold trasMensaje
    split <;> exact fun q hq => Option.some.inj hq ▸ hp
  | @atiendeElegido r p segundo k m₁ m' t ht hm hi _ _ hturno =>
    apply h.cambio (hm.cambio.inmovil hi)
    have hp : p < s.mapa.libre := h.turno p (by rw [ht]; rfl)
    rcases hturno with rfl | ⟨_, rfl⟩
    · simp [Turno.de]
    · exact fun q hq => Option.some.inj hq ▸ hp
  | termina ht => exact h.termina ht
  | detecta he => exact h.detecta (deteccion_detectarDeadLock h.bloqueados he)
  | recarga => exact ⟨h.listos, h.bloqueados, h.jugando, h.turno, h.distintos⟩

end Fresca

end TpSo.Mapa
