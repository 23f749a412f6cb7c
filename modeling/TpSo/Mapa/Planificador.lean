import TpSo.Base.Machine
import TpSo.Base.Run
import TpSo.Mapa.Deteccion

/-!
# The planner and the process

The planner attends one message after another; connections, the detection of deadlocks and the
reloads of the configuration come in between. `Turno` is where the planner is in
`roundRobinAlgorithm` or in `srdfAlgorithm`.
-/

namespace TpSo.Mapa

open Function (update)

inductive Algoritmo where
  | rr
  | srdf
  deriving DecidableEq, Repr

inductive Turno where
  | libre
  /-- In the loop of `roundRobinAlgorithm`. -/
  | enCurso (procesoCorriendo remain : ℕ)
  /-- Out of it. -/
  | agotado (procesoCorriendo : ℕ) (result : ℤ)
  /-- In `srdfAlgorithm`, at its first message or at its second. -/
  | elegido (entrenadorElegido : ℕ) (segundo : Bool)
  deriving DecidableEq, Repr

structure Proceso where
  mapa : Estado
  turno : Turno

/-! ## Round robin -/

/-- After a message, with `remain` already counted down: the result `1` is of a trainer that is
blocked or gone, `2` of one that has asked for a pokenest. -/
def trasMensaje (procesoCorriendo remain : ℕ) (result : ℤ) : Turno :=
  if result = 1 ∨ result = 2 ∨ remain = 0 then .agotado procesoCorriendo result
  else .enCurso procesoCorriendo remain

/-- The end of `roundRobinAlgorithm`. -/
def finDeTurno (procesoCorriendo : ℕ) (result : ℤ) (m : Estado) : Estado :=
  if result = 1 then eliminarSocketListaListos (m.sock procesoCorriendo) m
  else if result = 0 then
    { m with listaListos := m.listaListos.eraseIdx 0 ++ [procesoCorriendo] }
  else m

/-! ## Shortest remaining distance first -/

def calcularDistancia (p : Pcb) : ℤ :=
  i32 ((p.proximaPokenest.coordenada.puntox - p.punto.puntox) +
    (p.proximaPokenest.coordenada.puntoy - p.punto.puntoy))

/-- The last of the trainers with the least distance. -/
def menorDistancia (m : Estado) : List ℕ → Option ℕ
  | [] => none
  | p :: ps => some (ps.foldl (fun menor q =>
      if calcularDistancia (m.pcb q) ≤ calcularDistancia (m.pcb menor) then q else menor) p)

/-- The first trainer whose direction is not known, if there is one. -/
def elegirSrdf (m : Estado) : Option ℕ :=
  (m.listaListos.find? fun p => (m.pcb p).direccionDesconocida).or (menorDistancia m m.listaListos)

/-! ## The process -/

inductive Evento where
  | conecta (sockfd : ℤ) (pathEntrenador : Nombre) (primerObjetivo : UInt8)
  | empieza
  | atiende (r : Recibido)
  | termina
  | detecta (peleas : Peleas)
  /-- SIGUSR2, with the other values of the configuration as they were. -/
  | recarga

def empezar (algoritmo : Algoritmo) (m : Estado) : Option Turno :=
  match algoritmo with
  | .rr => if m.quantum = 0 then none else m.listaListos.head?.map fun p => .enCurso p m.quantum
  | .srdf => (elegirSrdf m).map fun p => .elegido p false

def atender (s : Proceso) (r : Recibido) : Option Proceso :=
  match s.turno with
  | .enCurso p (remain + 1) =>
    ((mensajeDeEntrenadorRecibido (s.mapa.sock p) r).outcome s.mapa).map fun (result, m) =>
      ⟨m, trasMensaje p remain result⟩
  | .elegido p false =>
    ((mensajeDeEntrenadorRecibido (s.mapa.sock p) r).outcome s.mapa).map fun (result, m) =>
      ⟨m, if result = 2 then .elegido p true else .libre⟩
  | .elegido p true =>
    ((mensajeDeEntrenadorRecibido (s.mapa.sock p) r).outcome s.mapa).map fun (_, m) =>
      ⟨modificarPcb p (fun e => { e with direccionDesconocida := false }) m, .libre⟩
  | _ => none

def pasoMapa (algoritmo : Algoritmo) (f : Fabrica) (s : Proceso) : Evento → Option Proceso
  | .conecta sockfd pathEntrenador primerObjetivo =>
    ((nuevoEntrenadorConectado sockfd pathEntrenador primerObjetivo).outcome s.mapa).map
      fun (_, m) => { s with mapa := m }
  | .empieza =>
    if s.turno = .libre then
      (empezar algoritmo s.mapa).map fun turno => { s with turno := turno }
    else none
  | .atiende r => atender s r
  | .termina =>
    match s.turno with
    | .agotado p result => some ⟨finDeTurno p result s.mapa, .libre⟩
    | _ => none
  | .detecta peleas =>
    ((detectarDeadLock f peleas).outcome s.mapa).map fun (_, m) => { s with mapa := m }
  | .recarga => some { s with mapa := { s.mapa with toAlmacen := s.mapa.cargarPokenest } }

def PasoMapa (algoritmo : Algoritmo) (f : Fabrica) (s : Proceso) (e : Evento) (s' : Proceso) :
    Prop :=
  pasoMapa algoritmo f s e = some s'

end TpSo.Mapa
