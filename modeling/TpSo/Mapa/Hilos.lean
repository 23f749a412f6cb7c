import TpSo.Base.Locks

/-!
# The threads of the map

The connections, the planner and the detection of deadlocks as programs over the two lists, with
their locks, their semaphores and the last action of every trainer. What a trainer sends, the
pokenests and the resources are whatever the environment answers. The drawing thread goes round its
loops, each round in one piece.
-/

namespace TpSo.Mapa.Hilado

open Function (update)

inductive Cerrojo where
  | mutexListaListos
  | mutexListaBloqueados
  | mutexListaPokenest
  deriving DecidableEq

inductive Hilo where
  | conexiones
  | planificador
  | interbloqueo
  deriving DecidableEq

inductive Lista where
  | listaListos
  | listaBloqueados
  deriving DecidableEq

inductive Semaforo where
  | semGui
  | semEntrenadorYaSeDibujo
  deriving DecidableEq

/-- `ENTRENADOR_ULTIMA_ACCION`. -/
inductive Accion where
  | nada
  | seMovio
  | seDesconecto
  | seConecto
  | seBloqueo
  | seDesbloqueo
  deriving DecidableEq

/-- Where the drawing thread is in `dibujarGUI`. -/
inductive Pintor where
  | espera
  | listos (i : ℕ) (entrenador : Option ℕ) (huboCambios : Bool)
  | bloqueados (i : ℕ) (entrenador : Option ℕ) (huboCambios : Bool)
  deriving DecidableEq

structure Memoria where
  listaListos : List ℕ
  listaBloqueados : List ℕ
  sockfd : ℕ → ℤ
  ultimaAccion : ℕ → Accion
  libre : ℕ
  semGui : ℕ
  semEntrenadorYaSeDibujo : ℕ
  pintor : Pintor

namespace Memoria

def lista (m : Memoria) : Lista → List ℕ
  | .listaListos => m.listaListos
  | .listaBloqueados => m.listaBloqueados

def conLista (m : Memoria) (l : List ℕ) : Lista → Memoria
  | .listaListos => { m with listaListos := l }
  | .listaBloqueados => { m with listaBloqueados := l }

def conPcb (m : Memoria) (sockfd : ℤ) (accion : Accion) : Memoria :=
  { m with
    sockfd := update m.sockfd m.libre sockfd
    ultimaAccion := update m.ultimaAccion m.libre accion
    libre := m.libre + 1 }

end Memoria

/-! ## The drawing thread -/

/-- The actions that the loop over the ready trainers draws. -/
def Accion.seDibuja : Accion → Bool
  | .seConecto | .seMovio | .seDesconecto | .seBloqueo => true
  | .nada | .seDesbloqueo => false

/-- The actions that the loop over the blocked trainers draws. -/
def Accion.seDibujaBloqueado : Accion → Bool
  | .nada | .seDesbloqueo => true
  | _ => false

/-- A round of `dibujarGUI`. After the first blocked trainer the next ones are taken from
`listaListos`. -/
def dibujarGUI (m : Memoria) : Option Memoria :=
  match m.pintor with
  | .espera =>
    if 0 < m.semGui then
      some { m with semGui := m.semGui - 1, pintor := .listos 0 m.listaListos[0]? false }
    else none
  | .listos i (some entrenador) huboCambios =>
    if i < m.listaListos.length then
      let cambia := (m.ultimaAccion entrenador).seDibuja
      some { m with
        ultimaAccion := if cambia then update m.ultimaAccion entrenador .nada else m.ultimaAccion
        pintor := .listos (i + 1) m.listaListos[i + 1]? (huboCambios || cambia) }
    else some { m with pintor := .bloqueados 0 m.listaBloqueados[0]? huboCambios }
  | .listos _ none huboCambios =>
    some { m with pintor := .bloqueados 0 m.listaBloqueados[0]? huboCambios }
  | .bloqueados i (some entrenador) huboCambios =>
    if i < m.listaBloqueados.length then
      some { m with
        pintor := .bloqueados (i + 1) m.listaListos[i + 1]?
          (huboCambios || (m.ultimaAccion entrenador).seDibujaBloqueado) }
    else some { m with
      semEntrenadorYaSeDibujo := m.semEntrenadorYaSeDibujo + huboCambios.toNat
      pintor := .espera }
  | .bloqueados _ none huboCambios =>
    some { m with
      semEntrenadorYaSeDibujo := m.semEntrenadorYaSeDibujo + huboCambios.toNat
      pintor := .espera }

/-! ## The commands -/

inductive Orden where
  /-- What a trainer sends, and what the map knows of it and of its pokenests. -/
  | elegir
  | nuevoPcb (sockfd : ℤ)
  | copiarPcb (p : ℕ)
  | listSize (l : Lista)
  /-- The size that `eliminarSocketListaListos` compares with zero. -/
  | listSizeAlEliminar
  | listGet (l : Lista) (i : ℕ)
  | sockfd (p : ℕ)
  | marcar (p : ℕ) (accion : Accion)
  | listAdd (l : Lista) (p : ℕ)
  | listRemove (l : Lista) (i : ℕ)
  | semPost (s : Semaforo)
  | semWait (s : Semaforo)

abbrev Orden.Respuesta : Orden → Type
  | elegir => ℕ
  | nuevoPcb _ => ℕ
  | copiarPcb _ => ℕ
  | listSize _ => ℕ
  | listSizeAlEliminar => ℕ
  | listGet _ _ => Option ℕ
  | sockfd _ => ℤ
  | marcar _ _ => PUnit
  | listAdd _ _ => PUnit
  | listRemove _ _ => PUnit
  | semPost _ => PUnit
  | semWait _ => PUnit

/-- `n` is what the environment answers. -/
def Orden.ejecutar (o : Orden) (n : ℕ) (m : Memoria) : Option (o.Respuesta × Memoria) :=
  match o with
  | elegir => some (n, m)
  | nuevoPcb s => some (m.libre, m.conPcb s .seConecto)
  | copiarPcb p => some (m.libre, m.conPcb (m.sockfd p) (m.ultimaAccion p))
  | listSize l => some ((m.lista l).length, m)
  | listSizeAlEliminar => some (m.listaListos.length, m)
  | listGet l i => some ((m.lista l)[i]?, m)
  | sockfd p => some (m.sockfd p, m)
  | marcar p accion => some (⟨⟩, { m with ultimaAccion := update m.ultimaAccion p accion })
  | listAdd l p => some (⟨⟩, m.conLista (m.lista l ++ [p]) l)
  | listRemove l i => some (⟨⟩, m.conLista ((m.lista l).eraseIdx i) l)
  | semPost .semGui => some (⟨⟩, { m with semGui := m.semGui + 1 })
  | semPost .semEntrenadorYaSeDibujo =>
    some (⟨⟩, { m with semEntrenadorYaSeDibujo := m.semEntrenadorYaSeDibujo + 1 })
  | semWait .semGui => if 0 < m.semGui then some (⟨⟩, { m with semGui := m.semGui - 1 }) else none
  | semWait .semEntrenadorYaSeDibujo =>
    if 0 < m.semEntrenadorYaSeDibujo then
      some (⟨⟩, { m with semEntrenadorYaSeDibujo := m.semEntrenadorYaSeDibujo - 1 })
    else none

abbrev Programa (α : Type) := LockProg Cerrojo Orden Orden.Respuesta α

abbrev orden (o : Orden) : Programa o.Respuesta := LockProg.other o

abbrev lock (k : Cerrojo) : Programa PUnit := LockProg.acquire k

abbrev unlock (k : Cerrojo) : Programa PUnit := LockProg.release k

/-! ## The functions -/

def pedirDibujo : Programa PUnit := do
  orden (.semPost .semGui)
  orden (.semWait .semEntrenadorYaSeDibujo)

/-- What a pointer is used for; a `NULL` ends the process. -/
def conPuntero {α : Type} (p : Option ℕ) (f : ℕ → Programa α) : Programa α :=
  match p with
  | some p => f p
  | none => .stop

def repetir (x : Programa PUnit) : ℕ → Programa PUnit
  | 0 => pure ⟨⟩
  | n + 1 => do
    x
    repetir x n

/-- The loop of `getPcbBySockFdListos`. -/
def buscar (sockfd : ℤ) (currentPcb : Option ℕ) : List ℕ → Programa (Option ℕ)
  | [] => pure currentPcb
  | i :: is => do
    let pcb ← orden (.listGet .listaListos i)
    conPuntero pcb fun p => do
      let s ← orden (.sockfd p)
      if s = sockfd then pure (some p) else buscar sockfd (some p) is

def getPcbBySockFdListos (sockfd : ℤ) : Programa (Option ℕ) := do
  lock .mutexListaListos
  let cantidadListos ← orden (.listSize .listaListos)
  let currentPcb ← buscar sockfd none (List.range cantidadListos)
  unlock .mutexListaListos
  pure currentPcb

def getPokenestById : Programa PUnit := do
  lock .mutexListaPokenest
  unlock .mutexListaPokenest

def agregarEntrenadorAListos (pcbEntrenador : ℕ) : Programa PUnit := do
  lock .mutexListaListos
  orden (.listAdd .listaListos pcbEntrenador)
  unlock .mutexListaListos
  pedirDibujo

def nuevoEntrenadorConectado : Programa PUnit := do
  let sockfd ← orden .elegir
  getPokenestById
  let pcbEntrenador ← orden (.nuevoPcb sockfd)
  agregarEntrenadorAListos pcbEntrenador

/-- The loop that takes the first trainer with the socket out of a list. -/
def eliminarDesde (l : Lista) (sockfd : ℤ) (antes : ℕ → Programa PUnit) : List ℕ → Programa PUnit
  | [] => pure ⟨⟩
  | i :: is => do
    let pcb ← orden (.listGet l i)
    conPuntero pcb fun p => do
      let s ← orden (.sockfd p)
      if s = sockfd then do
        antes p
        orden (.listRemove l i)
      else eliminarDesde l sockfd antes is

def despedirDibujo (pasoABloqueado : Bool) (p : ℕ) : Programa PUnit := do
  orden (.marcar p (if pasoABloqueado then .seBloqueo else .seDesconecto))
  pedirDibujo

/-- With an empty list it returns before the unlock. -/
def eliminarSocketListaListos (sockfd : ℤ) (pasoABloqueado : Bool) : Programa PUnit := do
  lock .mutexListaListos
  let sizeList ← orden .listSizeAlEliminar
  if sizeList = 0 then pure ⟨⟩
  else do
    eliminarDesde .listaListos sockfd (despedirDibujo pasoABloqueado) (List.range sizeList)
    unlock .mutexListaListos

def eliminarSocketListaBloqueados (sockfd : ℤ) : Programa PUnit := do
  let sizeList ← orden (.listSize .listaBloqueados)
  lock .mutexListaBloqueados
  eliminarDesde .listaBloqueados sockfd (fun _ => pure ⟨⟩) (List.range sizeList)
  unlock .mutexListaBloqueados

/-- `reintegrarRecurso` looks every resource up. -/
def liberarRecursos : Programa PUnit := do
  let cantidadDeRecursos ← orden .elegir
  repetir getPokenestById cantidadDeRecursos

def liberarRecursosListos (sockfd : ℤ) : Programa PUnit := do
  let pcbALiberar ← getPcbBySockFdListos sockfd
  conPuntero pcbALiberar fun _ => liberarRecursos

def obtenerPokenest (sockfd : ℤ) : Programa ℕ := do
  let entrenadorActual ← getPcbBySockFdListos sockfd
  let recibido ← orden .elegir
  if recibido = 0 then pure 1
  else do
    getPokenestById
    conPuntero entrenadorActual fun _ => pure 2

def moverPosicion (sockfd : ℤ) : Programa ℕ := do
  let recibido ← orden .elegir
  if recibido = 0 then pure 1
  else do
    let currentPcb ← getPcbBySockFdListos sockfd
    conPuntero currentPcb fun p => do
      orden (.marcar p .seMovio)
      pedirDibujo
      pure 0

/-- No unit is left: the trainer goes to the blocked ones. -/
def bloquear (sockfd : ℤ) : Programa ℕ := do
  lock .mutexListaBloqueados
  let currentPcb ← getPcbBySockFdListos sockfd
  conPuntero currentPcb fun p => do
    orden (.listAdd .listaBloqueados p)
    pedirDibujo
  unlock .mutexListaBloqueados
  pure 1

/-- The answers are whether the identifier comes, whether it is of no pokenest or of one with a
unit, and whether the acknowledgement comes. -/
def capturarPokemon (sockfd : ℤ) : Programa ℕ := do
  let _ ← getPcbBySockFdListos sockfd
  let recibido ← orden .elegir
  if recibido = 0 then pure 1
  else do
    getPokenestById
    let pokenest ← orden .elegir
    if pokenest = 0 then pure 3
    else if pokenest = 1 then do
      let acuse ← orden .elegir
      if acuse = 0 then pure 1 else pure 0
    else bloquear sockfd

/-- The other types are `TERMINE_OBJETIVOS` and those of a connection that was closed. -/
def mensajeDeEntrenadorRecibido (sockfd : ℤ) : Programa ℕ := do
  let tipoMensaje ← orden .elegir
  if tipoMensaje = 1 then obtenerPokenest sockfd
  else if tipoMensaje = 2 then moverPosicion sockfd
  else if tipoMensaje = 3 then capturarPokemon sockfd
  else do
    liberarRecursosListos sockfd
    eliminarSocketListaListos sockfd false
    pure 1

/-- The loop of `roundRobinAlgorithm`, with the last result. -/
def turno (procesoCorriendo : ℕ) (result : ℕ) : ℕ → Programa ℕ
  | 0 => pure result
  | remain + 1 => do
    let sockfd ← orden (.sockfd procesoCorriendo)
    let result ← mensajeDeEntrenadorRecibido sockfd
    if result = 1 ∨ result = 2 then pure result else turno procesoCorriendo result remain

/-- The end of `roundRobinAlgorithm`. -/
def finDeTurno (procesoCorriendo : ℕ) (result : ℕ) : Programa PUnit :=
  if result = 1 then do
    let sockfd ← orden (.sockfd procesoCorriendo)
    eliminarSocketListaListos sockfd true
  else if result = 0 then do
    lock .mutexListaListos
    orden (.listRemove .listaListos 0)
    orden (.listAdd .listaListos procesoCorriendo)
    unlock .mutexListaListos
  else pure ⟨⟩

/-- The quantum, and what `result` holds before the first message, are of the environment. -/
def roundRobinAlgorithm : Programa PUnit := do
  lock .mutexListaListos
  let primero ← orden (.listGet .listaListos 0)
  let procesoCorriendo ← conPuntero primero pure
  unlock .mutexListaListos
  let quantum ← orden .elegir
  let result ← orden .elegir
  let result ← turno procesoCorriendo result quantum
  finDeTurno procesoCorriendo result

/-- The position of the chosen trainer is of the environment. -/
def srdfAlgorithm : Programa PUnit := do
  let indexMenor ← orden .elegir
  let entrenadorElegido ← orden (.listGet .listaListos indexMenor)
  conPuntero entrenadorElegido fun p => do
    let sockfd ← orden (.sockfd p)
    let result ← mensajeDeEntrenadorRecibido sockfd
    if result = 2 then do
      let _ ← mensajeDeEntrenadorRecibido sockfd
      pure ⟨⟩
    else pure ⟨⟩

def planificate : Programa PUnit := do
  lock .mutexListaListos
  let sizeListaListos ← orden (.listSize .listaListos)
  unlock .mutexListaListos
  if 0 < sizeListaListos then do
    let algoritmo ← orden .elegir
    if algoritmo = 1 then roundRobinAlgorithm
    else if algoritmo = 2 then srdfAlgorithm
    else pure ⟨⟩
  else pure ⟨⟩

/-! ## The detection -/

def copiarDesde : List ℕ → Programa (List ℕ)
  | [] => pure []
  | i :: is => do
    let pcb ← orden (.listGet .listaBloqueados i)
    conPuntero pcb fun p => do
      let currentPcb ← orden (.copiarPcb p)
      let pcbs ← copiarDesde is
      pure (currentPcb :: pcbs)

def copiarEntrenadores : Programa (List ℕ) := do
  lock .mutexListaBloqueados
  let size ← orden (.listSize .listaBloqueados)
  let entrenadores ← copiarDesde (if 1 < size then List.range size else [])
  unlock .mutexListaBloqueados
  pure entrenadores

def cargarListaRecursos : Programa PUnit := do
  lock .mutexListaPokenest
  unlock .mutexListaPokenest

/-- The marked ones and the others. -/
def marcarEntrenadores : List ℕ → Programa (List ℕ × List ℕ)
  | [] => pure ([], [])
  | p :: ps => do
    let recurso ← orden .elegir
    let (marcados, noMarcados) ← marcarEntrenadores ps
    if recurso = 1 then pure (p :: marcados, noMarcados) else pure (marcados, p :: noMarcados)

def liberarNoMarcados : List ℕ → Programa PUnit
  | [] => pure ⟨⟩
  | p :: ps => do
    lock .mutexListaListos
    orden (.listAdd .listaListos p)
    unlock .mutexListaListos
    liberarNoMarcados ps

def morir (perdedor : ℕ) : Programa PUnit := do
  liberarRecursos
  let sockfd ← orden (.sockfd perdedor)
  eliminarSocketListaBloqueados sockfd

/-- The battles of the first marked one with the others. One that nobody loses leaves everything as
it was and is fought again: how many times is of the environment. -/
def batallas (primero : ℕ) : List ℕ → Programa PUnit
  | [] => pure ⟨⟩
  | segundo :: resto => do
    let empates ← orden .elegir
    repetir (orden .elegir >>= fun _ => pure ⟨⟩) empates
    let perdedor ← orden .elegir
    if perdedor = 1 then do
      if resto.isEmpty then morir primero else pure ⟨⟩
      batallas primero resto
    else do
      if resto.isEmpty then morir segundo else pure ⟨⟩
      batallas segundo resto

def batallar : List ℕ → Programa PUnit
  | [] => pure ⟨⟩
  | primero :: resto => batallas primero resto

def desbloquear (i p : ℕ) : Programa PUnit := do
  orden (.marcar p .seDesbloqueo)
  pedirDibujo
  orden (.listRemove .listaBloqueados i)

/-- The number of pokenests that the trainer waits for and that have a unit is of the environment; a
`NULL` trainer is not looked at if there is no pokenest at all. -/
def liberarDesde : List ℕ → Programa PUnit
  | [] => pure ⟨⟩
  | i :: is => do
    let pcb ← orden (.listGet .listaBloqueados i)
    let recursos ← orden .elegir
    match pcb with
    | some p => do
      repetir (desbloquear i p) recursos
      liberarDesde is
    | none => if recursos = 0 then liberarDesde is else .stop

def liberarBloqueados : Programa PUnit := do
  let sizeBloqueados ← orden (.listSize .listaBloqueados)
  liberarDesde (List.range sizeBloqueados)

def pelear : Programa PUnit := do
  let entrenadores ← copiarEntrenadores
  cargarListaRecursos
  let (marcados, noMarcados) ← marcarEntrenadores entrenadores
  liberarNoMarcados noMarcados
  batallar marcados

def detectarDeadLock : Programa PUnit := do
  lock .mutexListaBloqueados
  let cantBloqueados ← orden (.listSize .listaBloqueados)
  unlock .mutexListaBloqueados
  let batalla ← orden .elegir
  if cantBloqueados ≠ 0 ∧ batalla ≠ 0 then pelear else pure ⟨⟩
  liberarBloqueados

def vuelta : Hilo → Programa PUnit
  | .conexiones => nuevoEntrenadorConectado
  | .planificador => planificate
  | .interbloqueo => detectarDeadLock

abbrev sistema : Locking Hilo Cerrojo Orden Orden.Respuesta Memoria :=
  Locking.ofFunction Orden.ejecutar vuelta dibujarGUI

def inicio (m : Memoria) : Locking.Config Hilo Cerrojo Orden Orden.Respuesta Memoria where
  memory := m
  owner _ := none
  thread _ := .ret ⟨⟩

def memoriaInicial : Memoria where
  listaListos := []
  listaBloqueados := []
  sockfd _ := 0
  ultimaAccion _ := .nada
  libre := 0
  semGui := 1
  semEntrenadorYaSeDibujo := 0
  pintor := .espera

/-- Thread `hilo` takes `n` steps, and the environment answers zero. -/
def pasos (hilo : Hilo) (n : ℕ) : List (Option (Hilo × ℕ)) := List.replicate n (some (hilo, 0))

/-- The drawing thread goes round its loops `n` times. -/
def dibuja (n : ℕ) : List (Option (Hilo × ℕ)) := List.replicate n none

def memoriaConUno : Memoria := { memoriaInicial with listaListos := [0], libre := 1 }

/-- The drawing thread spends the first token, and the planner, under RR with quantum one, gives a
turn to the trainer, that moves, is drawn and goes back to the queue. -/
def unTurno : List (Option (Hilo × ℕ)) :=
  dibuja 4 ++ pasos .planificador 4 ++ [some (.planificador, 1)] ++ pasos .planificador 3 ++
  [some (.planificador, 1)] ++ pasos .planificador 2 ++ [some (.planificador, 2)] ++
  [some (.planificador, 1)] ++ pasos .planificador 7 ++ dibuja 4 ++ pasos .planificador 5

end TpSo.Mapa.Hilado
