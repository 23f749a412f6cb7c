import TpSo.Base.Op
import TpSo.Entrenador.Camino

/-!
# The state of a map process

The `t_pcb` of the trainers are in memory, at addresses: the lists hold pointers, and a trainer
can be in two of them or have a copy of its `t_pcb`, which shares the list of its resources with
the original. Every function here runs in one piece; what a handler receives from its trainer is
an argument of it. The drawing and the locks have models of their own.
-/

namespace TpSo.Mapa

open Function (update)
open Entrenador (Punto)

/-- A name of a file, of a directory or of a species. -/
abbrev Nombre := List UInt8

/-- `t_pokenest`. -/
structure Pokenest where
  identificador : UInt8
  species : Nombre
  coordenada : Punto
  cant : ℤ
  deriving DecidableEq

/-- `t_pcb`; `listaRecursos` is the address of a list. -/
structure Pcb where
  sockfd : ℤ
  pathEntrenador : Nombre
  punto : Punto
  proximaPokenest : Pokenest
  listaRecursos : ℕ
  direccionDesconocida : Bool
  deriving DecidableEq

/-- What the map sends to a trainer. The number `ESTAS_EN_DEADLOCK` is a challenge and also one of
the results of a battle. -/
inductive Envio where
  | coordenada (punto : Punto)
  | ok
  | teDoyElPokemon (species archivo : Nombre)
  | estasBloqueado
  | medalla
  | estasEnDeadlock
  | resultado (mensaje : ℤ)
  | estasDesbloqueado
  deriving DecidableEq

/-- A directory of `PokeNests`, with what its metadata says. -/
structure Directorio where
  species : Nombre
  identificador : UInt8
  coordenada : Punto
  deriving DecidableEq

/-- The pokenests, and the files of the pokemons. -/
structure Almacen where
  listaPokenest : List Pokenest
  /-- The directories of `PokeNests`, in the order of `readdir`. -/
  directorios : List Directorio
  /-- The files of `PokeNests/<species>`, the metadata apart. -/
  pokeNests : Nombre → List Nombre
  /-- The files of the `Dir de Bill` of a trainer, by the path of the trainer. -/
  dirDeBill : Nombre → List Nombre

structure Estado extends Almacen where
  pcb : ℕ → Pcb
  recursos : ℕ → List UInt8
  /-- The addresses from here on are free. -/
  libre : ℕ
  listaListos : List ℕ
  listaBloqueados : List ℕ
  enviados : List (ℤ × Envio)
  quantum : ℕ
  batalla : Bool

namespace Estado

variable (m : Estado)

def enviar (sockfd : ℤ) (e : Envio) : Estado := { m with enviados := m.enviados ++ [(sockfd, e)] }

def sock (p : ℕ) : ℤ := (m.pcb p).sockfd

/-- The first trainer of the list with the socket; if there is none, the last of the list. -/
def getPcbBySockFdListos (sockfd : ℤ) : Option ℕ :=
  (m.listaListos.find? fun p => m.sock p = sockfd).or m.listaListos.getLast?

end Estado

/-- `pknst->cant` plus `k` in the pokenest that `list_find` gives. -/
def sumarCant (id : UInt8) (k : ℤ) : List Pokenest → List Pokenest
  | [] => []
  | p :: ps =>
    if p.identificador = id then { p with cant := p.cant + k } :: ps else p :: sumarCant id k ps

namespace Almacen

variable (a : Almacen)

/-- A copy of the first pokenest with the identifier; if there is none, of the last one. -/
def getPokenestById (id : UInt8) : Option Pokenest :=
  (a.listaPokenest.find? fun p => p.identificador = id).or a.listaPokenest.getLast?

/-- Some pokenest has the identifier: `list_find` does not give `NULL`. -/
def hayPokenest (id : UInt8) : Bool := a.listaPokenest.any fun p => p.identificador = id

/-- The files of the `Dir de Bill` whose name starts with the species go to its directory. -/
def devolverArchivos (path species : Nombre) : Almacen :=
  { a with
    dirDeBill := update a.dirDeBill path
      ((a.dirDeBill path).filter fun f => !species.isPrefixOf f)
    pokeNests := update a.pokeNests species
      ((a.dirDeBill path).filter (fun f => species.isPrefixOf f) ∪ a.pokeNests species) }

/-- `cargarPokenest`: the pokenests go after those that are already in the list. -/
def cargarPokenest : Almacen :=
  { a with listaPokenest := a.listaPokenest ++ a.directorios.map fun d =>
      ⟨d.identificador, d.species, d.coordenada, (a.pokeNests d.species).length⟩ }

def conCant (id : UInt8) (k : ℤ) : Almacen :=
  { a with listaPokenest := sumarCant id k a.listaPokenest }

end Almacen

/-- The files go back first; an identifier of no pokenest is then a `NULL` pointer. -/
def reintegrarRecurso (pathEntrenador : Nombre) (id : UInt8) : Op Almacen PUnit := fun a =>
  match a.getPokenestById id with
  | some pokenest =>
    let a' := a.devolverArchivos pathEntrenador pokenest.species
    if a.hayPokenest id then (some ⟨⟩, a'.conCant id 1) else (none, a')
  | none => (none, a)

/-- `reintegrarRecurso` for every element of a list. -/
def reintegrarRecursos (pathEntrenador : Nombre) : List UInt8 → Op Almacen PUnit
  | [] => pure ⟨⟩
  | recurso :: recursos => do
    reintegrarRecurso pathEntrenador recurso
    reintegrarRecursos pathEntrenador recursos

def liberarRecursosBloqueados (pcbALiberar : ℕ) : Op Estado PUnit := do
  let m ← Op.get id
  let p := m.pcb pcbALiberar
  Op.zoom Estado.toAlmacen (fun m a => { m with toAlmacen := a })
    (reintegrarRecursos p.pathEntrenador (m.recursos p.listaRecursos))

def liberarRecursosListos (sockfd : ℤ) : Op Estado PUnit := do
  let pcb ← Op.get fun m => m.getPcbBySockFdListos sockfd
  match pcb with
  | some pcbALiberar => liberarRecursosBloqueados pcbALiberar
  | none => Op.abort

/-- The end of `nuevoEntrenadorConectado`, with `agregarEntrenadorAListos`. -/
def nuevoEntrenadorConectado (sockfd : ℤ) (pathEntrenador : Nombre) (primerObjetivo : UInt8) :
    Op Estado PUnit := fun m =>
  match m.getPokenestById primerObjetivo with
  | some proximaPokenest =>
    (some ⟨⟩, { m with
      pcb := update m.pcb m.libre
        { sockfd := sockfd, pathEntrenador := pathEntrenador, punto := ⟨0, 0⟩,
          proximaPokenest := proximaPokenest, listaRecursos := m.libre,
          direccionDesconocida := true }
      recursos := update m.recursos m.libre []
      libre := m.libre + 1
      listaListos := m.listaListos ++ [m.libre] })
  | none => (none, m)

def eliminarSocketListaListos (sockfd : ℤ) (m : Estado) : Estado :=
  { m with listaListos := m.listaListos.eraseP fun p => m.sock p = sockfd }

def eliminarSocketListaBloqueados (sockfd : ℤ) (m : Estado) : Estado :=
  { m with listaBloqueados := m.listaBloqueados.eraseP fun p => m.sock p = sockfd }

/-! ## The messages of a trainer -/

/-- What the calls to `recv` give. The type is the one left in `tipoMensaje`, also by a `recv` that
fails; the other fields are `none` when theirs fails. `copia` says that the trainer copied the
file it was given, with or without the acknowledgement that follows. -/
structure Recibido where
  tipoMensaje : ℤ
  pokemon : Option UInt8
  direccion : Option ℤ
  copia : Bool
  acuse : Bool
  deriving DecidableEq

def modificarPcb (p : ℕ) (f : Pcb → Pcb) (m : Estado) : Estado :=
  { m with pcb := update m.pcb p (f (m.pcb p)) }

def obtenerPokenest (sockfd : ℤ) (r : Recibido) : Op Estado ℤ := fun m =>
  match r.pokemon with
  | none => (some 1, m)
  | some pokemon =>
    match m.getPcbBySockFdListos sockfd, m.getPokenestById pokemon with
    | some entrenadorActual, some proximaPokenest =>
      (some 2, (modificarPcb entrenadorActual
        (fun p => { p with proximaPokenest := proximaPokenest }) m).enviar sockfd
          (.coordenada proximaPokenest.coordenada))
    | _, _ => (none, m)

def moverPosicion (sockfd : ℤ) (r : Recibido) : Op Estado ℤ := fun m =>
  match r.direccion with
  | none => (some 1, m)
  | some direccion =>
    match m.getPcbBySockFdListos sockfd with
    | some currentPcb =>
      (some 0, (modificarPcb currentPcb
        (fun p => { p with punto := Entrenador.moverPosicion direccion p.punto }) m).enviar
          sockfd .ok)
    | none => (none, m)

namespace Almacen

variable (a : Almacen)

/-- `readdir` gives the files in the order of the list; with no file the name is empty. -/
def adquirirPathPokemonEnEspecifico (species : Nombre) : Nombre :=
  (a.pokeNests species).head?.getD []

/-- The trainer copies a file of the map, if it is there. -/
def copiarADirDeBill (path species archivo : Nombre) : Almacen :=
  if archivo ∈ a.pokeNests species then
    { a with dirDeBill := update a.dirDeBill path ((a.dirDeBill path).insert archivo) }
  else a

def eliminarArchivo (archivo species : Nombre) : Almacen :=
  { a with pokeNests := update a.pokeNests species ((a.pokeNests species).erase archivo) }

end Almacen

/-- The pokenest has a unit: the trainer is given one. -/
def entregarPokemon (sockfd : ℤ) (pcbActual : ℕ) (pokemon : UInt8) (pokenest : Pokenest)
    (r : Recibido) : Op Estado ℤ := fun m =>
  let archivo := m.adquirirPathPokemonEnEspecifico pokenest.species
  let m := m.enviar sockfd (.teDoyElPokemon pokenest.species archivo)
  let a := m.toAlmacen.conCant pokemon (-1)
  let path := (m.pcb pcbActual).pathEntrenador
  let a := if r.copia then a.copiarADirDeBill path pokenest.species archivo else a
  if r.acuse then
    let lista := (m.pcb pcbActual).listaRecursos
    let m := { m with
      toAlmacen := a.eliminarArchivo archivo pokenest.species
      recursos := update m.recursos lista (m.recursos lista ++ [pokemon]) }
    (some 0, modificarPcb pcbActual (fun p => { p with direccionDesconocida := true }) m)
  else (some 1, { m with toAlmacen := a })

def capturarPokemon (sockfd : ℤ) (r : Recibido) : Op Estado ℤ := fun m =>
  match r.pokemon with
  | none => (some 1, m)
  | some pokemon =>
    match m.getPcbBySockFdListos sockfd, m.getPokenestById pokemon with
    | some pcbActual, some pokenest =>
      if pokenest.identificador ≠ pokemon then (some 3, m)
      else if 0 < pokenest.cant then entregarPokemon sockfd pcbActual pokemon pokenest r m
      else
        (some 1, { m.enviar sockfd .estasBloqueado with
          listaBloqueados := m.listaBloqueados ++ [pcbActual] })
    | _, _ => (none, m)

/-- The resources of the trainer go back and it leaves the list. -/
def despedir (sockfd : ℤ) : Op Estado ℤ := do
  liberarRecursosListos sockfd
  Op.modify (eliminarSocketListaListos sockfd)
  pure 1

def mensajeDeEntrenadorRecibido (sockfd : ℤ) (r : Recibido) : Op Estado ℤ :=
  if r.tipoMensaje = 1 then obtenerPokenest sockfd r
  else if r.tipoMensaje = 2 then moverPosicion sockfd r
  else if r.tipoMensaje = 3 then capturarPokemon sockfd r
  else if r.tipoMensaje = 4 then do
    Op.modify fun m => m.enviar sockfd .medalla
    despedir sockfd
  else despedir sockfd

end TpSo.Mapa
