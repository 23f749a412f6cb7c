import TpSo.Entrenador.Aventura
import TpSo.Mapa.Estado

/-!
# The detection of deadlocks

`detectarDeadLock` copies the blocked trainers, marks those that hold a species of which no unit
is left, makes the others ready, and lets the marked ones fight. `Fabrica` is the library of
pokemons, and the pokemons that the trainers send are an argument.
-/

namespace TpSo.Mapa

open Function (update)

/-- The library of pokemons. -/
structure Fabrica where
  Pokemon : Type
  crear : Nombre → ℤ → Pokemon
  species : Pokemon → Nombre
  pelear : Pokemon → Pokemon → Option Pokemon

/-- `t_pokemona`: what a trainer sends of its strongest pokemon. -/
structure Pokemona where
  species : Nombre
  lvlPokemon : ℤ
  deriving DecidableEq

/-- The number of the trainer that loses. -/
def resolverDeadlock (f : Fabrica) (primerPokemon segundoPokemon : Pokemona) : ℕ :=
  let pokemon1 := f.crear primerPokemon.species primerPokemon.lvlPokemon
  let pokemon2 := f.crear segundoPokemon.species segundoPokemon.lvlPokemon
  match f.pelear pokemon1 pokemon2 with
  | some loser =>
    if f.species loser = f.species pokemon1 then 1
    else if f.species loser = f.species pokemon2 then 2
    else 0
  | none => 0

def enviarMensaje (pcb : ℕ) (e : Envio) : Op Estado PUnit :=
  Op.modify fun m => m.enviar (m.sock pcb) e

/-- The loser of two: the last one of all dies and gives back what it has. -/
def castigar (ultimos : Bool) (perdedor : ℕ) : Op Estado ℤ :=
  if ultimos then do
    liberarRecursosBloqueados perdedor
    Op.modify fun m => eliminarSocketListaBloqueados (m.sock perdedor) m
    pure Entrenador.morite
  else pure Entrenador.estasEnDeadlock

/-- What follows when one of the two has lost: the results are sent. -/
def repartir (ultimos : Bool) (perdedor ganador : ℕ) : Op Estado PUnit := do
  let mensaje ← castigar ultimos perdedor
  enviarMensaje perdedor (.resultado mensaje)
  enviarMensaje ganador (.resultado Entrenador.ganaste)

/-- The marked trainers that are left: the winner goes. -/
def batalla (f : Fabrica) (pokemones : Pokemona × Pokemona) : List ℕ → Op Estado (List ℕ)
  | primero :: segundo :: resto => do
    enviarMensaje primero .estasEnDeadlock
    enviarMensaje segundo .estasEnDeadlock
    let perdedor := resolverDeadlock f pokemones.1 pokemones.2
    if perdedor = 1 then do
      repartir resto.isEmpty primero segundo
      pure (primero :: resto)
    else if perdedor = 2 then do
      repartir resto.isEmpty segundo primero
      pure (segundo :: resto)
    else pure (primero :: segundo :: resto)
  | _ => Op.abort

/-- The battles while more than one trainer is left; `pokemones k` are those of the battle `k`. The
number of battles comes with the trainers that are left. -/
def batallas (f : Fabrica) (pokemones : ℕ → Pokemona × Pokemona) (fuel : ℕ) (marcados : List ℕ) :
    Op Estado (ℕ × List ℕ) :=
  Op.whileDo (fun e => 1 < e.2.length)
    (fun e => do
      let marcados ← batalla f (pokemones e.1) e.2
      pure (e.1 + 1, marcados)) fuel (0, marcados)

/-! ## Marking -/

/-- The copies share the list of resources with the originals. -/
def copiarEntrenadores : Op Estado (List ℕ) := fun m =>
  if 1 < m.listaBloqueados.length then
    let n := m.listaBloqueados.length
    (some (List.range' m.libre n), { m with
      pcb := fun p =>
        if m.libre ≤ p then
          match m.listaBloqueados[p - m.libre]? with
          | some q => m.pcb q
          | none => m.pcb p
        else m.pcb p
      libre := m.libre + n })
  else (some [], m)

/-- `1` when no pokenest with the identifier has a unit. -/
def elRecursoNoEstaDisponible (recursos : List Pokenest) (identificador : UInt8) : ℤ :=
  if recursos.any fun p => p.identificador = identificador ∧ 1 ≤ p.cant then 0 else 1

/-- The last value of `noDisponible`, which nobody sets for a trainer that holds nothing. -/
def tieneRecursoMayorADisponible (recursos : List Pokenest) (noDisponible : ℤ) :
    List UInt8 → ℤ
  | [] => noDisponible
  | identificador :: identificadores =>
    if elRecursoNoEstaDisponible recursos identificador = 1 then 1
    else tieneRecursoMayorADisponible recursos 0 identificadores

/-- `basura p` is what `noDisponible` holds at first, for the trainer at `p`. -/
def marcado (m : Estado) (basura : ℕ → ℤ) (p : ℕ) : Bool :=
  tieneRecursoMayorADisponible m.listaPokenest (basura p) (m.recursos (m.pcb p).listaRecursos) = 1

def liberarNoMarcados (noMarcados : List ℕ) (m : Estado) : Estado :=
  { m with listaListos := m.listaListos ++ noMarcados }

/-! ## Unblocking -/

/-- `list_remove`: on a list that is not empty, an index out of it is a `NULL` element. -/
def listRemove {α : Type} (l : List α) (i : ℕ) : Option (List α) :=
  if l = [] then some [] else if i < l.length then some (l.eraseIdx i) else none

/-- The loop over the pokenests for the trainer at position `i`: the trainer leaves once for every
pokenest with its identifier that has a unit. -/
def liberarBloqueado (i : ℕ) (entrenador : ℕ) : List Pokenest → Op Estado PUnit
  | [] => pure ⟨⟩
  | recurso :: recursos => fun m =>
    if (m.pcb entrenador).proximaPokenest.identificador = recurso.identificador ∧
        1 ≤ recurso.cant then
      match listRemove m.listaBloqueados i with
      | some bloqueados =>
        liberarBloqueado i entrenador recursos
          { m.enviar (m.sock entrenador) .estasDesbloqueado with listaBloqueados := bloqueados }
      | none => (none, m.enviar (m.sock entrenador) .estasDesbloqueado)
    else liberarBloqueado i entrenador recursos m

/-- The loop over the positions the list had at first: one that is no longer there is a `NULL`
trainer. -/
def liberarDesde (recursos : List Pokenest) : List ℕ → Op Estado PUnit
  | [] => pure ⟨⟩
  | i :: posiciones => do
    let entrenador ← Op.get fun m => m.listaBloqueados[i]?
    match entrenador with
    | some entrenador => do
      liberarBloqueado i entrenador recursos
      liberarDesde recursos posiciones
    | none => if recursos = [] then liberarDesde recursos posiciones else Op.abort

def liberarBloqueados : Op Estado PUnit := do
  let m ← Op.get id
  liberarDesde m.listaPokenest (List.range m.listaBloqueados.length)

/-! ## All of it -/

/-- The pokemons of the battles, the memory that `tieneRecursoMayorADisponible` does not set, and a
number of battles after which one trainer is left: a loop that is not done by then does not come
back. -/
structure Peleas where
  pokemones : ℕ → Pokemona × Pokemona
  basura : ℕ → ℤ
  cuantas : ℕ

def pelear (f : Fabrica) (peleas : Peleas) : Op Estado PUnit := do
  let entrenadores ← copiarEntrenadores
  let m ← Op.get id
  let marcados := entrenadores.filter fun p => marcado m peleas.basura p
  Op.modify (liberarNoMarcados (entrenadores.filter fun p => !marcado m peleas.basura p))
  let _ ← batallas f peleas.pokemones peleas.cuantas marcados
  pure ⟨⟩

def detectarDeadLock (f : Fabrica) (peleas : Peleas) : Op Estado PUnit := do
  let m ← Op.get id
  if m.listaBloqueados ≠ [] ∧ m.batalla then pelear f peleas
  liberarBloqueados

end TpSo.Mapa
