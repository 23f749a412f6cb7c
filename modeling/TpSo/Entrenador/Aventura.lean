import TpSo.Base.Run
import TpSo.Entrenador.Camino

/-!
# The trainer at a map

`paso` is one round of the loop of `completarMapa`, with what the trainer receives in it, and
gives the messages it sends and on which socket. The number a new `handShake` returns is one of
the things received: `fallecerPorDeadlock` makes one and does not look at it.
-/

namespace TpSo.Entrenador

/-- What comes from the map, or from outside. -/
inductive Respuesta where
  | coordenada (punto : Punto)
  | ok
  | teDoyElPokemon
  | estasBloqueado
  | aviso (desbloqueo : ℤ)
  /-- The result of a battle, and what `handShake` returns if the trainer dies of it. -/
  | resultado (resultadoBatalla socket : ℤ)
  | medalla
  | sigusr1
  | sigterm
  deriving DecidableEq, Repr

inductive Mensaje where
  | conocerPokenest (razaPokemon : UInt8)
  | moverPosicion (direccion : ℤ)
  | capturar (idPokemon : UInt8)
  | semaforoArchivo
  | pokemonMasFuerte
  | terminoObjetivos
  deriving DecidableEq, Repr

/-- What the trainer does that others see. -/
inductive Suceso where
  | handShake (socket : ℤ)
  | envio (socket : ℤ) (mensaje : Mensaje)
  | captura (idPokemon : UInt8)
  | cierre (socket : ℤ)
  deriving DecidableEq, Repr

/-- `MORITE`, `ESTAS_EN_DEADLOCK`, `ESTAS_BLOQUEADO`, `ESTAS_DESBLOQUEADO` and `GANASTE`. -/
def morite : ℤ := 1
def estasEnDeadlock : ℤ := 4
def estasBloqueado : ℤ := 10
def estasDesbloqueado : ℤ := 11
def ganaste : ℤ := 12

/-- The variables of `completarMapa` and the globals it works with. -/
structure Aventura extends Viaje where
  mapaSocket : ℤ
  indexProximoPokemon : ℕ
  idPokemon : UInt8
  vidas : ℕ
  deriving DecidableEq, Repr

/-- The part of `handShake` that is not the connection. -/
def handShake (a : Aventura) : Aventura :=
  { a with
    indexProximoPokemon := 0
    estado := .sinPokenest
    posicionDelEntrenador := ⟨0, 0⟩ }

/-- `completarMapa` up to its loop, with the socket of its `handShake`; `a` is what the globals and
the memory held. -/
def entrarAlMapa (a : Aventura) (socket : ℤ) : Aventura :=
  { handShake a with mapaSocket := socket, ultimaDireccion := .sinDireccion }

/-- With lives left; with none the game starts again or ends, and this adventure with it. -/
def fallecerPorDeadlock (a : Aventura) (socket : ℤ) : Option (Aventura × List Suceso) :=
  if 0 < a.vidas then
    some ({ handShake a with vidas := a.vidas - 1 }, [.cierre a.mapaSocket, .handShake socket])
  else none

/-- `objetivos` are the first letters of the goals: nothing else of them is looked at. -/
def paso (objetivos : List UInt8) (a : Aventura) : Respuesta → Option (Aventura × List Suceso)
  | .sigusr1 => some ({ a with vidas := a.vidas + 1 }, [])
  | .sigterm => if 0 < a.vidas then some ({ a with vidas := a.vidas - 1 }, []) else none
  | .coordenada punto =>
    match a.estado, objetivos[a.indexProximoPokemon]? with
    | .sinPokenest, some id =>
      some ({ a with puntoProximaPokenest := punto, idPokemon := id, estado := .enCamino },
        [.envio a.mapaSocket (.conocerPokenest id)])
    | _, _ => none
  | .ok =>
    if a.estado = .enCamino then
      some ({ a with toViaje := avanzar a.toViaje },
        [.envio a.mapaSocket (.moverPosicion (avanzar a.toViaje).ultimaDireccion.toInt)])
    else none
  | .teDoyElPokemon =>
    if a.estado = .enPokenest then
      let indice := a.indexProximoPokemon + 1
      some ({ a with
          indexProximoPokemon := indice
          estado := if indice = objetivos.length then .conTodosLosPokemons else .sinPokenest },
        [.envio a.mapaSocket (.capturar a.idPokemon), .envio a.mapaSocket .semaforoArchivo,
          .captura a.idPokemon])
    else none
  | .estasBloqueado =>
    if a.estado = .enPokenest then
      some ({ a with
          estado := if a.indexProximoPokemon = objetivos.length then .conTodosLosPokemons
            else .bloqueado },
        [.envio a.mapaSocket (.capturar a.idPokemon)])
    else none
  | .aviso desbloqueo =>
    if a.estado = .bloqueado then
      some ({ a with
          estado := if desbloqueo = estasEnDeadlock then .enDeadlock
            else if desbloqueo = estasDesbloqueado then .enPokenest else .bloqueado }, [])
    else none
  | .resultado resultadoBatalla socket =>
    if a.estado = .enDeadlock then
      let nivel := Suceso.envio a.mapaSocket .pokemonMasFuerte
      if resultadoBatalla = morite then
        (fallecerPorDeadlock a socket).map fun r => (r.1, nivel :: r.2)
      else if resultadoBatalla = ganaste ∨ resultadoBatalla = estasEnDeadlock ∨
          resultadoBatalla = estasBloqueado then
        some ({ a with estado := .bloqueado }, [nivel])
      else some (a, [nivel])
    else none
  | .medalla =>
    if a.estado = .conTodosLosPokemons then
      some ({ a with estado := .mapaCompletado }, [.envio a.mapaSocket .terminoObjetivos])
    else none

/-- A round of the loop, with what is received in it and what is done. -/
def Paso (objetivos : List UInt8) (a : Aventura) (e : Respuesta × List Suceso) (a' : Aventura) :
    Prop :=
  paso objetivos a e.1 = some (a', e.2)

def sucesos (es : List (Respuesta × List Suceso)) : List Suceso := es.flatMap Prod.snd

theorem Paso.cases {objetivos : List UInt8} {a a' : Aventura} {e : Respuesta × List Suceso}
    (h : Paso objetivos a e a') :
    (∃ vidas, (e.1 = .sigusr1 ∨ e.1 = .sigterm) ∧ a' = { a with vidas := vidas } ∧ e.2 = []) ∨
    (∃ punto id, e.1 = .coordenada punto ∧ a.estado = .sinPokenest ∧
      objetivos[a.indexProximoPokemon]? = some id ∧
      a' = { a with puntoProximaPokenest := punto, idPokemon := id, estado := .enCamino } ∧
      e.2 = [.envio a.mapaSocket (.conocerPokenest id)]) ∨
    (e.1 = .ok ∧ a.estado = .enCamino ∧ a' = { a with toViaje := avanzar a.toViaje } ∧
      e.2 = [.envio a.mapaSocket (.moverPosicion a'.ultimaDireccion.toInt)]) ∨
    (e.1 = .teDoyElPokemon ∧ a.estado = .enPokenest ∧
      a' = { a with
        indexProximoPokemon := a.indexProximoPokemon + 1
        estado := if a.indexProximoPokemon + 1 = objetivos.length then .conTodosLosPokemons
          else .sinPokenest } ∧
      e.2 = [.envio a.mapaSocket (.capturar a.idPokemon), .envio a.mapaSocket .semaforoArchivo,
        .captura a.idPokemon]) ∨
    (e.1 = .estasBloqueado ∧ a.estado = .enPokenest ∧
      a' = { a with
        estado := if a.indexProximoPokemon = objetivos.length then .conTodosLosPokemons
          else .bloqueado } ∧
      e.2 = [.envio a.mapaSocket (.capturar a.idPokemon)]) ∨
    (∃ desbloqueo, e.1 = .aviso desbloqueo ∧ a.estado = .bloqueado ∧
      a' = { a with
        estado := if desbloqueo = estasEnDeadlock then .enDeadlock
          else if desbloqueo = estasDesbloqueado then .enPokenest else .bloqueado } ∧
      e.2 = []) ∨
    (∃ socket, e.1 = .resultado morite socket ∧ a.estado = .enDeadlock ∧ 0 < a.vidas ∧
      a' = { handShake a with vidas := a.vidas - 1 } ∧
      e.2 = [.envio a.mapaSocket .pokemonMasFuerte, .cierre a.mapaSocket, .handShake socket]) ∨
    (∃ resultadoBatalla socket, e.1 = .resultado resultadoBatalla socket ∧
      resultadoBatalla ≠ morite ∧ a.estado = .enDeadlock ∧
      a' = { a with
        estado := if resultadoBatalla = ganaste ∨ resultadoBatalla = estasEnDeadlock ∨
            resultadoBatalla = estasBloqueado then .bloqueado else .enDeadlock } ∧
      e.2 = [.envio a.mapaSocket .pokemonMasFuerte]) ∨
    (e.1 = .medalla ∧ a.estado = .conTodosLosPokemons ∧
      a' = { a with estado := .mapaCompletado } ∧
      e.2 = [.envio a.mapaSocket .terminoObjetivos]) := by
  obtain ⟨r, sucesos⟩ := e
  unfold Paso at h
  cases r with
  | sigusr1 =>
    simp only [paso, Option.some.injEq, Prod.mk.injEq] at h
    exact .inl ⟨_, .inl rfl, h.1.symm, h.2.symm⟩
  | sigterm =>
    simp only [paso] at h
    split at h
    · simp only [Option.some.injEq, Prod.mk.injEq] at h
      exact .inl ⟨_, .inr rfl, h.1.symm, h.2.symm⟩
    · cases h
  | coordenada punto =>
    simp only [paso] at h
    split at h
    · next id hest hid =>
      simp only [Option.some.injEq, Prod.mk.injEq] at h
      exact .inr (.inl ⟨punto, id, rfl, hest, hid, h.1.symm, h.2.symm⟩)
    · cases h
  | ok =>
    simp only [paso] at h
    split at h
    · next hest =>
      simp only [Option.some.injEq, Prod.mk.injEq] at h
      obtain ⟨rfl, rfl⟩ := h
      exact .inr (.inr (.inl ⟨rfl, hest, rfl, rfl⟩))
    · cases h
  | teDoyElPokemon =>
    simp only [paso] at h
    split at h
    · next hest =>
      simp only [Option.some.injEq, Prod.mk.injEq] at h
      exact .inr (.inr (.inr (.inl ⟨rfl, hest, h.1.symm, h.2.symm⟩)))
    · cases h
  | estasBloqueado =>
    simp only [paso] at h
    split at h
    · next hest =>
      simp only [Option.some.injEq, Prod.mk.injEq] at h
      exact .inr (.inr (.inr (.inr (.inl ⟨rfl, hest, h.1.symm, h.2.symm⟩))))
    · cases h
  | aviso desbloqueo =>
    simp only [paso] at h
    split at h
    · next hest =>
      simp only [Option.some.injEq, Prod.mk.injEq] at h
      exact .inr (.inr (.inr (.inr (.inr (.inl ⟨desbloqueo, rfl, hest, h.1.symm, h.2.symm⟩)))))
    · cases h
  | resultado resultadoBatalla socket =>
    simp only [paso, fallecerPorDeadlock] at h
    split at h
    · next hest =>
      split at h
      · next hmorite =>
        subst hmorite
        split at h
        · next hvidas =>
          simp only [Option.map_some, Option.some.injEq, Prod.mk.injEq] at h
          exact .inr (.inr (.inr (.inr (.inr (.inr (.inl
            ⟨socket, rfl, hest, hvidas, h.1.symm, h.2.symm⟩))))))
        · cases h
      · next hmorite =>
        refine .inr (.inr (.inr (.inr (.inr (.inr (.inr (.inl
          ⟨resultadoBatalla, socket, rfl, hmorite, hest, ?_⟩)))))))
        split at h
        · next hvuelve =>
          simp only [Option.some.injEq, Prod.mk.injEq] at h
          rw [if_pos hvuelve]
          exact ⟨h.1.symm, h.2.symm⟩
        · next hvuelve =>
          simp only [Option.some.injEq, Prod.mk.injEq] at h
          rw [if_neg hvuelve, ← hest]
          exact ⟨h.1.symm, h.2.symm⟩
    · cases h
  | medalla =>
    simp only [paso] at h
    split at h
    · next hest =>
      simp only [Option.some.injEq, Prod.mk.injEq] at h
      exact .inr (.inr (.inr (.inr (.inr (.inr (.inr (.inr
        ⟨rfl, hest, h.1.symm, h.2.symm⟩)))))))
    · cases h

/-- A round other than a step and a death leaves the trainer where it is. -/
theorem Paso.posicion {objetivos : List UInt8} {a a' : Aventura} {e : Respuesta × List Suceso}
    (h : Paso objetivos a e a') (hok : e.1 ≠ .ok) (hvive : ∀ socket, e.1 ≠ .resultado morite socket) :
    a'.posicionDelEntrenador = a.posicionDelEntrenador := by
  rcases h.cases with ⟨_, _, rfl, _⟩ | ⟨_, _, _, _, _, rfl, _⟩ | ⟨hr, _, _, _⟩ |
    ⟨_, _, rfl, _⟩ | ⟨_, _, rfl, _⟩ | ⟨_, _, _, rfl, _⟩ | ⟨_, hr, _, _, _, _⟩ |
    ⟨_, _, _, _, _, rfl, _⟩ | ⟨_, _, rfl, _⟩
  case inr.inr.inl => exact absurd hr hok
  case inr.inr.inr.inr.inr.inr.inl => exact absurd hr (hvive _)
  all_goals rfl

/-- A trainer that has just entered a map, with a goal. -/
def recienLlegado : Aventura :=
  entrarAlMapa
    { puntoProximaPokenest := ⟨0, 0⟩, ultimaDireccion := .sinDireccion, estado := .mapaCompletado,
      posicionDelEntrenador := ⟨7, 7⟩, mapaSocket := 3, indexProximoPokemon := 2, idPokemon := 80,
      vidas := 1 } 5

end TpSo.Entrenador
