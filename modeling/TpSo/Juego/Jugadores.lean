import TpSo.Entrenador.Aventura
import TpSo.Mapa.Partida

/-!
# A map and the trainers at it

A map process with the trainers at the other ends of its sockets. A trainer sends the message of its
round of `completarMapa` and waits. The map attends it when the planner comes to the trainer, and
what it sends is in the socket until the trainer reads it.
-/

namespace TpSo.Juego

open Function (update)
open Entrenador (Aventura)
open Mapa

/-! ## One trainer -/

/-- What the trainer reads of what the map sends. The one that reads `MORITE` leaves: if it comes
back it does on another connection. -/
def respuesta : Envio → Option Entrenador.Respuesta
  | .coordenada punto => some (.coordenada punto)
  | .ok => some .ok
  | .teDoyElPokemon _ _ => some .teDoyElPokemon
  | .estasBloqueado => some .estasBloqueado
  | .medalla => some .medalla
  | .estasEnDeadlock => some (.aviso Entrenador.estasEnDeadlock)
  | .estasDesbloqueado => some (.aviso Entrenador.estasDesbloqueado)
  | .resultado mensaje => if mensaje = Entrenador.morite then none else some (.resultado mensaje 0)

/-- The message of a round, as the map receives it: the file of the pokemon is copied before it is
acknowledged. -/
def pedido (objetivos : List UInt8) (a : Aventura) : Option Recibido :=
  match a.estado with
  | .sinPokenest =>
    objetivos[a.indexProximoPokemon]?.map fun id => ⟨1, some id, none, false, false⟩
  | .enCamino =>
    some ⟨2, none, some (Entrenador.avanzar a.toViaje).ultimaDireccion.toInt, false, false⟩
  | .enPokenest => some ⟨3, some a.idPokemon, none, true, true⟩
  | .conTodosLosPokemons => some ⟨4, none, none, false, false⟩
  | .mapaCompletado | .bloqueado | .enDeadlock => none

theorem pedido_mover {objetivos : List UInt8} {a : Aventura} {r : Recibido}
    (h : pedido objetivos a = some r) : r.tipoMensaje ≠ 2 ∨ a.estado = .enCamino ∧
      r.direccion = some (Entrenador.avanzar a.toViaje).ultimaDireccion.toInt := by
  unfold pedido at h
  cases hest : a.estado with
  | sinPokenest =>
    rw [hest] at h
    obtain ⟨id, _, rfl⟩ := Option.map_eq_some_iff.mp h
    exact .inl (by simp)
  | enCamino =>
    rw [hest] at h
    obtain rfl := Option.some.inj h
    exact .inr ⟨rfl, rfl⟩
  | enPokenest | conTodosLosPokemons =>
    rw [hest] at h
    obtain rfl := Option.some.inj h
    exact .inl (by simp)
  | mapaCompletado | bloqueado | enDeadlock =>
    rw [hest] at h
    cases h

/-- The first message of a round of `paso`, in the numbers of the map. -/
def recibidoDe : Entrenador.Suceso → Option Recibido
  | .envio _ (.conocerPokenest id) => some ⟨1, some id, none, false, false⟩
  | .envio _ (.moverPosicion direccion) => some ⟨2, none, some direccion, false, false⟩
  | .envio _ (.capturar id) => some ⟨3, some id, none, true, true⟩
  | .envio _ .terminoObjetivos => some ⟨4, none, none, false, false⟩
  | _ => none

/-- The trainer sends what `pedido` says, whatever it is answered. -/
theorem pedido_of_paso {objetivos : List UInt8} {a a' : Aventura}
    {e : Entrenador.Respuesta × List Entrenador.Suceso} (h : Entrenador.Paso objetivos a e a')
    (he : e.1 ≠ .sigusr1 ∧ e.1 ≠ .sigterm) : pedido objetivos a = e.2.head?.bind recibidoDe := by
  rcases h.cases with ⟨_, hs, -, -⟩ | ⟨_, id, -, hest, hid, -, hes⟩ | ⟨-, hest, ha, hes⟩ |
    ⟨-, hest, -, hes⟩ | ⟨-, hest, -, hes⟩ | ⟨_, -, hest, -, hes⟩ | ⟨_, -, hest, -, -, hes⟩ |
    ⟨_, _, -, -, hest, -, hes⟩ | ⟨-, hest, -, hes⟩
  · exact absurd hs (not_or.mpr he)
  · rw [pedido, hest, hes]
    dsimp only
    rw [hid]
    rfl
  · rw [pedido, hest, hes, ha]
    rfl
  all_goals
    rw [pedido, hest, hes]
    rfl

/-- A round in which the trainer reads `e`. -/
def ronda (objetivos : List UInt8) (a : Aventura) (e : Envio) : Option Aventura :=
  (respuesta e).bind fun r => (Entrenador.paso objetivos a r).map Prod.fst

/-- A trainer moves where it reads `OK`, and nowhere else. -/
theorem ronda_posicion {objetivos : List UInt8} {a a' : Aventura} {e : Envio}
    (h : ronda objetivos a e = some a') (he : e ≠ .ok) :
    a'.posicionDelEntrenador = a.posicionDelEntrenador := by
  obtain ⟨r, hr, hpaso⟩ := Option.bind_eq_some_iff.mp h
  obtain ⟨⟨a', sucesos⟩, hround, rfl⟩ := Option.map_eq_some_iff.mp hpaso
  have hround : Entrenador.Paso objetivos a (r, sucesos) a' := hround
  apply hround.posicion
  · rintro rfl
    cases e <;> grind [respuesta]
  · intro socket hmuere
    cases e <;> grind [respuesta]

structure Jugador where
  objetivos : List UInt8
  aventura : Aventura
  /-- What it has been sent and has not read. -/
  buzon : List Envio

namespace Jugador

variable (j : Jugador)

/-- What it has sent, if it waits for nothing else. -/
def pedido : Option Recibido :=
  if j.buzon = [] then Juego.pedido j.objetivos j.aventura else none

def leer : Option Jugador :=
  match j.buzon with
  | e :: buzon => (ronda j.objetivos j.aventura e).map fun a => ⟨j.objetivos, a, buzon⟩
  | [] => none

def recibir (es : List Envio) : Jugador := { j with buzon := j.buzon ++ es }

/-- The adventure once the trainer has read all that it has been sent. -/
def asentada : Option Aventura := j.buzon.foldlM (ronda j.objetivos) j.aventura

variable {j}

theorem asentada_nil (h : j.buzon = []) : j.asentada = some j.aventura := by
  rw [asentada, h]
  rfl

theorem asentada_recibir (es : List Envio) :
    (j.recibir es).asentada = j.asentada.bind fun a => es.foldlM (ronda j.objetivos) a := by
  rw [asentada, recibir]
  dsimp only
  rw [List.foldlM_append]
  rfl

theorem asentada_leer {j' : Jugador} (h : j.leer = some j') : j'.asentada = j.asentada := by
  unfold leer at h
  split at h
  · next e buzon hb =>
    obtain ⟨a, ha, rfl⟩ := Option.map_eq_some_iff.mp h
    unfold asentada
    rw [hb, List.foldlM_cons, ha]
    rfl
  · cases h

theorem posicion_recibir {es : List Envio} {a' : Aventura} (hes : ∀ e ∈ es, e ≠ .ok)
    (h : (j.recibir es).asentada = some a') :
    ∃ a, j.asentada = some a ∧ a'.posicionDelEntrenador = a.posicionDelEntrenador := by
  rw [asentada_recibir] at h
  obtain ⟨a, ha, hfold⟩ := Option.bind_eq_some_iff.mp h
  refine ⟨a, ha, ?_⟩
  clear ha h
  induction es generalizing a with
  | nil =>
    obtain rfl := Option.some.inj hfold
    rfl
  | cons e es ih =>
    rw [List.foldlM_cons] at hfold
    obtain ⟨a₁, h₁, hrest⟩ := Option.bind_eq_some_iff.mp hfold
    rw [ih (fun e he => hes e (List.mem_cons_of_mem _ he)) a₁ hrest]
    exact ronda_posicion h₁ (hes e List.mem_cons_self)

end Jugador

/-! ## All of them -/

structure Mundo where
  partida : Partida
  /-- The trainer at the other end of a socket. -/
  jugador : ℤ → Jugador

def correo (k : ℤ) (es : List (ℤ × Envio)) : List Envio :=
  (es.filter fun e => e.1 = k).map Prod.snd

/-- What the trainers and the threads of the map do. -/
inductive Accion where
  /-- `globales` is what the globals of the trainer held. -/
  | conecta (sockfd : ℤ) (pathEntrenador : Nombre) (objetivos : List UInt8) (globales : Aventura)
  | lee (sockfd : ℤ)
  | empieza
  | atiende
  /-- The trainer in turn has closed its connection. -/
  | corta (r : Recibido)
  | termina
  | detecta (peleas : Peleas)
  | recarga

namespace Mundo

variable (s : Mundo)

def mapa : Estado := s.partida.mapa

def turno : Turno := s.partida.turno

def pendiente (p : ℕ) : Option Recibido :=
  if s.mapa.sock p ∈ s.partida.presentes then (s.jugador (s.mapa.sock p)).pedido else none

/-- What the map does. A goal that is not there is a `NULL` pointer in `handShake`. -/
def evento : Accion → Option Evento
  | .conecta sockfd path objetivos _ => objetivos.head?.map fun id => .conecta sockfd path id
  | .lee _ => none
  | .empieza => some .empieza
  | .atiende => (s.turno.de.bind s.pendiente).map .atiende
  | .corta r => if r.seVa s.mapa.toAlmacen then some (.atiende r) else none
  | .termina => some .termina
  | .detecta peleas => some (.detecta peleas)
  | .recarga => some .recarga

def entregar (partida : Partida) : Mundo where
  partida := partida
  jugador k := (s.jugador k).recibir (correo k (partida.mapa.enviados.drop s.mapa.enviados.length))

/-- The trainer that has connected begins at the first goal. -/
def sentar : Accion → Mundo
  | .conecta sockfd _ objetivos globales => { s with
      jugador := update s.jugador sockfd ⟨objetivos, Entrenador.handShake globales, []⟩ }
  | _ => s

def paso (f : Fabrica) (e : Ajustes × Accion) : Option Mundo :=
  match e.2 with
  | .lee sockfd => (s.jugador sockfd).leer.map fun j =>
      { s with jugador := update s.jugador sockfd j }
  | accion => (s.evento accion).bind fun ev =>
      (s.partida.paso f (e.1, ev)).map fun partida => (s.entregar partida).sentar accion

def Admite (e : Accion) : Prop := ∀ ev ∈ s.evento e, s.partida.Admite ev

instance (e : Accion) : Decidable (s.Admite e) :=
  inferInstanceAs (Decidable (∀ ev ∈ s.evento e, _))

variable {s}

theorem paso_cases {f : Fabrica} {e : Ajustes × Accion} {s' : Mundo} (h : s.paso f e = some s') :
    (∃ k j, e.2 = .lee k ∧ (s.jugador k).leer = some j ∧
      s' = { s with jugador := update s.jugador k j }) ∨
    ∃ ev partida, s.evento e.2 = some ev ∧ s.partida.paso f (e.1, ev) = some partida ∧
      s' = (s.entregar partida).sentar e.2 := by
  unfold paso at h
  split at h
  · next k he =>
    obtain ⟨j, hj, rfl⟩ := Option.map_eq_some_iff.mp h
    exact .inl ⟨k, j, he, hj, rfl⟩
  · obtain ⟨ev, hev, hmap⟩ := Option.bind_eq_some_iff.mp h
    obtain ⟨partida, hpaso, rfl⟩ := Option.map_eq_some_iff.mp hmap
    exact .inr ⟨ev, partida, hev, hpaso, rfl⟩

end Mundo

/-- One step of the map or of a trainer, with the configuration of that moment. -/
def PasoJuego (f : Fabrica) (s : Mundo) (e : Ajustes × Accion) (s' : Mundo) : Prop :=
  s.paso f e = some s' ∧ s.Admite e.2

end TpSo.Juego
