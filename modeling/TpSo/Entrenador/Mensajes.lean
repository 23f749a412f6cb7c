import TpSo.Entrenador.Camino
import TpSo.Rocket.NetworkHandler

/-!
# What a trainer sends to a map and reads from it

Each function of `mensajesEntrenador`, with the bytes of its fields. What a field holds before it is
read is the argument `basura`.
-/

namespace TpSo.Entrenador

open Dialogue Rocket

/-- `t_mensajes_entrenador`. -/
def mensajeConocerPokenest : ℤ := 1
def mensajeMoverPosicion : ℤ := 2
def mensajeCapturar : ℤ := 3
def mensajeTermineObjetivos : ℤ := 4

def sizeofPunto : ℕ := 8

inductive Pedido where
  | conocerPokenest (razaPokemon : UInt8)
  | moverPosicionEntrenador (direccion : Entero)
  | capturarPokemon (idPokemon : UInt8)
  | notificarFinDeObjetivos

/-- What a function leaves the trainer with, as it was read. -/
inductive Leido where
  | cordenadaPokenest (punto : List UInt8)
  | movido
  | pokemon (directorioPadre pokepath : List UInt8)
  | bloqueado
  | otraAccion
  | pathMedalla (path : List UInt8)
  deriving DecidableEq

section Funciones
variable (basura : ℕ → UInt8)

def conocerPokenest (razaPokemon : UInt8) : Talker Leido := do
  let _ ← librocketEnviarMensaje (bytesDeInt mensajeConocerPokenest)
  let _ ← librocketEnviarMensaje [razaPokemon]
  let cordenada ← recvEn (sinIniciar basura sizeofPunto)
  pure (.cordenadaPokenest cordenada.2)

def moverPosicionEntrenador (direccion : Entero) : Talker Leido := do
  let _ ← librocketEnviarMensaje (bytesDeInt mensajeMoverPosicion)
  let _ ← librocketEnviarMensaje (bytesDeInt direccion.1)
  let _ ← recvEn (sinIniciar basura 4)
  pure .movido

def recibirNombre (longitud : List UInt8) : Talker (List UInt8) := do
  let longitud ← recvEn longitud
  let bloque ← malloc basura (intOfBytes longitud.2)
  let nombre ← recvEn bloque
  pure nombre.2

def capturarPokemon (idPokemon : UInt8) : Talker Leido := do
  let _ ← librocketEnviarMensaje (bytesDeInt mensajeCapturar)
  let _ ← librocketEnviarMensaje [idPokemon]
  let accion ← recvEn (sinIniciar basura 4)
  if intOfBytes accion.2 = -1 then do
    let directorioPadre ← recibirNombre basura (sinIniciar basura 4)
    let pokepath ← recibirNombre basura (sinIniciar basura 4)
    let _ ← librocketEnviarMensaje (bytesDeInt 0)
    pure (.pokemon directorioPadre pokepath)
  else if intOfBytes accion.2 = -2 then pure .bloqueado
  else pure .otraAccion

/-- Here the length is zero before it is read. -/
def notificarFinDeObjetivos : Talker Leido := do
  let _ ← librocketEnviarMensaje (bytesDeInt mensajeTermineObjetivos)
  let path ← recibirNombre basura (bytesDeInt 0)
  pure (.pathMedalla path)

def pedir : Pedido → Talker Leido
  | .conocerPokenest razaPokemon => conocerPokenest basura razaPokemon
  | .moverPosicionEntrenador direccion => moverPosicionEntrenador basura direccion
  | .capturarPokemon idPokemon => capturarPokemon basura idPokemon
  | .notificarFinDeObjetivos => notificarFinDeObjetivos basura

def pedirTodo : List Pedido → Talker (List Leido)
  | [] => pure []
  | pedido :: pedidos => do
    let leido ← pedir basura pedido
    let leidos ← pedirTodo pedidos
    pure (leido :: leidos)

end Funciones

end TpSo.Entrenador
