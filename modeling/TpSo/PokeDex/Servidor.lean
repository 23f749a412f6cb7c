import TpSo.Osada.Consultas
import TpSo.PokeDex.Cliente

/-!
# How the PokeDex server attends a request

Each handler of `conexionesPokeServidor`, with the bytes it reads and what it sends of the result of
the operation. The disk is the one at the moment of the request, whatever other clients did before.
A handler gives the request as it has read it, or nothing if a field did not come.
-/

namespace TpSo.PokeDex

open Dialogue Rocket
open Osada (Cadena OsadaFile Pokedex)

/-- The state of the server when a request comes, with the clock and the fresh memory that the
operation runs with. -/
structure Momento where
  pokedex : Pokedex
  hora : ℕ
  basura : OsadaFile
  memoria : ℕ → UInt8

def cadenaDe (bytes : List UInt8) : Cadena :=
  ⟨bytes.takeWhile (· ≠ 0),
    fun h => absurd (List.all_eq_true.mp List.all_takeWhile 0 h) (by decide)⟩

/-- A block of the size that was read; a negative one is not allocated, and nothing is received. -/
def recibirBloque (size : ℤ) : Talker (ℤ × List UInt8) :=
  if size < 0 then pure (-1, []) else librocketRecibirMensaje size.toNat

/-- The length of a path and the path. The handlers read the length as a `uint32_t` or an `int`. -/
def recibirPath (largo : List UInt8 → ℤ) : Talker (Option Cadena) := do
  let pathSize ← librocketRecibirMensaje 4
  if 0 < pathSize.1 then do
    let path ← recibirBloque (largo pathSize.2)
    if 0 < path.1 then pure (some (cadenaDe path.2)) else pure none
  else pure none

/-- `uint32_t`. -/
def sinSigno (bytes : List UInt8) : ℤ := natOfBytes bytes

section Funciones
variable {α : Type} (m : Momento)

/-- An operation that does not return is the end of the server. -/
def conDisco (x : Op Pokedex α) (f : α → Talker (Option Pedido)) : Talker (Option Pedido) :=
  match (x m.pokedex).1 with
  | some a => f a
  | none => .stop

/-- What most handlers do: an operation on the path that comes. -/
def conPath (largo : List UInt8 → ℤ) (x : Cadena → Op Pokedex α)
    (f : Cadena → α → Talker (Option Pedido)) : Talker (Option Pedido) := do
  let path ← recibirPath largo
  match path with
  | none => pure none
  | some path => conDisco m (x path) (f path)

def responder (campos : List (List UInt8)) (pedido : Pedido) : Talker (Option Pedido) := do
  enviarCampos campos
  pure (some pedido)

def atenderGetAttr : Talker (Option Pedido) :=
  conPath m sinSigno (Osada.osadaGetAtributosArchivo m.basura) fun path atributos =>
    match atributos with
    | none => responder [bytesDeInt 1] (.getAttr path)
    | some atributos =>
      if atributos.tipoArchivo = .archivo then
        responder [bytesDeInt 0, [1], bytesDeInt atributos.size, bytesDeInt atributos.lastmod]
          (.getAttr path)
      else responder [bytesDeInt 0, [0], bytesDeInt atributos.lastmod] (.getAttr path)

def atenderEliminarArchivo : Talker (Option Pedido) :=
  conPath m intOfBytes (fun path => Osada.osadaEliminarArchivo m.basura path 0)
    fun path resultado => responder [bytesDeInt resultado] (.borrarArchivo path)

/-- Here all the fields are received before any is looked at. -/
def serverUtimens : Talker (Option Pedido) := do
  let pathSize ← librocketRecibirMensaje 4
  let path ← recibirBloque (sinSigno pathSize.2)
  let segundos ← librocketRecibirMensaje sizeofTimeT
  if 0 < pathSize.1 ∧ 0 < path.1 ∧ 0 < segundos.1 then
    conDisco m (Osada.osadaUtimens m.basura (cadenaDe path.2) (intOfBytes segundos.2))
      fun resultado =>
        responder [bytesDeInt resultado] (.utimens (cadenaDe path.2) (intOfBytes segundos.2))
  else do
    enviarCampos [bytesDeInt (-1)]
    pure none

def camposDe (e : Osada.DirectoryElement) : List (List UInt8) :=
  [e.nombre, bytesDeInt e.tipoArchivo.toInt]

def getEstructuraDirectorio : Talker (Option Pedido) :=
  conPath m intOfBytes (Osada.osadaEstructuraDirectorio m.basura m.memoria) fun path elementos =>
    responder (bytesDeInt envioDataDirectorio :: bytesDeInt elementos.length ::
      elementos.flatMap camposDe) (.getDir path)

def atenderRenombrarArchivo : Talker (Option Pedido) := do
  let oldNameSize ← librocketRecibirMensaje 4
  let desde ← recibirBloque (sinSigno oldNameSize.2)
  let newNameSize ← librocketRecibirMensaje 4
  let hasta ← recibirBloque (sinSigno newNameSize.2)
  if 0 < oldNameSize.1 ∧ 0 < desde.1 ∧ 0 < newNameSize.1 ∧ 0 < hasta.1 then
    conDisco m (Osada.osadaRenombrarArchivo m.basura (cadenaDe desde.2) (cadenaDe hasta.2))
      fun result =>
        responder [bytesDeInt result] (.renombrarArchivo (cadenaDe desde.2) (cadenaDe hasta.2))
  else pure none

/-- Nothing is done, and nothing is sent. -/
def atenderBuscarDirectorio : Talker (Option Pedido) := do
  let _ ← recibirPath intOfBytes
  pure none

/-- The path is freed after the answer: for the second time if the operation has freed it. -/
def atenderCrearDirectorio : Talker (Option Pedido) :=
  conPath m sinSigno (Osada.osadaCrearDirectorio m.hora m.basura) fun path resultado => do
    enviarCampos [bytesOfInt 2 resultado]
    if Osada.liberaElPath path resultado then .stop else pure (some (.crearDirectorio path))

def atenderEscribirArchivo : Talker (Option Pedido) := do
  let bytesToWrite ← librocketRecibirMensaje sizeofSizeT
  if 0 < bytesToWrite.1 then do
    let offset ← librocketRecibirMensaje 4
    if 0 < offset.1 then do
      let pathSize ← librocketRecibirMensaje 4
      if 0 < pathSize.1 then do
        let path ← recibirBloque (sinSigno pathSize.2)
        let datosAEscribir ← librocketRecibirMensaje (natOfBytes bytesToWrite.2)
        if 0 < datosAEscribir.1 ∧ 0 < path.1 then
          conDisco m (Osada.osadaEditarArchivo m.basura (cadenaDe path.2) (intOfBytes offset.2)
              (i32 (natOfBytes bytesToWrite.2)) datosAEscribir.2) fun bytesEscritos =>
            responder [bytesDeInt bytesEscritos]
              (.escribirArchivo (intOfBytes offset.2) (cadenaDe path.2) datosAEscribir.2)
        else pure none
      else pure none
    else pure none
  else pure none

/-- The answer to a field that did not come is sent from the address `-1`: it is not sent. -/
def atenderTruncarArchivo : Talker (Option Pedido) := do
  let offset ← librocketRecibirMensaje 4
  if 0 < offset.1 then
    conPath m sinSigno
      (fun path => Osada.osadaTruncarArchivo m.basura path (intOfBytes offset.2))
      fun path out => responder [bytesDeInt out] (.truncarArchivo path (intOfBytes offset.2))
  else pure none

/-- `tamanioALeer` bytes are sent from where the file was read to; from `NULL` none is sent. -/
def atenderLeerArchivo : Talker (Option Pedido) := do
  let tamanioALeer ← librocketRecibirMensaje sizeofSizeT
  if 0 < tamanioALeer.1 then do
    let offset ← librocketRecibirMensaje 4
    if 0 < offset.1 then
      conPath m sinSigno (fun path => Osada.osadaLeerArchivo m.basura m.memoria path
          (natOfBytes tamanioALeer.2) (intOfBytes offset.2)) fun path archivo =>
        responder
          (match archivo with
          | some archivo => [(archivo ++ Osada.sinEscribir m.memoria
              (natOfBytes tamanioALeer.2)).take (natOfBytes tamanioALeer.2)]
          | none => [])
          (.leerArchivo (natOfBytes tamanioALeer.2) (intOfBytes offset.2) path)
    else pure none
  else pure none

def atenderCrearArchivo : Talker (Option Pedido) :=
  conPath m intOfBytes (Osada.osadaCrearArchivo m.hora m.basura) fun path resultado =>
    responder [bytesOfInt 2 resultado] (.crearArchivo path)

def atenderAbrirArchivo : Talker (Option Pedido) :=
  conPath m intOfBytes (Osada.osadaExisteArchivo m.basura) fun path existe =>
    responder [bytesDeInt (if existe = 0 then 0 else 1)] (.abrirArchivo path)

/-- A number that is no message is passed over. -/
def interpretarMensaje (tipoMensaje : ℤ) : Talker (Option Pedido) :=
  if tipoMensaje = Mensaje.abrirArchivo.toInt then atenderAbrirArchivo m
  else if tipoMensaje = Mensaje.leerArchivo.toInt then atenderLeerArchivo m
  else if tipoMensaje = Mensaje.escribirArchivo.toInt then atenderEscribirArchivo m
  else if tipoMensaje = Mensaje.crearArchivo.toInt then atenderCrearArchivo m
  else if tipoMensaje = Mensaje.crearDirectorio.toInt then atenderCrearDirectorio m
  else if tipoMensaje = Mensaje.buscarDirectorio.toInt then atenderBuscarDirectorio
  else if tipoMensaje = Mensaje.renombrarArchivo.toInt then atenderRenombrarArchivo m
  else if tipoMensaje = Mensaje.getDirectorio.toInt then getEstructuraDirectorio m
  else if tipoMensaje = Mensaje.getAttr.toInt then atenderGetAttr m
  else if tipoMensaje = Mensaje.eliminarArchivo.toInt then atenderEliminarArchivo m
  else if tipoMensaje = Mensaje.truncarArchivo.toInt then atenderTruncarArchivo m
  else if tipoMensaje = Mensaje.utimens.toInt then serverUtimens m
  else pure none

def manejarConexion : Talker (Option Pedido) := do
  let tipoMensaje ← librocketRecibirMensaje 4
  if tipoMensaje.1 = 1 then interpretarMensaje m (intOfBytes tipoMensaje.2) else pure none

end Funciones

def hiloManejarConexiones : List Momento → Talker (List (Option Pedido))
  | [] => pure []
  | m :: ms => do
    let atendido ← manejarConexion m
    let atendidos ← hiloManejarConexiones ms
    pure (atendido :: atendidos)

end TpSo.PokeDex
