import TpSo.Osada.Ruta
import TpSo.Rocket.NetworkHandler

/-!
# What a PokeDex client asks its server

Each function of `pokeClienteConections`, with the bytes of its fields and what it makes of the
answer. `size_t` and `__time_t` have 8 bytes.
-/

namespace TpSo.PokeDex

open Dialogue Rocket
open Osada (Cadena)

/-- `MSG_FROM_FS_CLIENTE_TO_SERVER`. -/
inductive Mensaje where
  | abrirArchivo
  | leerArchivo
  | escribirArchivo
  | crearArchivo
  | crearDirectorio
  | buscarDirectorio
  | renombrarArchivo
  | getDirectorio
  | getAttr
  | eliminarArchivo
  | truncarArchivo
  | utimens
  deriving DecidableEq

namespace Mensaje

def toInt : Mensaje → ℤ
  | abrirArchivo => 1
  | leerArchivo => 2
  | escribirArchivo => 3
  | crearArchivo => 4
  | crearDirectorio => 5
  | buscarDirectorio => 6
  | renombrarArchivo => 7
  | getDirectorio => 8
  | getAttr => 9
  | eliminarArchivo => 10
  | truncarArchivo => 11
  | utimens => 12

def bytes (mensaje : Mensaje) : List UInt8 := bytesDeInt mensaje.toInt

end Mensaje

def envioDataDirectorio : ℤ := 2

def sizeofSizeT : ℕ := 8
def sizeofTimeT : ℕ := 8

def texto (path : Cadena) : List UInt8 := path.1 ++ [0]

def bytesDeLargo (path : Cadena) : List UInt8 := bytesDeInt (path.1.length + 1)

/-- The calls that another program can make. In a write, `size` is the length of `buf`. -/
inductive Pedido where
  | abrirArchivo (path : Cadena)
  | leerArchivo (size : ℕ) (offset : ℤ) (path : Cadena)
  | escribirArchivo (offset : ℤ) (path : Cadena) (buf : List UInt8)
  | truncarArchivo (path : Cadena) (offset : ℤ)
  | borrarArchivo (path : Cadena)
  | getDir (path : Cadena)
  | getAttr (path : Cadena)
  | crearDirectorio (path : Cadena)
  | crearArchivo (path : Cadena)
  | renombrarArchivo (desde hasta : Cadena)
  | utimens (path : Cadena) (segundos : ℤ)

/-- What is set of a `struct stat`: a directory has no size. -/
structure Stat where
  size : Option ℕ
  lastModif : ℕ
  deriving DecidableEq

inductive Leido where
  | abierto (existe : Bool)
  | archivo (buf : List UInt8)
  | escritos (bytesEscritos : ℤ)
  | truncado (creado : ℤ)
  | borrado (creado : ℤ)
  | directorio (nombres : List (List UInt8))
  | mensajeInesperado
  | atributos (stbuf : Option Stat)
  | directorioCreado (creado : ℕ)
  | archivoCreado (creado : ℤ)
  | renombrado (renombrado : ℕ)
  | fechado (creado : ℤ)
  deriving DecidableEq

/-- A field of the answer; a connection that is taken for closed ends the client. -/
def recibirActiva (size : ℕ) : Talker (List UInt8) := do
  let r ← librocketRecibirMensaje size
  if r.1 = 0 then .stop else pure r.2

def abrirArchivo (path : Cadena) : Talker Leido := do
  enviarCampos [Mensaje.abrirArchivo.bytes, bytesDeLargo path, texto path]
  let existe ← recibirActiva 4
  pure (.abierto (intOfBytes existe = 0))

def leerArchivo (size : ℕ) (offset : ℤ) (path : Cadena) : Talker Leido := do
  enviarCampos [Mensaje.leerArchivo.bytes, bytesOfInt sizeofSizeT size, bytesDeInt offset,
    bytesDeLargo path, texto path]
  let buf ← recibirActiva size
  pure (.archivo buf)

def escribirArchivo (offset : ℤ) (path : Cadena) (buf : List UInt8) : Talker Leido := do
  enviarCampos [Mensaje.escribirArchivo.bytes, bytesOfInt sizeofSizeT buf.length,
    bytesDeInt offset, bytesDeLargo path, texto path, buf]
  let bytesEscritos ← recibirActiva 4
  pure (.escritos (intOfBytes bytesEscritos))

/-- Of `offset` the first four bytes are sent. -/
def truncarArchivo (path : Cadena) (offset : ℤ) : Talker Leido := do
  enviarCampos [Mensaje.truncarArchivo.bytes, bytesDeInt offset, bytesDeLargo path, texto path]
  let creado ← librocketRecibirMensaje 4
  pure (.truncado (if intOfBytes creado.2 = 1 then 0 else intOfBytes creado.2))

def borrarArchivo (path : Cadena) : Talker Leido := do
  enviarCampos [Mensaje.eliminarArchivo.bytes, bytesDeLargo path, texto path]
  let creado ← librocketRecibirMensaje 4
  pure (.borrado (intOfBytes creado.2))

/-- The names and the types of so many elements; only the names are used. -/
def recibirElementos : ℕ → Talker (List (List UInt8))
  | 0 => pure []
  | cantidadElementos + 1 => do
    let nombre ← recibirActiva 17
    let _ ← recibirActiva 4
    let nombres ← recibirElementos cantidadElementos
    pure (nombre :: nombres)

def getDir (path : Cadena) : Talker Leido := do
  enviarCampos [Mensaje.getDirectorio.bytes, bytesDeLargo path, texto path]
  let mensajeRecibido ← recibirActiva 4
  if intOfBytes mensajeRecibido ≠ envioDataDirectorio then pure .mensajeInesperado
  else do
    let cantidadElementos ← recibirActiva 4
    let nombres ← recibirElementos (intOfBytes cantidadElementos).toNat
    pure (.directorio nombres)

def getAttr (path : Cadena) : Talker Leido := do
  enviarCampos [Mensaje.getAttr.bytes, bytesDeLargo path, texto path]
  let existe ← recibirActiva 4
  if 0 < intOfBytes existe then pure (.atributos none)
  else do
    let esArchivo ← recibirActiva 1
    if natOfBytes esArchivo ≠ 0 then do
      let size ← librocketRecibirMensaje 4
      let lastModif ← recibirActiva 4
      pure (.atributos (some ⟨some (natOfBytes size.2), natOfBytes lastModif⟩))
    else do
      let lastModif ← recibirActiva 4
      pure (.atributos (some ⟨none, natOfBytes lastModif⟩))

/-- The `int16_t` that comes is given as a `uint32_t`. -/
def crearDirectorio (path : Cadena) : Talker Leido := do
  enviarCampos [Mensaje.crearDirectorio.bytes, bytesDeLargo path, texto path]
  let creado ← recibirActiva 2
  pure (.directorioCreado (u32 (intOfBytes creado)))

def crearArchivo (path : Cadena) : Talker Leido := do
  enviarCampos [Mensaje.crearArchivo.bytes, bytesDeLargo path, texto path]
  let creado ← recibirActiva 2
  pure (.archivoCreado (intOfBytes creado))

def renombrarArchivo (desde hasta : Cadena) : Talker Leido := do
  enviarCampos [Mensaje.renombrarArchivo.bytes, bytesDeLargo desde, texto desde,
    bytesDeLargo hasta, texto hasta]
  let renombrado ← recibirActiva 4
  pure (.renombrado (u32 (intOfBytes renombrado)))

def clienteUtimens (path : Cadena) (segundos : ℤ) : Talker Leido := do
  enviarCampos [Mensaje.utimens.bytes, bytesDeLargo path, texto path,
    bytesOfInt sizeofTimeT segundos]
  let creado ← librocketRecibirMensaje 4
  pure (.fechado (if intOfBytes creado.2 = 1 then 0 else -1))

def pedir : Pedido → Talker Leido
  | .abrirArchivo path => abrirArchivo path
  | .leerArchivo size offset path => leerArchivo size offset path
  | .escribirArchivo offset path buf => escribirArchivo offset path buf
  | .truncarArchivo path offset => truncarArchivo path offset
  | .borrarArchivo path => borrarArchivo path
  | .getDir path => getDir path
  | .getAttr path => getAttr path
  | .crearDirectorio path => crearDirectorio path
  | .crearArchivo path => crearArchivo path
  | .renombrarArchivo desde hasta => renombrarArchivo desde hasta
  | .utimens path segundos => clienteUtimens path segundos

def pedirTodo : List Pedido → Talker (List Leido)
  | [] => pure []
  | pedido :: pedidos => do
    let leido ← pedir pedido
    let leidos ← pedirTodo pedidos
    pure (leido :: leidos)

end TpSo.PokeDex
