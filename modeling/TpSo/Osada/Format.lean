import Mathlib.Logic.Function.Basic
import TpSo.Base.Machine
import TpSo.Base.Op

/-!
# The OSADA disk and the state of the PokeDex server

A disk is its regions: header, bitmap, table of 2048 file descriptors, allocation table and
data. `Escritura` is one `fwrite`; the server keeps the list of them, so that a theorem can
speak of where every byte went. Byte positions are those the source hands to `fseek`.

The header and the bitmap are cached by the server once read. Here the cache and the disk
are one value: every `fseek`, `fread` and `fwrite` of a run is taken to succeed.
-/

namespace TpSo.Osada

/-- `UINT32_MAX`, the mark that ends a chain of blocks. -/
def uint32Max : ℕ := 4294967295

/-- `ERRORES_OSADA`. -/
def noHayEspacio : ℤ := -2
def noHayDescriptores : ℤ := -3
def archivoInexistente : ℤ := -4
def directorioNoVacio : ℤ := -7

structure OsadaHeader where
  fsBlocks : ℕ
  bitmapBlocks : ℕ
  inicioTablaAsignaciones : ℕ
  dataBlocks : ℕ
  deriving DecidableEq

inductive OsadaFileState where
  | deleted
  | regular
  | directory
  deriving DecidableEq, Repr

/-- `osada_file`; `fname` is the 17 bytes of the field. -/
structure OsadaFile where
  state : OsadaFileState
  fname : List UInt8
  fileSize : ℕ
  parentDirectory : ℕ
  lastmod : ℕ
  firstBlock : ℕ
  deriving DecidableEq

/-- `resultados`: what `leerPath` says of a path. -/
inductive Resultado where
  | archivoExiste
  | archivoNoPathValido
  | pathInvalido
  deriving DecidableEq, Repr

def Resultado.toInt : Resultado → ℤ
  | archivoExiste => 0
  | archivoNoPathValido => 1
  | pathInvalido => 2

/-- Size in blocks of the allocation table, as the source computes it. -/
def obtenerTamanioAsignaciones (h : OsadaHeader) : ℕ :=
  let ret := u32 ((h.fsBlocks : ℤ) - h.bitmapBlocks - 1 - 1024) * 4 / 64
  if ret % 64 ≠ 0 then ret + 1 else ret

def obtenerInicioTablaBloques (h : OsadaHeader) : ℕ :=
  u32 (h.inicioTablaAsignaciones + obtenerTamanioAsignaciones h)

/-- The regions of a disk follow one another: block 0, the bitmap, the 1024 blocks of the
table of files and the allocation table, with room for a cell for every data block. -/
structure OsadaHeader.Regiones (h : OsadaHeader) : Prop where
  cabe : 1 + h.bitmapBlocks + 1024 ≤ h.fsBlocks
  tabla : h.inicioTablaAsignaciones = 1 + h.bitmapBlocks + 1024
  celdas : h.dataBlocks * 4 ≤ obtenerTamanioAsignaciones h * 64

/-- One `fwrite`, with the index the source computes for it. -/
inductive Escritura where
  | bitmap (numeroByte : ℕ) (valor : UInt8)
  | asignacion (posicion valor : ℕ)
  | descriptor (posicion : ℕ) (descriptor : OsadaFile)
  | datos (desde : ℕ) (bytes : List UInt8)
  deriving DecidableEq

def Escritura.desde (h : OsadaHeader) : Escritura → ℕ
  | bitmap numeroByte _ => 64 + numeroByte
  | asignacion posicion _ => h.inicioTablaAsignaciones * 64 + posicion * 4
  | descriptor posicion _ => (1 + h.bitmapBlocks) * 64 + posicion * 32
  | datos desde _ => desde

def Escritura.largo : Escritura → ℕ
  | bitmap _ _ => 1
  | asignacion _ _ => 4
  | descriptor _ _ => 32
  | datos _ bytes => bytes.length

/-- The disk. `datos` is indexed by the byte position in the file, the other regions by
byte, slot and cell number. -/
structure Disco where
  header : OsadaHeader
  regiones : header.Regiones
  bitmap : ℕ → UInt8
  archivos : ℕ → OsadaFile
  asignaciones : ℕ → ℕ
  datos : ℕ → UInt8

/-- `obtenerInicioTablaBloques(header)` for the header of the disk. -/
def Disco.inicio (d : Disco) : ℕ := obtenerInicioTablaBloques d.header

theorem inicio_congr {d d' : Disco} (h : d'.header = d.header) : d'.inicio = d.inicio :=
  congrArg obtenerInicioTablaBloques h

/-- The effect of a write on its region. One that falls out of its region is only recorded
(`Pokedex.escrituras`): no statement here speaks of the contents of the disk after it. -/
def Disco.aplicar (d : Disco) : Escritura → Disco
  | .bitmap numeroByte valor =>
    { d with bitmap := if numeroByte < d.header.bitmapBlocks * 64 then
        Function.update d.bitmap numeroByte valor else d.bitmap }
  | .asignacion posicion valor =>
    { d with asignaciones := if posicion < d.header.dataBlocks then
        Function.update d.asignaciones posicion valor else d.asignaciones }
  | .descriptor posicion descriptor =>
    { d with archivos := if posicion < 2048 then
        Function.update d.archivos posicion descriptor else d.archivos }
  | .datos desde bytes =>
    { d with datos := fun k =>
        if desde ≤ k ∧ k < desde + bytes.length then bytes.getD (k - desde) 0 else d.datos k }

/-- The server: the disk, the writes made so far and the globals of `globales.c` that the
creation of entries uses. -/
structure Pokedex where
  disco : Disco
  escrituras : List Escritura
  ultimaEntradaLibreDeTabla : ℕ
  entradasLibresOtorgadas : ℕ → Bool
  obtenerEntradaArchivoLibreMutex : Bool

namespace Pokedex

/-- The server on a disk, before its first request. -/
def inicial (d : Disco) : Pokedex where
  disco := d
  escrituras := []
  ultimaEntradaLibreDeTabla := 0
  entradasLibresOtorgadas _ := false
  obtenerEntradaArchivoLibreMutex := false

def escribir (s : Pokedex) (w : Escritura) : Pokedex :=
  { s with disco := s.disco.aplicar w, escrituras := s.escrituras ++ [w] }

@[simp] theorem escribir_disco (s : Pokedex) (w : Escritura) :
    (s.escribir w).disco = s.disco.aplicar w := rfl

@[simp] theorem escribir_escrituras (s : Pokedex) (w : Escritura) :
    (s.escribir w).escrituras = s.escrituras ++ [w] := rfl

@[simp] theorem escribir_ultima (s : Pokedex) (w : Escritura) :
    (s.escribir w).ultimaEntradaLibreDeTabla = s.ultimaEntradaLibreDeTabla := rfl

@[simp] theorem escribir_otorgadas (s : Pokedex) (w : Escritura) :
    (s.escribir w).entradasLibresOtorgadas = s.entradasLibresOtorgadas := rfl

@[simp] theorem escribir_mutex (s : Pokedex) (w : Escritura) :
    (s.escribir w).obtenerEntradaArchivoLibreMutex = s.obtenerEntradaArchivoLibreMutex := rfl

end Pokedex

section Aplicar
variable (d : Disco)

@[simp] theorem aplicar_header (w : Escritura) : (d.aplicar w).header = d.header := by
  cases w <;> rfl

@[simp] theorem aplicar_inicio (w : Escritura) : (d.aplicar w).inicio = d.inicio := by
  cases w <;> rfl

@[simp] theorem aplicar_bitmap_archivos (k : ℕ) (v : UInt8) :
    (d.aplicar (.bitmap k v)).archivos = d.archivos := rfl

@[simp] theorem aplicar_bitmap_asignaciones (k : ℕ) (v : UInt8) :
    (d.aplicar (.bitmap k v)).asignaciones = d.asignaciones := rfl

@[simp] theorem aplicar_bitmap_datos (k : ℕ) (v : UInt8) :
    (d.aplicar (.bitmap k v)).datos = d.datos := rfl

@[simp] theorem aplicar_asignacion_bitmap (p v : ℕ) :
    (d.aplicar (.asignacion p v)).bitmap = d.bitmap := rfl

@[simp] theorem aplicar_asignacion_archivos (p v : ℕ) :
    (d.aplicar (.asignacion p v)).archivos = d.archivos := rfl

@[simp] theorem aplicar_asignacion_datos (p v : ℕ) :
    (d.aplicar (.asignacion p v)).datos = d.datos := rfl

theorem aplicar_asignacion_asignaciones {p : ℕ} (h : p < d.header.dataBlocks) (v : ℕ) :
    (d.aplicar (.asignacion p v)).asignaciones = Function.update d.asignaciones p v :=
  if_pos h

@[simp] theorem aplicar_descriptor_bitmap (p : ℕ) (e : OsadaFile) :
    (d.aplicar (.descriptor p e)).bitmap = d.bitmap := rfl

@[simp] theorem aplicar_descriptor_asignaciones (p : ℕ) (e : OsadaFile) :
    (d.aplicar (.descriptor p e)).asignaciones = d.asignaciones := rfl

@[simp] theorem aplicar_descriptor_datos (p : ℕ) (e : OsadaFile) :
    (d.aplicar (.descriptor p e)).datos = d.datos := rfl

theorem aplicar_descriptor_archivos {p : ℕ} (h : p < 2048) (e : OsadaFile) :
    (d.aplicar (.descriptor p e)).archivos = Function.update d.archivos p e :=
  if_pos h

/-- A descriptor written past the table leaves the table alone. -/
theorem aplicar_descriptor_of_le {p : ℕ} (h : 2048 ≤ p) (e : OsadaFile) :
    d.aplicar (.descriptor p e) = d := by
  simp [Disco.aplicar, Nat.not_lt.mpr h]

@[simp] theorem aplicar_datos_bitmap (desde : ℕ) (bs : List UInt8) :
    (d.aplicar (.datos desde bs)).bitmap = d.bitmap := rfl

@[simp] theorem aplicar_datos_archivos (desde : ℕ) (bs : List UInt8) :
    (d.aplicar (.datos desde bs)).archivos = d.archivos := rfl

@[simp] theorem aplicar_datos_asignaciones (desde : ℕ) (bs : List UInt8) :
    (d.aplicar (.datos desde bs)).asignaciones = d.asignaciones := rfl

theorem aplicar_datos_of_outside {desde k : ℕ} {bs : List UInt8}
    (h : ¬ (desde ≤ k ∧ k < desde + bs.length)) :
    (d.aplicar (.datos desde bs)).datos k = d.datos k := if_neg h

end Aplicar

/-- Live entries: `archivo.state != DELETED`. -/
def OsadaFile.vivo (e : OsadaFile) : Bool := e.state ≠ .deleted

end TpSo.Osada
