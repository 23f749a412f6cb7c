import TpSo.Osada.Tabla
import TpSo.Osada.Truncar

/-!
# The operations of the file system

Every operation on an existing file has two parts: what it reads before any lock, and what
it then does with the copy of the descriptor it read (`confirmar…`). `hora` is the clock and
`basura` the contents of the memory of the descriptor the operation allocates.
-/

namespace TpSo.Osada

open Function (update)

/-- `leerPath` within an operation. -/
def leer (basura : OsadaFile) (path : Cadena) : Op Pokedex Lectura := fun s =>
  (leerPath s.disco basura path, s)

section Leer
variable {β : Type} {basura : OsadaFile} {path : Cadena} {s : Pokedex} {f : Lectura → Op Pokedex β}

theorem leer_bind_some {l : Lectura} (hl : leerPath s.disco basura path = some l) :
    (leer basura path >>= f) s = f l s :=
  Op.bind_some (by rw [leer, hl])

theorem leer_bind_none (hl : leerPath s.disco basura path = none) :
    (leer basura path >>= f) s = (none, s) :=
  Op.bind_none (by rw [leer, hl])

end Leer

/-- What the creation of files and of directories do on a table that is not full: a new entry
for a path that is only missing its last component. -/
def crearEntrada (hora : ℕ) (basura : OsadaFile) (path : Cadena) (largoMaximo : Option ℕ)
    (estructura : OsadaFileState) : Op Pokedex ℤ := do
  let l ← leer basura path
  match l.resultado, obtenerNombreDeArchivoDePath path with
  | .archivoNoPathValido, some nombre =>
    if largoMaximo.all (nombre.length ≤ ·) then
      escribirDirectorioInterna hora basura nombre l.posicion estructura
    else pure Resultado.pathInvalido.toInt
  | _, _ => pure Resultado.pathInvalido.toInt

section CrearEntrada
variable {s : Pokedex} {hora : ℕ} {basura : OsadaFile} {path : Cadena} {l : Lectura}
  {largoMaximo : Option ℕ} {estructura : OsadaFileState} {nombre : List UInt8}

/-- A creation of a path that is missing its last component, with a name that is not too long. -/
theorem crearEntrada_acepta (hvivo : estructura = .regular ∨ estructura = .directory)
    (hl : leerPath s.disco basura path = some l) (hr : l.resultado = .archivoNoPathValido)
    (hn : obtenerNombreDeArchivoDePath path = some nombre)
    (hlargo : largoMaximo.all (nombre.length ≤ ·) = true) :
    crearEntrada hora basura path largoMaximo estructura s =
      escribirDescriptor (descriptorNuevo hora basura nombre l.posicion estructura) s := by
  rw [crearEntrada, leer_bind_some hl, hr, hn]
  simp only [if_pos hlargo]
  rw [escribirDirectorioInterna, if_pos hvivo]

theorem crearEntrada_rechaza (hl : leerPath s.disco basura path = some l)
    (hno : ¬ (l.resultado = .archivoNoPathValido ∧ ∃ nombre,
      obtenerNombreDeArchivoDePath path = some nombre ∧
        largoMaximo.all (nombre.length ≤ ·) = true)) :
    crearEntrada hora basura path largoMaximo estructura s = (some 2, s) := by
  rw [crearEntrada, leer_bind_some hl]
  cases hr : l.resultado with
  | archivoExiste => rfl
  | pathInvalido => rfl
  | archivoNoPathValido =>
    cases hn : obtenerNombreDeArchivoDePath path with
    | none => rfl
    | some nombre =>
      have hlargo : ¬ largoMaximo.all (nombre.length ≤ ·) = true := fun hlargo =>
        hno ⟨hr, nombre, hn, hlargo⟩
      simp only [if_neg hlargo]
      rfl

end CrearEntrada

def osadaCrearArchivo (hora : ℕ) (basura : OsadaFile) (path : Cadena) : Op Pokedex ℤ := do
  let d ← Op.get Pokedex.disco
  if 2048 ≤ obtenerCantidadDeArchivos d then pure noHayDescriptores
  else crearEntrada hora basura path (some 17) .regular

/-- At the end the last component is freed; an empty path has none, and what is freed then
is no block of the heap. That of "/" is the path of the caller: `liberaElPath`. -/
def osadaCrearDirectorio (hora : ℕ) (basura : OsadaFile) (path : Cadena) : Op Pokedex ℤ := do
  let d ← Op.get Pokedex.disco
  if 2048 ≤ obtenerCantidadDeArchivos d then pure noHayDescriptores
  else do
    let posicion ← crearEntrada hora basura path none .directory
    if (obtenerNombreDeArchivoDePath path).isSome then pure posicion else Op.abort

/-- `osada_crearDirectorio` has freed the path that it was called with: the name of "/" is the path
itself, and a full table is the only way out before the `free`. -/
def liberaElPath (path : Cadena) (resultado : ℤ) : Prop :=
  path.1 = [barra] ∧ resultado ≠ noHayDescriptores

instance (path : Cadena) (resultado : ℤ) : Decidable (liberaElPath path resultado) :=
  inferInstanceAs (Decidable (_ ∧ _))

/-- The size that a write leaves in the descriptor. -/
def tamanioEditado (fileSize : ℕ) (inicioBytes bytesAEscribir : ℤ) : ℕ :=
  if u32 (fileSize - inicioBytes) < u32 bytesAEscribir then u32 (bytesAEscribir + inicioBytes)
  else fileSize

def confirmarEditar (l : Lectura) (inicioBytes bytesAEscribir : ℤ) (archivo : List UInt8) :
    Op Pokedex ℤ :=
  match l.resultado, l.descriptor with
  | .archivoExiste, some descriptor => do
    tomarLock l.posicion
    let r ← editarArchivoInterna descriptor bytesAEscribir inicioBytes archivo
    if r.1 = noHayEspacio then pure r.1
    else do
      let _ ← reemplazarEstructuraDeArchivo l.posicion
        { r.2 with fileSize := tamanioEditado r.2.fileSize inicioBytes bytesAEscribir }
      pure r.1
  | _, _ => pure archivoInexistente

def osadaEditarArchivo (basura : OsadaFile) (path : Cadena) (inicioBytes bytesAEscribir : ℤ)
    (archivo : List UInt8) : Op Pokedex ℤ := do
  let l ← leer basura path
  confirmarEditar l inicioBytes bytesAEscribir archivo

/-- What follows a truncation that worked: the new bytes are set to zero, with a result that
nobody looks at, and the descriptor is written. -/
def completarTruncado (posicion : ℕ) (descriptor : OsadaFile) (bytesATruncar : ℤ) :
    Op Pokedex ℤ := do
  let r ←
    if descriptor.fileSize < u32 bytesATruncar then rellenarConEspacios descriptor bytesATruncar
    else pure (0, descriptor)
  reemplazarEstructuraDeArchivo posicion { r.2 with fileSize := u32 bytesATruncar }

def confirmarTruncar (l : Lectura) (bytesATruncar : ℤ) : Op Pokedex ℤ :=
  match l.resultado, l.descriptor with
  | .archivoExiste, some descriptor => do
    tomarLock l.posicion
    let r ← truncarArchivoInterna descriptor (u32 bytesATruncar)
    if r.1 = 1 then do
      let _ ← completarTruncado l.posicion r.2 bytesATruncar
      pure r.1
    else pure r.1
  | _, _ => pure archivoInexistente

def osadaTruncarArchivo (basura : OsadaFile) (path : Cadena) (bytesATruncar : ℤ) :
    Op Pokedex ℤ := do
  let l ← leer basura path
  confirmarTruncar l bytesATruncar

/-- A little-endian field of `largo` bytes with its first bytes overwritten. -/
def pisar : List UInt8 → ℕ → ℕ → ℕ
  | [], _, valor => valor
  | _, 0, valor => valor
  | b :: bytes, largo + 1, valor => b.toNat + 256 * pisar bytes largo (valor / 256)

/-- `strcpy(descriptor->fname, nombre)`: a name of 17 bytes or more goes on over the fields
that follow. The parent is set right after. -/
def strcpyDescriptor (e : OsadaFile) (nombre : List UInt8) : OsadaFile :=
  let bytes := nombre ++ [0]
  { e with
    fname := strcpyFname e.fname nombre
    fileSize := pisar (bytes.drop 17) 4 e.fileSize
    lastmod := pisar (bytes.drop 23) 4 e.lastmod
    firstBlock := pisar (bytes.drop 27) 4 e.firstBlock }

def confirmarRenombrar (viejoNombre nuevoNombre : Cadena) (viejo nuevo : Lectura) :
    Op Pokedex ℤ :=
  match viejo.resultado, viejo.descriptor, nuevo.resultado,
    obtenerNombreDeArchivoDePath nuevoNombre with
  | .archivoExiste, some descriptor, .archivoNoPathValido, some nombre =>
    if viejoNombre.1 ≠ [barra] then do
      let _ ← reemplazarEstructuraDeArchivo viejo.posicion
        { strcpyDescriptor descriptor nombre with parentDirectory := nuevo.posicion }
      pure 1
    else pure archivoInexistente
  | _, _, _, _ => pure archivoInexistente

def osadaRenombrarArchivo (basura : OsadaFile) (viejoNombre nuevoNombre : Cadena) :
    Op Pokedex ℤ := do
  let viejo ← leer basura viejoNombre
  let nuevo ← leer basura nuevoNombre
  confirmarRenombrar viejoNombre nuevoNombre viejo nuevo

/-- Some live entry has its parent at `posicion`. -/
def tieneHijos (archivos : ℕ → OsadaFile) (posicion : ℕ) : Bool :=
  (List.range 2048).any fun i =>
    (archivos i).parentDirectory = posicion ∧ (archivos i).state ≠ .deleted

def marcarLiberadosLosBloquesDeBitmap (descriptor : OsadaFile) : Op Pokedex ℕ := do
  let asignaciones ← Op.get fun s => s.disco.asignaciones
  liberarBloques asignaciones descriptor.firstBlock

/-- Only files have blocks to free. -/
def liberarSiEsArchivo (descriptor : OsadaFile) : Op Pokedex ℕ :=
  if descriptor.state = .regular then marcarLiberadosLosBloquesDeBitmap descriptor else pure 0

/-- `archivos` is a copy of the table. With `hard` the entries below are handed to the
handler of the server of the same name, which receives nothing from the number it takes for a
socket and returns: they stay, and the count with them. -/
def eliminarArchivoInterna (archivos : ℕ → OsadaFile) (posicion : ℕ) (descriptor : OsadaFile)
    (hard : ℕ) : Op Pokedex ℤ := do
  if hard = 0 ∧ tieneHijos archivos posicion then pure directorioNoVacio
  else do
    let _ ← liberarSiEsArchivo descriptor
    let _ ← reemplazarEstructuraDeArchivo posicion { descriptor with state := .deleted }
    pure 1

def confirmarEliminar (archivos : ℕ → OsadaFile) (path : Cadena) (l : Lectura) (hard : ℕ) :
    Op Pokedex ℤ :=
  match l.resultado, l.descriptor with
  | .archivoExiste, some descriptor =>
    if path.1 ≠ [barra] then eliminarArchivoInterna archivos l.posicion descriptor hard
    else pure archivoInexistente
  | _, _ => pure archivoInexistente

def osadaEliminarArchivo (basura : OsadaFile) (path : Cadena) (hard : ℕ) : Op Pokedex ℤ := do
  let archivos ← Op.get fun s => s.disco.archivos
  let l ← leer basura path
  confirmarEliminar archivos path l hard

def confirmarUtimens (path : Cadena) (l : Lectura) (segundos : ℤ) : Op Pokedex ℤ :=
  match l.resultado, l.descriptor with
  | .archivoExiste, some descriptor =>
    if path.1 ≠ [barra] then do
      let _ ← reemplazarEstructuraDeArchivo l.posicion { descriptor with lastmod := u32 segundos }
      pure 1
    else pure (-1)
  | _, _ => pure (-1)

def osadaUtimens (basura : OsadaFile) (path : Cadena) (segundos : ℤ) : Op Pokedex ℤ := do
  let l ← leer basura path
  confirmarUtimens path l segundos

end TpSo.Osada
