import TpSo.Osada.Funciones
import TpSo.Osada.Leer

/-!
# The operations that only read

What they give to the server. `memoria` is what the memory that the operation allocates holds
before it is written.
-/

namespace TpSo.Osada

/-- `tipo_archivo_t`. -/
inductive TipoArchivo where
  | archivo
  | directorio
  deriving DecidableEq

def TipoArchivo.toInt : TipoArchivo → ℤ
  | archivo => 1
  | directorio => 2

/-- Whatever is not a directory is a file. -/
def OsadaFileState.tipoArchivo (state : OsadaFileState) : TipoArchivo :=
  if state = .directory then .directorio else .archivo

structure DirectoryElement where
  tipoArchivo : TipoArchivo
  nombre : List UInt8

/-- `directory_attr` of what exists. -/
structure DirectoryAttr where
  tipoArchivo : TipoArchivo
  size : ℕ
  lastmod : ℕ

def listarDirectorio (d : Disco) (ubicacionDirectorio : ℕ) : List OsadaFile :=
  ((List.range 2048).map d.archivos).filter fun archivo =>
    archivo.parentDirectory = ubicacionDirectorio ∧ archivo.state ≠ .deleted

def sinEscribir (memoria : ℕ → UInt8) (n : ℕ) : List UInt8 := (List.range n).map memoria

section Operaciones
variable (basura : OsadaFile) (memoria : ℕ → UInt8) (path : Cadena)

def osadaExisteArchivo : Op Pokedex ℤ := do
  let l ← leer basura path
  pure (if l.resultado = .archivoExiste then 0 else -1)

def elementoDe (archivo : OsadaFile) : DirectoryElement where
  tipoArchivo := archivo.state.tipoArchivo
  nombre := strcpyFname (sinEscribir memoria 17) (getStringFromNombreOsada archivo.fname)

/-- What is not a directory has no elements. -/
def osadaEstructuraDirectorio : Op Pokedex (List DirectoryElement) := do
  let l ← leer basura path
  let d ← Op.get Pokedex.disco
  match l.resultado, l.descriptor with
  | .archivoExiste, some directorio =>
    if directorio.state = .directory then
      pure ((listarDirectorio d l.posicion).map (elementoDe memoria))
    else pure []
  | _, _ => pure []

/-- The bytes that were read at the start of the `bytesALeer` that were allocated. `NULL` if a
negative number cannot be allocated, if there is nothing at the path and if it is a directory. -/
def osadaLeerArchivo (bytesALeer posicionInicial : ℤ) : Op Pokedex (Option (List UInt8)) := do
  let l ← leer basura path
  let d ← Op.get Pokedex.disco
  match l.resultado, l.descriptor with
  | .archivoExiste, some descriptor =>
    if descriptor.state = .directory ∨ i32 bytesALeer < 0 then pure none
    else
      match (obtenerArchivoInterna d descriptor (i32 bytesALeer) (i32 posicionInicial)
        ⟨[], []⟩).1 with
      | some leido =>
        let n := (i32 bytesALeer).toNat
        pure (some ((leido.1 ++ sinEscribir memoria n).take n))
      | none => Op.abort
  | _, _ => pure none

def osadaGetAtributosArchivo : Op Pokedex (Option DirectoryAttr) := do
  let l ← leer basura path
  match l.resultado, l.descriptor with
  | .archivoExiste, some descriptor =>
    pure (some ⟨descriptor.state.tipoArchivo, descriptor.fileSize, descriptor.lastmod⟩)
  | _, _ => pure none

end Operaciones

/-- An operation that looks at a path comes back if the path can be taken apart. -/
theorem leer_isSome {β : Type} {basura : OsadaFile} {path : Cadena} {s : Pokedex}
    {f : Lectura → Op Pokedex β} (hf : ∀ l, (f l s).1.isSome = true) :
    ((leer basura path >>= f) s).1.isSome = true ↔ path.Legible := by
  rw [← leerPath_isSome s.disco basura path]
  rcases hl : leerPath s.disco basura path with _ | l
  · rw [leer_bind_none hl]
    simp
  · rw [leer_bind_some hl]
    simp [hf l]

section Vuelven
variable {basura : OsadaFile} {memoria : ℕ → UInt8} {path : Cadena} {s : Pokedex}

theorem osadaExisteArchivo_isSome :
    (osadaExisteArchivo basura path s).1.isSome = true ↔ path.Legible :=
  leer_isSome fun _ => rfl

theorem osadaGetAtributosArchivo_isSome :
    (osadaGetAtributosArchivo basura path s).1.isSome = true ↔ path.Legible := by
  apply leer_isSome
  rintro ⟨_ | descriptor, resultado, posicion⟩ <;> cases resultado <;> rfl

theorem osadaEstructuraDirectorio_isSome :
    (osadaEstructuraDirectorio basura memoria path s).1.isSome = true ↔ path.Legible := by
  apply leer_isSome
  rintro ⟨_ | descriptor, resultado, posicion⟩
  · cases resultado <;> rfl
  · cases resultado with
    | archivoExiste =>
      change ((if descriptor.state = .directory then _ else _ : Op Pokedex _) s).1.isSome = true
      split <;> rfl
    | archivoNoPathValido => rfl
    | pathInvalido => rfl

end Vuelven

section Longitudes
variable {basura : OsadaFile} {memoria : ℕ → UInt8} {path : Cadena} {s : Pokedex}

@[simp] theorem length_elementoDe (archivo : OsadaFile) :
    (elementoDe memoria archivo).nombre.length = 17 := by
  have hle : (getStringFromNombreOsada archivo.fname).length ≤ 17 := by
    have hwhile := (List.takeWhile_sublist (l := archivo.fname.take 17) (· ≠ 0)).length_le
    rw [List.length_take] at hwhile
    rw [getStringFromNombreOsada]
    omega
  simp only [elementoDe, strcpyFname, sinEscribir, List.length_take, List.length_append,
    List.length_cons, List.length_drop, List.length_map, List.length_range]
  omega

theorem length_osadaEstructuraDirectorio {elementos : List DirectoryElement}
    (h : (osadaEstructuraDirectorio basura memoria path s).1 = some elementos) :
    elementos.length ≤ 2048 ∧ ∀ e ∈ elementos, e.nombre.length = 17 := by
  have hnada : ∀ {elementos : List DirectoryElement}, some [] = some elementos →
      elementos.length ≤ 2048 ∧ ∀ e ∈ elementos, e.nombre.length = 17 := by
    intro elementos h
    obtain rfl := Option.some.inj h
    simp
  unfold osadaEstructuraDirectorio at h
  rcases hl : leerPath s.disco basura path with _ | ⟨_ | directorio, resultado, posicion⟩
  · rw [leer_bind_none hl] at h
    cases h
  · rw [leer_bind_some hl] at h
    cases resultado <;> exact hnada h
  · rw [leer_bind_some hl] at h
    cases resultado with
    | archivoExiste =>
      change ((if directorio.state = .directory then _ else _ : Op Pokedex _) s).1 = _ at h
      split at h
      · obtain rfl := Option.some.inj h
        constructor
        · rw [List.length_map, listarDirectorio]
          exact (List.length_filter_le ..).trans_eq (by simp)
        · intro e he
          obtain ⟨archivo, _, rfl⟩ := List.mem_map.mp he
          exact length_elementoDe archivo
      · exact hnada h
    | archivoNoPathValido => exact hnada h
    | pathInvalido => exact hnada h

end Longitudes

section LeerArchivo
variable {basura : OsadaFile} {memoria : ℕ → UInt8} {path : Cadena} {s : Pokedex} {l : Lectura}
  {descriptor : OsadaFile} {bytesALeer posicionInicial : ℤ}

/-- A read of a file gives what was read, in as many bytes as were asked for. -/
theorem osadaLeerArchivo_archivo (hl : leerPath s.disco basura path = some l)
    (hr : l.resultado = .archivoExiste) (hd : l.descriptor = some descriptor)
    (hstate : descriptor.state ≠ .directory) (hbytes : 0 ≤ i32 bytesALeer) :
    (osadaLeerArchivo basura memoria path bytesALeer posicionInicial s).1 =
      (obtenerArchivoInterna s.disco descriptor (i32 bytesALeer) (i32 posicionInicial)
        ⟨[], []⟩).1.map fun leido => some ((leido.1 ++
          sinEscribir memoria (i32 bytesALeer).toNat).take (i32 bytesALeer).toNat) := by
  rw [osadaLeerArchivo, leer_bind_some hl, hr, hd]
  change ((if descriptor.state = .directory ∨ i32 bytesALeer < 0 then _ else _ : Op Pokedex _) s).1
    = _
  rw [if_neg (not_or.mpr ⟨hstate, Int.not_lt.mpr hbytes⟩)]
  rcases (obtenerArchivoInterna s.disco descriptor (i32 bytesALeer) (i32 posicionInicial)
    ⟨[], []⟩).1 with _ | leido <;> rfl

theorem osadaLeerArchivo_otro (hl : leerPath s.disco basura path = some l)
    (hno : ∀ e, l.resultado = .archivoExiste → l.descriptor = some e → e.state = .directory) :
    (osadaLeerArchivo basura memoria path bytesALeer posicionInicial s).1 = some none := by
  rw [osadaLeerArchivo, leer_bind_some hl]
  obtain ⟨_ | e, resultado, posicion⟩ := l
  · cases resultado <;> rfl
  · cases resultado with
    | archivoExiste =>
      change ((if e.state = .directory ∨ i32 bytesALeer < 0 then _ else _ : Op Pokedex _) s).1 = _
      rw [if_pos (.inl (hno e rfl rfl))]
      rfl
    | archivoNoPathValido => rfl
    | pathInvalido => rfl

/-- A read that returns gives something just if it is of a file. -/
theorem osadaLeerArchivo_isSome {archivo : Option (List UInt8)} (hbytes : 0 ≤ i32 bytesALeer)
    (h : (osadaLeerArchivo basura memoria path bytesALeer posicionInicial s).1 = some archivo) :
    archivo.isSome = true ↔ ∃ l descriptor, leerPath s.disco basura path = some l ∧
      l.resultado = .archivoExiste ∧ l.descriptor = some descriptor ∧
        descriptor.state ≠ .directory := by
  constructor
  · intro hsome
    rcases hl : leerPath s.disco basura path with _ | l
    · rw [osadaLeerArchivo, leer_bind_none hl] at h
      cases h
    · by_contra hno
      have hdir : ∀ e, l.resultado = .archivoExiste → l.descriptor = some e →
          e.state = .directory := by
        intro e hr hd
        by_contra hstate
        exact hno ⟨l, e, rfl, hr, hd, hstate⟩
      rw [osadaLeerArchivo_otro hl hdir] at h
      obtain rfl := Option.some.inj h
      cases hsome
  · rintro ⟨l, descriptor, hl, hr, hd, hstate⟩
    rw [osadaLeerArchivo_archivo hl hr hd hstate hbytes] at h
    obtain ⟨leido, _, rfl⟩ := Option.map_eq_some_iff.mp h
    rfl

end LeerArchivo

end TpSo.Osada
