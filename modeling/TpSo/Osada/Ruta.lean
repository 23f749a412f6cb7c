import TpSo.Osada.Format

/-!
# Paths

`leerPath` goes down from the root, one component at a time. The root is not an entry of the
table: it has the position `0xFFFF` and a descriptor made on the spot, most of whose fields
are whatever the allocator left there (`basura`). A step of `string_split` that duplicates a
null token is the end of the process: `none`.
-/

namespace TpSo.Osada

/-- A string of C: the bytes before its `'\x00'`. -/
abbrev Cadena := { bytes : List UInt8 // (0 : UInt8) ∉ bytes }

def barra : UInt8 := 47

def rutaA : Cadena := ⟨[barra, 97], by decide⟩

def rutaB : Cadena := ⟨[barra, 98], by decide⟩

def rutaAB : Cadena := ⟨[barra, 97, barra, 98], by decide⟩

def posicionBarra : ℕ := 65535

/-- One round of `strtok_r` with separator `/` for every token; it is asked for one more token
as long as there are bytes left, be they separators only. -/
def partirTexto : ℕ → List UInt8 → Option (List (List UInt8))
  | 0, _ => some []
  | n + 1, next =>
    if next = [] then some []
    else
      let str := next.dropWhile (· = barra)
      if str = [] then none
      else (partirTexto n ((str.dropWhile (· ≠ barra)).drop 1)).map
        (str.takeWhile (· ≠ barra) :: ·)

/-- `string_split(texto, "/")`. -/
def stringSplit (texto : Cadena) : Option (List (List UInt8)) :=
  partirTexto texto.1.length texto.1

/-- The name that the 17 bytes of the field stand for. -/
def getStringFromNombreOsada (nombre : List UInt8) : List UInt8 :=
  (nombre.take 17).takeWhile (· ≠ 0)

def obtenerEstructuraDeArchivo (d : Disco) (posicionPadre : ℕ) (nombre : List UInt8) :
    Option ℕ :=
  (List.range 2048).find? fun i =>
    getStringFromNombreOsada (d.archivos i).fname = nombre ∧
      (d.archivos i).state ≠ .deleted ∧ (d.archivos i).parentDirectory = posicionPadre

/-- What `leerPath` leaves in its result and in its two output parameters. -/
structure Lectura where
  descriptor : Option OsadaFile
  resultado : Resultado
  posicion : ℕ
  deriving DecidableEq

/-- The loop of `leerPath`, with the entry and the position reached so far. -/
def leerPartes (d : Disco) : Option OsadaFile → ℕ → List (List UInt8) → Lectura
  | directory, posicion, [] =>
    ⟨directory, if directory = none then .archivoNoPathValido else .archivoExiste, posicion⟩
  | directory, posicion, parte :: partes =>
    let hallado := obtenerEstructuraDeArchivo d posicion parte
    let siguiente := hallado.map d.archivos
    -- below a missing entry or a file one more component is looked up, and then given up
    if directory.all (·.state = .regular) then ⟨siguiente, .pathInvalido, hallado.getD posicion⟩
    else leerPartes d siguiente (hallado.getD posicion) partes

/-- The descriptor of the root: `state`, `fname` and `parent_directory` are set. -/
def descriptorRaiz (basura : OsadaFile) : OsadaFile :=
  { basura with
    state := .directory
    fname := barra :: 0 :: basura.fname.drop 2
    parentDirectory := posicionBarra }

def leerPath (d : Disco) (basura : OsadaFile) (path : Cadena) : Option Lectura :=
  if path.1 = [barra] then some ⟨some (descriptorRaiz basura), .archivoExiste, posicionBarra⟩
  else (stringSplit path).map (leerPartes d (some (descriptorRaiz basura)) posicionBarra)

/-- The source can take the path apart. -/
def Cadena.Legible (path : Cadena) : Prop :=
  path.1 = [barra] ∨ (stringSplit path).isSome = true

/-- The last component; `none` where the source reads before the array, or does not come
back from `string_split`. -/
def obtenerNombreDeArchivoDePath (path : Cadena) : Option (List UInt8) :=
  if path.1 = [barra] then some path.1
  else (stringSplit path).bind List.getLast?

/-- `e` is at position `posicion`: the root or a live entry of the table. -/
def EnPosicion (d : Disco) (basura : OsadaFile) (posicion : ℕ) (e : OsadaFile) : Prop :=
  posicion = posicionBarra ∧ e = descriptorRaiz basura ∨
  posicion < 2048 ∧ e = d.archivos posicion ∧ e.state ≠ .deleted

theorem obtenerEstructuraDeArchivo_some {d : Disco} {padre : ℕ} {nombre : List UInt8} {i : ℕ}
    (h : obtenerEstructuraDeArchivo d padre nombre = some i) :
    i < 2048 ∧ getStringFromNombreOsada (d.archivos i).fname = nombre ∧
      (d.archivos i).state ≠ .deleted ∧ (d.archivos i).parentDirectory = padre := by
  have hp := List.find?_some h
  have hm := List.mem_of_find?_eq_some h
  rw [List.mem_range] at hm
  exact ⟨hm, by simpa using hp⟩

theorem obtenerEstructuraDeArchivo_none {d : Disco} {padre : ℕ} {nombre : List UInt8} :
    obtenerEstructuraDeArchivo d padre nombre = none ↔
      ∀ i < 2048, getStringFromNombreOsada (d.archivos i).fname = nombre →
        (d.archivos i).state ≠ .deleted → (d.archivos i).parentDirectory ≠ padre := by
  simp [obtenerEstructuraDeArchivo]

theorem leerPath_isSome (d : Disco) (basura : OsadaFile) (path : Cadena) :
    (leerPath d basura path).isSome = true ↔ path.Legible := by
  unfold leerPath Cadena.Legible
  split <;> simp_all

section Leer
variable {d : Disco} {basura : OsadaFile}

theorem leerPartes_existe {partes : List (List UInt8)} {e : OsadaFile} {posicion : ℕ}
    {l : Lectura} (he : EnPosicion d basura posicion e)
    (hl : leerPartes d (some e) posicion partes = l) (hr : l.resultado = .archivoExiste) :
    ∃ e', l.descriptor = some e' ∧ EnPosicion d basura l.posicion e' ∧
      (partes ≠ [] → l.posicion < 2048) := by
  induction partes generalizing e posicion with
  | nil =>
    subst hl
    exact ⟨e, rfl, he, fun hne => absurd rfl hne⟩
  | cons parte partes ih =>
    rw [leerPartes] at hl
    split at hl
    · subst hl
      simp at hr
    · rcases hb : obtenerEstructuraDeArchivo d posicion parte with _ | i
      · rw [hb] at hl
        subst hl
        cases partes <;> simp [leerPartes] at hr
      · obtain ⟨hi, _, hvivo, _⟩ := obtenerEstructuraDeArchivo_some hb
        have hpos : EnPosicion d basura i (d.archivos i) := .inr ⟨hi, rfl, hvivo⟩
        rw [hb] at hl
        obtain ⟨e', hd, hp, hlt⟩ := ih hpos hl
        refine ⟨e', hd, hp, fun _ => ?_⟩
        rcases eq_or_ne partes [] with rfl | hne
        · subst hl
          exact hi
        · exact hlt hne

/-- A path that is missing its last component only: the directory is there, and has no entry
of that name. -/
theorem leerPartes_noPathValido {partes : List (List UInt8)} {e : OsadaFile} {posicion : ℕ}
    {l : Lectura} (he : EnPosicion d basura posicion e)
    (hl : leerPartes d (some e) posicion partes = l)
    (hr : l.resultado = .archivoNoPathValido) :
    ∃ e' nombre, EnPosicion d basura l.posicion e' ∧ e'.state = .directory ∧
      partes.getLast? = some nombre ∧
      obtenerEstructuraDeArchivo d l.posicion nombre = none := by
  induction partes generalizing e posicion with
  | nil =>
    subst hl
    simp [leerPartes] at hr
  | cons parte partes ih =>
    rw [leerPartes] at hl
    split at hl
    · subst hl
      simp at hr
    · next hdir =>
      rcases hb : obtenerEstructuraDeArchivo d posicion parte with _ | i
      · rw [hb] at hl
        rcases partes with _ | ⟨p, ps⟩
        · subst hl
          have hstate : e.state = .directory := by
            rcases he with ⟨_, rfl⟩ | ⟨_, _, hvivo⟩
            · rfl
            · cases hs : e.state with
              | deleted => exact absurd hs hvivo
              | regular => simp [hs] at hdir
              | directory => rfl
          exact ⟨e, parte, he, hstate, rfl, hb⟩
        · subst hl
          simp [leerPartes] at hr
      · obtain ⟨hi, _, hvivo, _⟩ := obtenerEstructuraDeArchivo_some hb
        have hpos : EnPosicion d basura i (d.archivos i) := .inr ⟨hi, rfl, hvivo⟩
        rw [hb] at hl
        obtain ⟨e', nombre, hp, hs, hlast, hnone⟩ := ih hpos hl
        refine ⟨e', nombre, hp, hs, ?_, hnone⟩
        rw [List.getLast?_cons, hlast]
        rfl

theorem partirTexto_eq_nil {n : ℕ} {texto : List UInt8} (hn : texto.length ≤ n)
    (h : partirTexto n texto = some []) : texto = [] := by
  cases n with
  | zero => exact List.eq_nil_of_length_eq_zero (Nat.le_zero.mp hn)
  | succ n =>
    by_contra hne
    simp only [partirTexto, if_neg hne] at h
    split at h
    · exact absurd h (by simp)
    · simp at h

/-- The tokens of a split have no separator and no zero in them. -/
theorem partirTexto_mem {n : ℕ} {texto : List UInt8} {partes : List (List UInt8)}
    (h : partirTexto n texto = some partes) {parte : List UInt8} (hp : parte ∈ partes) :
    parte ≠ [] ∧ (∀ b ∈ parte, b ∈ texto) := by
  induction n generalizing texto partes with
  | zero =>
    simp only [partirTexto, Option.some.injEq] at h
    subst h
    simp at hp
  | succ n ih =>
    rw [partirTexto] at h
    split at h
    · simp only [Option.some.injEq] at h
      subst h
      simp at hp
    · simp only at h
      split at h
      · simp at h
      · next hne =>
        obtain ⟨ps, hps, rfl⟩ := Option.map_eq_some_iff.mp h
        have hsub : ∀ b ∈ texto.dropWhile (· = barra), b ∈ texto := fun b hb =>
          (List.dropWhile_sublist _).mem hb
        rcases List.mem_cons.mp hp with rfl | hmem
        · refine ⟨?_, fun b hb => hsub b ((List.takeWhile_sublist _).mem hb)⟩
          rcases hcab : texto.dropWhile (· = barra) with _ | ⟨b, bs⟩
          · exact absurd hcab hne
          · have hb := List.head?_dropWhile_not (· = barra) texto
            rw [hcab] at hb
            simp at hb
            simp [hb]
        · obtain ⟨hne', hall⟩ := ih hps hmem
          exact ⟨hne', fun b hb => hsub b ((List.dropWhile_sublist _).mem
            (List.mem_of_mem_drop (hall b hb)))⟩

/-- The paths of the root. -/
def EsRaiz (path : Cadena) : Prop := path.1 = [barra] ∨ path.1 = []

instance (path : Cadena) : Decidable (EsRaiz path) := inferInstanceAs (Decidable (_ ∨ _))

theorem leerPath_existe {path : Cadena} {l : Lectura} (hl : leerPath d basura path = some l)
    (hr : l.resultado = .archivoExiste) :
    ∃ e, l.descriptor = some e ∧ EnPosicion d basura l.posicion e ∧
      (EsRaiz path ↔ l.posicion = posicionBarra) := by
  unfold leerPath at hl
  split at hl
  · next hbarra =>
    simp only [Option.some.injEq] at hl
    subst hl
    exact ⟨_, rfl, .inl ⟨rfl, rfl⟩, by simp [EsRaiz, hbarra]⟩
  · next hbarra =>
    obtain ⟨partes, hpartes, hl⟩ := Option.map_eq_some_iff.mp hl
    obtain ⟨e, hd, hp, hlt⟩ := leerPartes_existe (.inl ⟨rfl, rfl⟩) hl hr
    refine ⟨e, hd, hp, ?_⟩
    constructor
    · rintro (h | h)
      · exact absurd h hbarra
      · simp [stringSplit, h, partirTexto] at hpartes
        subst hpartes
        subst hl
        rfl
    · intro hpos
      rcases eq_or_ne partes [] with rfl | hne
      · exact .inr (partirTexto_eq_nil (le_refl _) hpartes)
      · exact absurd (hpos ▸ hlt hne) (by decide)

def lecturaRaiz (basura : OsadaFile) : Lectura :=
  ⟨some (descriptorRaiz basura), .archivoExiste, posicionBarra⟩

theorem leerPath_raiz {path : Cadena} (h : EsRaiz path) :
    leerPath d basura path = some (lecturaRaiz basura) := by
  unfold leerPath
  split
  · rfl
  · next hbarra =>
    have hvacio := h.resolve_left hbarra
    simp [stringSplit, hvacio, partirTexto, leerPartes, lecturaRaiz]

/-- What is found at any other path does not depend on the descriptor of the root. -/
theorem leerPath_basura {path : Cadena} (hraiz : ¬ EsRaiz path) (basura' : OsadaFile) :
    leerPath d basura path = leerPath d basura' path := by
  have hbarra : path.1 ≠ [barra] := fun h => hraiz (.inl h)
  unfold leerPath
  rw [if_neg hbarra, if_neg hbarra]
  rcases hpartes : stringSplit path with _ | partes
  · rfl
  · cases partes with
    | nil => exact absurd (.inr (partirTexto_eq_nil (le_refl _) hpartes)) hraiz
    | cons parte partes => rfl

/-- What is found at any other path is an entry of the table. -/
theorem leerPath_entrada {path : Cadena} {l : Lectura} (hl : leerPath d basura path = some l)
    (hr : l.resultado = .archivoExiste) (hraiz : ¬ EsRaiz path) :
    l.posicion < 2048 ∧ l.descriptor = some (d.archivos l.posicion) ∧
      (d.archivos l.posicion).state ≠ .deleted := by
  obtain ⟨e, hd, hpos, hiff⟩ := leerPath_existe hl hr
  rcases hpos with ⟨hbarra, _⟩ | ⟨hlt, rfl, hvivo⟩
  · exact absurd (hiff.mpr hbarra) hraiz
  · exact ⟨hlt, hd, hvivo⟩

theorem leerPath_noPathValido {path : Cadena} {l : Lectura}
    (hl : leerPath d basura path = some l) (hr : l.resultado = .archivoNoPathValido) :
    ∃ e nombre, EnPosicion d basura l.posicion e ∧ e.state = .directory ∧
      obtenerNombreDeArchivoDePath path = some nombre ∧ nombre ≠ [] ∧ (0 : UInt8) ∉ nombre ∧
      obtenerEstructuraDeArchivo d l.posicion nombre = none := by
  unfold leerPath at hl
  split at hl
  · simp only [Option.some.injEq] at hl
    subst hl
    simp at hr
  · next hbarra =>
    obtain ⟨partes, hpartes, hl⟩ := Option.map_eq_some_iff.mp hl
    obtain ⟨e, nombre, hp, hs, hlast, hnone⟩ :=
      leerPartes_noPathValido (.inl ⟨rfl, rfl⟩) hl hr
    obtain ⟨hne, hall⟩ := partirTexto_mem hpartes (List.mem_of_getLast? hlast)
    refine ⟨e, nombre, hp, hs, ?_, hne, fun h0 => path.2 (hall _ h0), hnone⟩
    rw [obtenerNombreDeArchivoDePath, if_neg hbarra, hpartes, Option.bind_some, hlast]

end Leer

end TpSo.Osada
