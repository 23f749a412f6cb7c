import TpSo.Osada.Efectos
import TpSo.Osada.Formateo

/-!
# What the creations return

The number that a creation returns is a position of the table, an error of one of two
enumerations or the `-1` of the search for a slot. `PATH_INVALIDO` is a legal position, and the
`-1` does not survive the conversion to the type of the positions.
-/

namespace TpSo.Osada

open Function (update)

/-! ## A table with nothing to hand out -/

/-- Every slot is live or granted to some thread. -/
def SinOtorgables (s : Pokedex) : Prop := ∀ i < 2048, ¬ Otorgable s i

/-- The search comes back with `-1` and leaves the globals as they are. -/
def NoOtorga (s : Pokedex) : Prop :=
  Op.Returns obtenerEstructuraDeArchivoLibre s fun r s' => r = -1 ∧
    s'.ultimaEntradaLibreDeTabla = s.ultimaEntradaLibreDeTabla ∧
    s'.entradasLibresOtorgadas = s.entradasLibresOtorgadas ∧
    s'.obtenerEntradaArchivoLibreMutex = false

/-- The write of a descriptor comes back with `-1`, and nothing has been written. -/
def NoEscribe (s : Pokedex) (e : OsadaFile) : Prop :=
  Op.Returns (escribirDescriptor e) s fun r s' => r = -1 ∧ s'.disco = s.disco ∧
    s'.escrituras = s.escrituras

/-- On leaving the loop the mutex stays locked, and the server dies for a lock that is not there. -/
theorem sinOtorgables_falla {s : Pokedex} (h : SinOtorgables s) (e : OsadaFile) :
    ¬ NoOtorga s ∧ ¬ NoEscribe s e := by
  cases hmutex : s.obtenerEntradaArchivoLibreMutex with
  | false =>
    constructor
    · rintro ⟨r, s', hrun, _, _, _, habierto⟩
      rw [obtenerEstructuraDeArchivoLibre_agota hmutex h] at hrun
      obtain ⟨_, rfl⟩ := Op.some_inj hrun
      exact absurd habierto (by simp)
    · rintro ⟨r, s', hrun, _⟩
      rw [escribirDescriptor_agota hmutex h] at hrun
      exact absurd (congrArg Prod.fst hrun) (by simp)
  | true =>
    constructor
    · rintro ⟨r, s', hrun, _⟩
      rw [obtenerEstructuraDeArchivoLibre_espera hmutex] at hrun
      exact absurd (congrArg Prod.fst hrun) (by simp)
    · rintro ⟨r, s', hrun, _⟩
      rw [escribirDescriptor_espera hmutex] at hrun
      exact absurd (congrArg Prod.fst hrun) (by simp)

/-- The empty disk with every slot granted: as many creations are on their way as it has slots. -/
def todoOtorgado : Pokedex :=
  { Pokedex.inicial discoChico with entradasLibresOtorgadas := fun _ => true }

theorem sinOtorgables_todoOtorgado : SinOtorgables todoOtorgado := fun _ _ h =>
  absurd h.2 (by simp [todoOtorgado])

theorem sinOtorgables_falla_todoOtorgado :
    ¬ NoOtorga todoOtorgado ∧ ¬ NoEscribe todoOtorgado .borrado :=
  sinOtorgables_falla sinOtorgables_todoOtorgado .borrado

/-- The search does not leave the mutex open, and the write is not refused. -/
theorem tabla_agotada : ¬ ∀ s : Pokedex, SinOtorgables s → NoOtorga s ∧ ∀ e, NoEscribe s e := by
  intro hall
  obtain ⟨r, s', hrun, _, _, _, habierto⟩ := (hall todoOtorgado sinOtorgables_todoOtorgado).1
  rw [obtenerEstructuraDeArchivoLibre_agota rfl sinOtorgables_todoOtorgado] at hrun
  obtain ⟨_, rfl⟩ := Op.some_inj hrun
  exact absurd habierto (by simp)

/-! ## Creations -/

/-- A slot of the table that was deleted has an entry, and no other slot has changed. -/
def EntradaNueva (s s' : Pokedex) (i : ℕ) : Prop :=
  i < 2048 ∧ (s.disco.archivos i).state = .deleted ∧ (s'.disco.archivos i).state ≠ .deleted ∧
    ∀ j ≠ i, s'.disco.archivos j = s.disco.archivos j

/-- The number returned tells a creation, and the slot, from a refusal. -/
def ResultadoFiel (s s' : Pokedex) (r : ℤ) : Prop :=
  (0 ≤ r ∧ EntradaNueva s s' r.toNat) ∨ (r < 0 ∧ s'.disco.archivos = s.disco.archivos)

theorem not_resultadoFiel_pathInvalido (s : Pokedex) : ¬ ResultadoFiel s s 2 := by
  rintro (⟨_, _, hdel, hvivo, _⟩ | ⟨hneg, _⟩)
  · exact hvivo hdel
  · exact absurd hneg (by decide)

theorem entradaNueva_conEntrada {s : Pokedex} {i : ℕ} {e : OsadaFile} (hi : i < 2048)
    (hdel : (s.disco.archivos i).state = .deleted) (he : e.state ≠ .deleted) :
    EntradaNueva s (s.conEntrada i e) i := by
  have harchivos : (s.conEntrada i e).disco.archivos = update s.disco.archivos i e :=
    aplicar_descriptor_archivos s.disco hi e
  refine ⟨hi, hdel, ?_, fun j hj => ?_⟩
  · rw [harchivos, Function.update_self]
    exact he
  · rw [harchivos, Function.update_of_ne hj]

/-- The write of a new descriptor returns its slot, or a negative number. -/
theorem resultadoFiel_escribirDescriptor {s s' : Pokedex} {e : OsadaFile} {r : ℤ}
    (he : e.state ≠ .deleted) (hrun : escribirDescriptor e s = (some r, s')) :
    ResultadoFiel s s' r := by
  cases hmutex : s.obtenerEntradaArchivoLibreMutex with
  | false =>
    by_cases hlibre : ∃ i < 2048, Otorgable s i
    · obtain ⟨i, hi, hot, hrun'⟩ := escribirDescriptor_otorga hmutex hlibre e
      obtain ⟨rfl, rfl⟩ := Op.some_inj (hrun'.symm.trans hrun)
      exact .inl ⟨Int.natCast_nonneg i, entradaNueva_conEntrada hi hot.1 he⟩
    · have hno : ∀ i < 2048, ¬ Otorgable s i := fun i hi hot => hlibre ⟨i, hi, hot⟩
      rw [escribirDescriptor_agota hmutex hno e] at hrun
      exact absurd (congrArg Prod.fst hrun) (by simp)
  | true =>
    rw [escribirDescriptor_espera hmutex] at hrun
    exact absurd (congrArg Prod.fst hrun) (by simp)

section Crear
variable {s : Pokedex} {hora : ℕ} {basura : OsadaFile} {path : Cadena} {l : Lectura}
  {largoMaximo : Option ℕ} {estructura : OsadaFileState} {nombre : List UInt8}

/-- What the creation returns is to be relied on exactly when the path and the name are accepted,
or could not be taken apart. -/
theorem crearEntrada_fiel_iff (hvivo : estructura = .regular ∨ estructura = .directory) :
    (∀ r s', crearEntrada hora basura path largoMaximo estructura s = (some r, s') →
        ResultadoFiel s s' r) ↔
      leerPath s.disco basura path = none ∨
        ∃ l nombre, leerPath s.disco basura path = some l ∧
          l.resultado = .archivoNoPathValido ∧
          obtenerNombreDeArchivoDePath path = some nombre ∧
          largoMaximo.all (nombre.length ≤ ·) = true := by
  cases hl : leerPath s.disco basura path with
  | none =>
    refine iff_of_true (fun r s' hrun => ?_) (.inl rfl)
    rw [crearEntrada, leer_bind_none hl] at hrun
    exact absurd (congrArg Prod.fst hrun) (by simp)
  | some l =>
    by_cases hsi : l.resultado = .archivoNoPathValido ∧ ∃ nombre,
        obtenerNombreDeArchivoDePath path = some nombre ∧
          largoMaximo.all (nombre.length ≤ ·) = true
    · obtain ⟨hr, nombre, hn, hlargo⟩ := hsi
      refine iff_of_true (fun r s' hrun => ?_) (.inr ⟨l, nombre, rfl, hr, hn, hlargo⟩)
      rw [crearEntrada_acepta hvivo hl hr hn hlargo] at hrun
      refine resultadoFiel_escribirDescriptor ?_ hrun
      rcases hvivo with rfl | rfl <;> simp [descriptorNuevo]
    · refine iff_of_false (fun hall => ?_) ?_
      · exact not_resultadoFiel_pathInvalido s (hall 2 s (crearEntrada_rechaza hl hsi))
      · rintro (hnone | ⟨l', nombre, hl', hr, hn, hlargo⟩)
        · simp at hnone
        · obtain rfl := Option.some.inj hl'
          exact hsi ⟨hr, nombre, hn, hlargo⟩

end Crear

theorem obtenerNombre_eq_none {d : Disco} {basura : OsadaFile} {path : Cadena}
    (hl : leerPath d basura path = none) : obtenerNombreDeArchivoDePath path = none := by
  unfold leerPath at hl
  unfold obtenerNombreDeArchivoDePath
  split at hl
  · simp at hl
  · next hbarra => rw [if_neg hbarra, Option.map_eq_none_iff.mp hl, Option.bind_none]

theorem resultadoFiel_tablaLlena (s : Pokedex) : ResultadoFiel s s noHayDescriptores :=
  .inr ⟨by decide, rfl⟩

/-- The results of `osada_crearArchivo` and `osada_crearDirectorio` are to be relied on exactly
where `PATH_INVALIDO` is not one of them. -/
theorem crear_resultadoFiel_iff (s : Pokedex) (hora : ℕ) (basura : OsadaFile) (path : Cadena) :
    ((∀ r s', osadaCrearArchivo hora basura path s = (some r, s') → ResultadoFiel s s' r) ↔
      2048 ≤ obtenerCantidadDeArchivos s.disco ∨ leerPath s.disco basura path = none ∨
        ∃ l nombre, leerPath s.disco basura path = some l ∧
          l.resultado = .archivoNoPathValido ∧
          obtenerNombreDeArchivoDePath path = some nombre ∧ nombre.length ≤ 17) ∧
    ((∀ r s', osadaCrearDirectorio hora basura path s = (some r, s') → ResultadoFiel s s' r) ↔
      2048 ≤ obtenerCantidadDeArchivos s.disco ∨ obtenerNombreDeArchivoDePath path = none ∨
        ∃ l, leerPath s.disco basura path = some l ∧ l.resultado = .archivoNoPathValido) := by
  rw [osadaCrearArchivo, osadaCrearDirectorio]
  simp only [Op.get_bind]
  by_cases hllena : 2048 ≤ obtenerCantidadDeArchivos s.disco
  · rw [if_pos hllena, if_pos hllena]
    have hfiel : ∀ r s', (pure noHayDescriptores : Op Pokedex ℤ) s = (some r, s') →
        ResultadoFiel s s' r := by
      intro r s' hrun
      obtain ⟨rfl, rfl⟩ := Op.some_inj hrun
      exact resultadoFiel_tablaLlena s
    exact ⟨iff_of_true hfiel (.inl hllena), iff_of_true hfiel (.inl hllena)⟩
  · rw [if_neg hllena, if_neg hllena]
    constructor
    · rw [crearEntrada_fiel_iff (.inl rfl), or_iff_right hllena]
      simp only [Option.all_some, decide_eq_true_eq]
    · rw [or_iff_right hllena]
      cases hn : obtenerNombreDeArchivoDePath path with
      | none =>
        refine iff_of_true (fun r s' hrun => ?_) (.inl rfl)
        obtain ⟨posicion, s₁, _, hfin⟩ := Op.of_bind (congrArg Prod.fst hrun)
        exact absurd hfin (by simp)
      | some nombre =>
        simp only [Option.isSome_some, if_true, Op.bind_pure, reduceCtorEq, false_or]
        rw [crearEntrada_fiel_iff (.inr rfl), hn]
        constructor
        · rintro (hl | ⟨l, _, hl, hr, _⟩)
          · exact absurd ((obtenerNombre_eq_none hl).symm.trans hn) (by simp)
          · exact ⟨l, hl, hr⟩
        · rintro ⟨l, hl, hr⟩
          exact .inr ⟨l, nombre, hl, hr, rfl, rfl⟩

theorem obtenerCantidadDeArchivos_chico : obtenerCantidadDeArchivos discoChico = 0 := by
  rw [obtenerCantidadDeArchivos, List.countP_eq_zero]
  intro i _
  simp [discoChico, discoFormateado, OsadaFile.borrado]

def rutaRaiz : Cadena := ⟨[barra], by decide⟩

/-- The creation of the root is refused with the number of the third slot. -/
theorem crear_la_raiz : ¬ ∀ (s : Pokedex) (hora : ℕ) (basura : OsadaFile) (path : Cadena) (r : ℤ)
    (s' : Pokedex), osadaCrearArchivo hora basura path s = (some r, s') →
      ResultadoFiel s s' r := by
  intro hall
  have hno : ¬ 2048 ≤ obtenerCantidadDeArchivos (Pokedex.inicial discoChico).disco := by
    have hcero : obtenerCantidadDeArchivos (Pokedex.inicial discoChico).disco = 0 :=
      obtenerCantidadDeArchivos_chico
    omega
  have hrun : osadaCrearArchivo 0 .borrado rutaRaiz (.inicial discoChico) =
      (some 2, .inicial discoChico) := by
    rw [osadaCrearArchivo, Op.get_bind, if_neg hno]
    exact crearEntrada_rechaza (leerPath_raiz (.inl rfl)) fun hc => absurd hc.1 (by decide)
  exact not_resultadoFiel_pathInvalido _ (hall _ 0 .borrado rutaRaiz 2 _ hrun)

end TpSo.Osada
