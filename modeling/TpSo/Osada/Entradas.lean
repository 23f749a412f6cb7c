import TpSo.Osada.Corridas

/-!
# The slots of the table, one operation after another

The search for a slot goes round the table once, from a cursor that it leaves past the slot it
hands out. Between operations that run one after another nothing is granted and nobody holds the
mutex, so the search finds a deleted slot if there is one, and a creation has no room only in a
table that is full.
-/

namespace TpSo.Osada

/-- The slot handed out is the first deleted one from the cursor on, it is the only one granted, and
the next search may start. -/
structure OtorgaPrimera (s : Pokedex) (r : ℤ) (s' : Pokedex) : Prop where
  primera : ∃ k < 2048, r = vuelta s.cursor k ∧
    (s.disco.archivos (vuelta s.cursor k)).state = .deleted ∧
    ∀ j < k, (s.disco.archivos (vuelta s.cursor j)).state ≠ .deleted
  otorgada : ∀ i : ℕ, s'.entradasLibresOtorgadas i = true ↔ (i : ℤ) = r
  cursor : s'.ultimaEntradaLibreDeTabla ≤ 2048
  mutex : s'.obtenerEntradaArchivoLibreMutex = false
  disco : s'.disco = s.disco

theorem otorgaPrimera_of_sinPendientes {s : Pokedex} (hs : SinPendientes s)
    (hlibre : ∃ i < 2048, (s.disco.archivos i).state = .deleted) :
    Op.Returns obtenerEstructuraDeArchivoLibre s (OtorgaPrimera s) := by
  obtain ⟨i, hi, hdel⟩ := hlibre
  obtain ⟨k, hk, hot, hantes, hrun⟩ :=
    obtenerEstructuraDeArchivoLibre_primera hs.2 ⟨i, hi, hdel, hs.1 i⟩
  have hlt : vuelta s.cursor k < 2048 := Nat.mod_lt _ (by decide)
  refine .intro hrun
    ⟨⟨k, hk, rfl, hot.1, fun j hj hd => hantes j hj ⟨hd, hs.1 _⟩⟩, fun j => ?_, hlt, hs.2, rfl⟩
  simp only [Pokedex.otorgar]
  by_cases hj : j = vuelta s.cursor k
  · simp [hj]
  · rw [Function.update_of_ne hj, hs.1 j]
    simp [hj]

/-! ## Sequences of creations and deletions -/

def Operacion.EsAlta : Operacion → Prop
  | crearArchivo _ _ _ | crearDirectorio _ _ _ => True
  | editar _ _ _ _ _ | truncar _ _ _ | renombrar _ _ _ | eliminar _ _ _ | utimens _ _ _ => False

def Operacion.EsAltaOBaja : Operacion → Prop
  | crearArchivo _ _ _ | crearDirectorio _ _ _ | eliminar _ _ _ => True
  | editar _ _ _ _ _ | truncar _ _ _ | renombrar _ _ _ | utimens _ _ _ => False

/-- One operation after another, each until it comes back or will never do so. -/
def PasoDeTabla (s : Pokedex) (op : Operacion) (s' : Pokedex) : Prop :=
  op.EsAltaOBaja ∧ (op.ejecutar s).2 = s'

/-- The result of a creation that was given no slot: the count of the live entries is at its limit,
or the search found none. -/
def SinLugar (r : Option ℤ) : Prop := r = some noHayDescriptores ∨ r = some (-1)

/-- What the search needs of the globals. -/
structure EntreOperaciones (s : Pokedex) : Prop where
  sinPendientes : SinPendientes s
  cursor : s.ultimaEntradaLibreDeTabla ≤ 2048

/-- The globals of the search are the same. -/
def MismaBusqueda (s s' : Pokedex) : Prop :=
  s'.entradasLibresOtorgadas = s.entradasLibresOtorgadas ∧
    s'.obtenerEntradaArchivoLibreMutex = s.obtenerEntradaArchivoLibreMutex ∧
    s'.ultimaEntradaLibreDeTabla = s.ultimaEntradaLibreDeTabla

theorem MismaBusqueda.trans {s s₁ s' : Pokedex} (h : MismaBusqueda s s₁) (h' : MismaBusqueda s₁ s') :
    MismaBusqueda s s' :=
  ⟨h'.1.trans h.1, h'.2.1.trans h.2.1, h'.2.2.trans h.2.2⟩

theorem mismaBusqueda_escribir (s : Pokedex) (w : Escritura) : MismaBusqueda s (s.escribir w) :=
  ⟨rfl, rfl, rfl⟩

theorem mismaBusqueda : DeMapa MismaBusqueda where
  refl _ := ⟨rfl, rfl, rfl⟩
  trans _ _ _ h h' := h.trans h'
  escribir s w _ := mismaBusqueda_escribir s w

theorem EntreOperaciones.of_misma {s s' : Pokedex} (hs : EntreOperaciones s)
    (h : MismaBusqueda s s') : EntreOperaciones s' := by
  obtain ⟨hotorgadas, hmutex, hcursor⟩ := h
  refine ⟨?_, hcursor ▸ hs.cursor⟩
  rw [SinPendientes, hotorgadas, hmutex]
  exact hs.sinPendientes

section Pasos
variable {s : Pokedex}

theorem mismaBusqueda_confirmarEliminar (archivos : ℕ → OsadaFile) (path : Cadena) (l : Lectura)
    (hard : ℕ) : MismaBusqueda s (confirmarEliminar archivos path l hard s).2 := by
  rcases confirmarEliminar_cases archivos path l hard s with hrun | ⟨e, _, _, _, hrun⟩
  · rw [hrun]
    exact mismaBusqueda.refl s
  rw [hrun]
  have hlibera : Op.Keeps MismaBusqueda (liberarSiEsArchivo e) := by
    unfold liberarSiEsArchivo
    split
    · exact mismaBusqueda.bind (mismaBusqueda.get _) fun _ => mismaBusqueda.liberarBloques _ _
    · exact mismaBusqueda.pure _
  have hborra : Op.Keeps MismaBusqueda (eliminarArchivoInterna archivos l.posicion e hard) := by
    unfold eliminarArchivoInterna
    split
    · exact mismaBusqueda.pure _
    · refine mismaBusqueda.bind hlibera fun _ => mismaBusqueda.bind ?_ fun _ => mismaBusqueda.pure _
      exact fun s₁ => mismaBusqueda_escribir s₁ _
  exact hborra s

/-- In a table that is not full a creation is never without room. -/
theorem crearEntrada_conLugar {estructura : OsadaFileState} (hora : ℕ) (basura : OsadaFile)
    (path : Cadena) (largoMaximo : Option ℕ) (hs : EntreOperaciones s)
    (hlibre : obtenerCantidadDeArchivos s.disco < 2048) (hvivo : estructura ≠ .deleted) :
    EntreOperaciones (crearEntrada hora basura path largoMaximo estructura s).2 ∧
      ¬ SinLugar (crearEntrada hora basura path largoMaximo estructura s).1 := by
  cases hl : leerPath s.disco basura path with
  | none =>
    rw [crearEntrada, leer_bind_none hl]
    exact ⟨hs, by simp [SinLugar]⟩
  | some l =>
    rcases crearEntrada_apply hora largoMaximo hs.sinPendientes hlibre hvivo hl with
      hrun | ⟨nombre, i, _, _, _, hi, _, hrun⟩
    · rw [hrun]
      exact ⟨hs, by simp [SinLugar, noHayDescriptores]⟩
    · rw [hrun]
      refine ⟨⟨hs.sinPendientes, hi⟩, ?_⟩
      simp only [SinLugar, noHayDescriptores, Option.some.injEq]
      omega

theorem vivos_of_llena {d : Disco} (h : 2048 ≤ obtenerCantidadDeArchivos d) :
    ∀ i < 2048, (d.archivos i).state ≠ .deleted := by
  have hle : obtenerCantidadDeArchivos d ≤ 2048 := by
    unfold obtenerCantidadDeArchivos
    exact List.countP_le_length.trans_eq List.length_range
  have hlen : obtenerCantidadDeArchivos d = (List.range 2048).length :=
    (le_antisymm hle h).trans List.length_range.symm
  have hall := List.countP_eq_length.mp hlen
  intro i hi hdel
  have hvivo := hall i (List.mem_range.mpr hi)
  simp [hdel] at hvivo

/-- What one creation or deletion does to the globals of the search, and when it has no room. -/
theorem entreOperaciones_ejecutar (hs : EntreOperaciones s) {op : Operacion} (hop : op.EsAltaOBaja) :
    EntreOperaciones (op.ejecutar s).2 ∧ (op.EsAlta → SinLugar (op.ejecutar s).1 →
      ∀ i < 2048, (s.disco.archivos i).state ≠ .deleted) := by
  cases op with
  | crearArchivo hora basura path =>
    rw [Operacion.ejecutar, osadaCrearArchivo, Op.get_bind]
    split
    · next hllena => exact ⟨hs, fun _ _ => vivos_of_llena hllena⟩
    · next hlibre =>
      have hvivo : OsadaFileState.regular ≠ .deleted := by simp
      obtain ⟨hentre, hlugar⟩ :=
        crearEntrada_conLugar hora basura path (some 17) hs (Nat.lt_of_not_le hlibre) hvivo
      exact ⟨hentre, fun _ hsin => absurd hsin hlugar⟩
  | crearDirectorio hora basura path =>
    rw [Operacion.ejecutar, osadaCrearDirectorio, Op.get_bind]
    split
    · next hllena => exact ⟨hs, fun _ _ => vivos_of_llena hllena⟩
    · next hlibre =>
      have hvivo : OsadaFileState.directory ≠ .deleted := by simp
      obtain ⟨hentre, hlugar⟩ :=
        crearEntrada_conLugar hora basura path none hs (Nat.lt_of_not_le hlibre) hvivo
      rcases he : crearEntrada hora basura path none .directory s with ⟨_ | posicion, s₁⟩
      · rw [he] at hentre
        rw [Op.bind_none he]
        exact ⟨hentre, fun _ hsin => absurd hsin (by simp [SinLugar])⟩
      · rw [he] at hentre hlugar
        rw [Op.bind_some he]
        split
        · exact ⟨hentre, fun _ hsin => absurd hsin hlugar⟩
        · exact ⟨hentre, fun _ hsin => absurd hsin (by simp [SinLugar])⟩
  | eliminar basura path hard =>
    refine ⟨?_, False.elim⟩
    rw [Operacion.ejecutar, osadaEliminarArchivo, Op.get_bind]
    cases hl : leerPath s.disco basura path with
    | none =>
      rw [leer_bind_none hl]
      exact hs
    | some l =>
      rw [leer_bind_some hl]
      exact hs.of_misma (mismaBusqueda_confirmarEliminar _ path l hard)
  | editar | truncar | renombrar | utimens => exact hop.elim

end Pasos

/-- With nothing granted, the search comes back with the first deleted slot from the cursor on; and
along every sequence of creations and deletions nothing stays granted or locked, the cursor stays in
the table, and a creation is without room only if all the entries are live. -/
theorem entradas_en_ronda :
    (∀ s : Pokedex, SinPendientes s → (∃ i < 2048, (s.disco.archivos i).state = .deleted) →
      Op.Returns obtenerEstructuraDeArchivoLibre s (OtorgaPrimera s)) ∧
    (∀ (s s' : Pokedex) (ops : List Operacion), SinPendientes s →
      s.ultimaEntradaLibreDeTabla ≤ 2048 → Run PasoDeTabla s ops s' →
      SinPendientes s' ∧ s'.ultimaEntradaLibreDeTabla ≤ 2048 ∧
        ∀ op : Operacion, op.EsAlta → SinLugar (op.ejecutar s').1 →
          ∀ i < 2048, (s'.disco.archivos i).state ≠ .deleted) := by
  refine ⟨fun s hs hlibre => otorgaPrimera_of_sinPendientes hs hlibre, ?_⟩
  intro s s' ops hs hcursor hrun
  have hentre : EntreOperaciones s' := hrun.invariant (fun s op s' hs hpaso => by
    obtain ⟨hop, rfl⟩ := hpaso
    exact (entreOperaciones_ejecutar hs hop).1) ⟨hs, hcursor⟩
  refine ⟨hentre.sinPendientes, hentre.cursor, fun op hop => ?_⟩
  have hentra : op.EsAltaOBaja := by
    cases op <;> trivial
  exact (entreOperaciones_ejecutar hentre hentra).2 hop

/-- The first entry and the last eight are live, and the cursor is among these. -/
def cursorAlFinal : Pokedex :=
  { Pokedex.inicial { discoChico with
      archivos := fun i =>
        if i = 0 ∨ 2040 ≤ i then
          { OsadaFile.borrado with
            state := .regular, fname := [97 + UInt8.ofNat i], parentDirectory := 65535,
            firstBlock := uint32Max }
        else .borrado } with
    ultimaEntradaLibreDeTabla := 2045 }

/-- The search goes round the end of the table, past the live entries at its beginning. -/
theorem entradas_en_ronda_chica :
    Op.Returns obtenerEstructuraDeArchivoLibre cursorAlFinal
      (fun r s' => OtorgaPrimera cursorAlFinal r s' ∧ r = 1) ∧
    ∃ s', Run PasoDeTabla cursorAlFinal
      [.crearArchivo 0 .borrado rutaB, .eliminar .borrado rutaA 0, .crearArchivo 0 .borrado rutaAB] s' ∧
      SinPendientes s' ∧ s'.ultimaEntradaLibreDeTabla ≤ 2048 := by
  have hs : SinPendientes cursorAlFinal := ⟨fun _ => rfl, rfl⟩
  obtain ⟨s', hrun⟩ : ∃ s', Run PasoDeTabla cursorAlFinal [.crearArchivo 0 .borrado rutaB,
      .eliminar .borrado rutaA 0, .crearArchivo 0 .borrado rutaAB] s' :=
    ⟨_, .cons ⟨trivial, rfl⟩ (.cons ⟨trivial, rfl⟩ (.cons ⟨trivial, rfl⟩ (.nil _)))⟩
  obtain ⟨hpendientes, hcursor, _⟩ := entradas_en_ronda.2 _ s' _ hs (by decide) hrun
  refine ⟨(entradas_en_ronda.1 _ hs ⟨1, by decide, by decide⟩).mono ?_, s', hrun, hpendientes, hcursor⟩
  intro r s₁ h
  refine ⟨h, ?_⟩
  obtain ⟨k, hk, hr, hdel, hantes⟩ := h.primera
  -- from the cursor on the entries are live up to the second one of the table
  have hcuatro : ∀ k < 4, (cursorAlFinal.disco.archivos (vuelta cursorAlFinal.cursor k)).state ≠
      .deleted := by decide
  have hlibre : (cursorAlFinal.disco.archivos (vuelta cursorAlFinal.cursor 4)).state = .deleted := by
    decide
  have hcuatro : k = 4 := by
    rcases Nat.lt_trichotomy k 4 with hlt | he | hgt
    · exact absurd hdel (hcuatro k hlt)
    · exact he
    · exact absurd hlibre (hantes 4 hgt)
  rw [hr, hcuatro]
  decide

end TpSo.Osada
