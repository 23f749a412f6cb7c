import Mathlib.Data.List.TakeWhile
import TpSo.Base.Forest
import TpSo.Base.Run
import TpSo.Osada.Corridas

/-!
# The tree of directories

The parent pointers of the live entries lead to the root, and no directory has two entries of
one name. Creating and renaming look the new name up as it was given, which says nothing of
the 17 bytes that will be stored of a longer one, and renaming does not look at where the new
directory is: a run keeps the tree when its steps do not run into either.
-/

namespace TpSo.Osada

open Function (update)

def OsadaFile.Vivo (e : OsadaFile) : Prop := e.state ≠ .deleted

instance (e : OsadaFile) : Decidable e.Vivo := inferInstanceAs (Decidable (_ ≠ _))

def OsadaFile.nombre (e : OsadaFile) : List UInt8 := getStringFromNombreOsada e.fname

def EsDirectorio (archivos : ℕ → OsadaFile) (i : ℕ) : Prop :=
  i < 2048 ∧ (archivos i).state = .directory

/-- The way up from position `i` comes to the root. -/
abbrev EnArbol (archivos : ℕ → OsadaFile) : ℕ → Prop :=
  Rooted (fun i => (archivos i).parentDirectory) (EsDirectorio archivos) posicionBarra

/-- The way up from position `i` comes to the root, and not by slot `p`. -/
abbrev Fuera (archivos : ℕ → OsadaFile) (p : ℕ) : ℕ → Prop :=
  Rooted (fun i => (archivos i).parentDirectory) (fun i => EsDirectorio archivos i ∧ i ≠ p)
    posicionBarra

structure Arbol (archivos : ℕ → OsadaFile) : Prop where
  alcanza : ∀ i < 2048, (archivos i).Vivo → EnArbol archivos (archivos i).parentDirectory
  unico : ∀ i < 2048, ∀ j < 2048, (archivos i).Vivo → (archivos j).Vivo →
    (archivos i).parentDirectory = (archivos j).parentDirectory →
    (archivos i).nombre = (archivos j).nombre → i = j

/-- No live entry of the directory at `padre`, slot `p` aside, has this name. -/
def NombreLibre (archivos : ℕ → OsadaFile) (p padre : ℕ) (nombre : List UInt8) : Prop :=
  ∀ j < 2048, j ≠ p → (archivos j).Vivo → (archivos j).parentDirectory = padre →
    (archivos j).nombre ≠ nombre

section Arbol
variable {archivos : ℕ → OsadaFile} {p q : ℕ} {e : OsadaFile}

theorem parent_update (archivos : ℕ → OsadaFile) (p : ℕ) (e : OsadaFile) :
    (fun i => (update archivos p e i).parentDirectory) =
      update (fun i => (archivos i).parentDirectory) p e.parentDirectory := by
  funext i
  rcases eq_or_ne i p with rfl | hne
  · simp
  · simp [hne]

theorem Arbol.unico_update (h : Arbol archivos)
    (hlibre : e.Vivo → NombreLibre archivos p e.parentDirectory e.nombre) :
    ∀ i < 2048, ∀ j < 2048, (update archivos p e i).Vivo → (update archivos p e j).Vivo →
      (update archivos p e i).parentDirectory = (update archivos p e j).parentDirectory →
      (update archivos p e i).nombre = (update archivos p e j).nombre → i = j := by
  intro i hi j hj hvi hvj hpadre hnombre
  rcases eq_or_ne i p with rfl | hip
  · rcases eq_or_ne j i with rfl | hji
    · rfl
    · rw [Function.update_self] at hvi hpadre hnombre
      rw [Function.update_of_ne hji] at hvj hpadre hnombre
      exact absurd hnombre.symm (hlibre hvi j hj hji hvj hpadre.symm)
  · rw [Function.update_of_ne hip] at hvi hpadre hnombre
    rcases eq_or_ne j p with rfl | hjp
    · rw [Function.update_self] at hvj hpadre hnombre
      exact absurd hnombre (hlibre hvj i hi hip hvi hpadre)
    · rw [Function.update_of_ne hjp] at hvj hpadre hnombre
      exact h.unico i hi j hj hvi hvj hpadre hnombre

theorem Arbol.crear (h : Arbol archivos) (hdel : (archivos p).state = .deleted)
    (hq : EnArbol archivos e.parentDirectory)
    (hlibre : NombreLibre archivos p e.parentDirectory e.nombre) :
    Arbol (update archivos p e) := by
  have hsube : ∀ a, EnArbol archivos a → EnArbol (update archivos p e) a := by
    intro a ha
    refine ha.congr fun b hb => ?_
    have hne : b ≠ p := by
      rintro rfl
      rw [EsDirectorio, hdel] at hb
      simp at hb
    simpa only [EsDirectorio, Function.update_of_ne hne] using ⟨hb, trivial⟩
  refine ⟨fun i hi hvivo => ?_, h.unico_update fun _ => hlibre⟩
  rcases eq_or_ne i p with rfl | hne
  · rw [Function.update_self]
    exact hsube _ hq
  · rw [Function.update_of_ne hne] at hvivo ⊢
    exact hsube _ (h.alcanza i hi hvivo)

theorem Arbol.borrar (h : Arbol archivos) (hdel : e.state = .deleted)
    (hhijos : ∀ i < 2048, (archivos i).Vivo → (archivos i).parentDirectory ≠ p) :
    Arbol (update archivos p e) := by
  have hmuerto : ¬ e.Vivo := fun hv => hv hdel
  have hsube : ∀ a, EnArbol archivos a → a ≠ p → EnArbol (update archivos p e) a := by
    intro a ha hap
    refine (ha.avoid (fun b hb => hhijos b hb.1 fun hd => ?_) hap).congr fun b hb => ?_
    · rw [hb.2] at hd
      simp at hd
    · simpa only [EsDirectorio, Function.update_of_ne hb.2] using ⟨hb.1, trivial⟩
  refine ⟨fun i hi hvivo => ?_, h.unico_update fun hv => absurd hv hmuerto⟩
  rcases eq_or_ne i p with rfl | hne
  · rw [Function.update_self] at hvivo
    exact absurd hvivo hmuerto
  · rw [Function.update_of_ne hne] at hvivo ⊢
    exact hsube _ (h.alcanza i hi hvivo) (hhijos i hi hvivo)

/-- A live entry under another name, in a directory that is not below it. -/
theorem Arbol.mover (h : Arbol archivos) (hestado : e.state = (archivos p).state)
    (hfuera : Fuera archivos p e.parentDirectory)
    (hlibre : NombreLibre archivos p e.parentDirectory e.nombre) :
    Arbol (update archivos p e) := by
  have hdir : ∀ b, EsDirectorio (update archivos p e) b ↔ EsDirectorio archivos b := by
    intro b
    rcases eq_or_ne b p with rfl | hne
    · simp [EsDirectorio, hestado]
    · simp [EsDirectorio, hne]
  have hsube : ∀ a, EnArbol archivos a → EnArbol (update archivos p e) a := by
    intro a ha
    rw [EnArbol, parent_update]
    exact (ha.redirect hfuera).congr fun b hb => ⟨(hdir b).mpr hb, rfl⟩
  have hpadre : EnArbol archivos e.parentDirectory := hfuera.congr fun b hb => ⟨hb.1, rfl⟩
  refine ⟨fun i hi hvivo => ?_, h.unico_update fun _ => hlibre⟩
  rcases eq_or_ne i p with rfl | hne
  · rw [Function.update_self]
    exact hsube _ hpadre
  · rw [Function.update_of_ne hne] at hvivo ⊢
    exact hsube _ (h.alcanza i hi hvivo)

end Arbol

/-! ## The operations -/

/-- The table of files and what the creation of entries goes by are as they were. -/
def MismaTabla (s s' : Pokedex) : Prop :=
  s'.disco.archivos = s.disco.archivos ∧
    s'.entradasLibresOtorgadas = s.entradasLibresOtorgadas ∧
    s'.obtenerEntradaArchivoLibreMutex = s.obtenerEntradaArchivoLibreMutex

theorem mismaTabla : DeMapa MismaTabla where
  refl _ := ⟨rfl, rfl, rfl⟩
  trans _ _ _ h h' := ⟨h'.1.trans h.1, h'.2.1.trans h.2.1, h'.2.2.trans h.2.2⟩
  escribir s w hw := by
    cases w with
    | bitmap => exact ⟨rfl, rfl, rfl⟩
    | asignacion => exact ⟨rfl, rfl, rfl⟩
    | descriptor => exact hw.elim
    | datos => exact hw.elim

namespace Operacion

/-- The operations of the sequences: they make, move and remove entries. -/
def DeEntradas : Operacion → Prop
  | crearArchivo _ _ _ | crearDirectorio _ _ _ | renombrar _ _ _ => True
  | eliminar _ _ hard => hard = 0
  | editar _ _ _ _ _ | truncar _ _ _ | utimens _ _ _ => False

/-- What a step does not run into: a name whose first 17 bytes are those of an entry of the
directory, and a directory that goes below itself. -/
def RespetaArbol (d : Disco) : Operacion → Prop
  | crearDirectorio _ basura path => ∀ l nombre, leerPath d basura path = some l →
    l.resultado = .archivoNoPathValido → obtenerNombreDeArchivoDePath path = some nombre →
    obtenerCantidadDeArchivos d < 2048 →
      ∀ j < 2048, (d.archivos j).Vivo → (d.archivos j).parentDirectory = l.posicion →
        (d.archivos j).nombre ≠ nombre.take 17
  | renombrar basura viejoNombre nuevoNombre => ∀ viejo nuevo nombre,
    leerPath d basura viejoNombre = some viejo → leerPath d basura nuevoNombre = some nuevo →
    viejo.resultado = .archivoExiste → nuevo.resultado = .archivoNoPathValido →
    obtenerNombreDeArchivoDePath nuevoNombre = some nombre → ¬ EsRaiz viejoNombre →
      NombreLibre d.archivos viejo.posicion nuevo.posicion (nombre.take 17) ∧
        ((d.archivos viejo.posicion).state = .directory →
          Fuera d.archivos viejo.posicion nuevo.posicion)
  | crearArchivo _ _ _ | eliminar _ _ _ | editar _ _ _ _ _ | truncar _ _ _ | utimens _ _ _ => True

end Operacion

section Pasos
variable {s : Pokedex} {basura : OsadaFile} {path : Cadena} {l : Lectura}

theorem distinto_de_cero {nombre : List UInt8} (hcero : (0 : UInt8) ∉ nombre) :
    ∀ b ∈ nombre, decide (b ≠ 0) = true := fun _ hb => decide_eq_true fun he => hcero (he ▸ hb)

theorem getString_take {nombre : List UInt8} (hcero : (0 : UInt8) ∉ nombre) :
    getStringFromNombreOsada nombre = nombre.take 17 :=
  List.takeWhile_eq_self_iff.mpr fun b hb => distinto_de_cero hcero b (List.mem_of_mem_take hb)

theorem nombre_strcpy (fname : List UInt8) {nombre : List UInt8} (hcero : (0 : UInt8) ∉ nombre) :
    getStringFromNombreOsada (strcpyFname fname nombre) = nombre.take 17 := by
  have hne := distinto_de_cero hcero
  unfold getStringFromNombreOsada strcpyFname
  rw [List.take_take, min_self]
  rcases Nat.lt_or_ge nombre.length 17 with hlt | hge
  · obtain ⟨k, hk⟩ : ∃ k, 17 - nombre.length = k + 1 := ⟨16 - nombre.length, by omega⟩
    rw [List.take_append, List.take_of_length_le hlt.le, hk, List.take_succ_cons,
      List.takeWhile_append_of_pos hne, List.takeWhile_cons_of_neg (by simp), List.append_nil]
  · rw [List.take_append, Nat.sub_eq_zero_of_le hge, List.take_zero, List.append_nil]
    exact getString_take hcero

theorem nombre_descriptorNuevo {hora padre : ℕ} {nombre : List UInt8}
    {estructura : OsadaFileState} (hcero : (0 : UInt8) ∉ nombre) :
    (descriptorNuevo hora basura nombre padre estructura).nombre = nombre.take 17 := by
  unfold OsadaFile.nombre descriptorNuevo
  simp only
  split
  · exact nombre_strcpy _ hcero
  · exact getString_take hcero

/-- The directory that `leerPath` stops at hangs from the root. -/
theorem Arbol.enArbol_posicion {archivos : ℕ → OsadaFile} {d : Disco} {e : OsadaFile} {q : ℕ}
    (h : Arbol archivos) (hd : d.archivos = archivos) (he : EnPosicion d basura q e)
    (hdir : e.state = .directory) : EnArbol archivos q := by
  subst hd
  rcases he with ⟨rfl, _⟩ | ⟨hq, rfl, hvivo⟩
  · exact .root
  · exact .step ⟨hq, hdir⟩ (h.alcanza q hq hvivo)

theorem arbol_crearEntrada (hora : ℕ) (largoMaximo : Option ℕ) (estructura : OsadaFileState)
    (h : Arbol s.disco.archivos) (hs : SinPendientes s)
    (hlleno : obtenerCantidadDeArchivos s.disco < 2048) (hvivo : estructura ≠ .deleted)
    (hnombre : ∀ l nombre, leerPath s.disco basura path = some l →
      l.resultado = .archivoNoPathValido → obtenerNombreDeArchivoDePath path = some nombre →
      largoMaximo.all (nombre.length ≤ ·) = true → ∀ j < 2048, (s.disco.archivos j).Vivo →
        (s.disco.archivos j).parentDirectory = l.posicion →
        (s.disco.archivos j).nombre ≠ nombre.take 17) :
    Arbol (crearEntrada hora basura path largoMaximo estructura s).2.disco.archivos ∧
      SinPendientes (crearEntrada hora basura path largoMaximo estructura s).2 := by
  rcases hl : leerPath s.disco basura path with _ | l
  · rw [crearEntrada, leer_bind_none hl]
    exact ⟨h, hs⟩
  · rcases crearEntrada_apply hora largoMaximo hs hlleno hvivo hl with
      hrun | ⟨nombre, i, hr, hn, hlargo, hi, hdel, hrun⟩
    · rw [hrun]
      exact ⟨h, hs⟩
    · obtain ⟨e, nombre', he, hdir, hn', _, hcero, _⟩ := leerPath_noPathValido hl hr
      rw [hn, Option.some.injEq] at hn'
      subst hn'
      rw [hrun]
      refine ⟨?_, hs⟩
      change Arbol (s.disco.aplicar (.descriptor i _)).archivos
      rw [aplicar_descriptor_archivos _ hi]
      refine h.crear hdel (h.enArbol_posicion rfl he hdir) fun j hj _ hvj hpadre => ?_
      rw [nombre_descriptorNuevo hcero]
      exact hnombre l nombre hl hr hn hlargo j hj hvj hpadre

theorem arbol_confirmarRenombrar {viejo nuevo : Lectura} {viejoNombre nuevoNombre : Cadena}
    (h : Arbol s.disco.archivos) (hs : SinPendientes s)
    (hviejo : leerPath s.disco basura viejoNombre = some viejo)
    (hnuevo : leerPath s.disco basura nuevoNombre = some nuevo)
    (hrespeta : (Operacion.renombrar basura viejoNombre nuevoNombre).RespetaArbol s.disco) :
    Arbol (confirmarRenombrar viejoNombre nuevoNombre viejo nuevo s).2.disco.archivos ∧
      SinPendientes (confirmarRenombrar viejoNombre nuevoNombre viejo nuevo s).2 := by
  rcases confirmarRenombrar_cases viejoNombre nuevoNombre viejo nuevo s with
    hrun | ⟨e, nombre, hr, hd, hr', hn, hbarra, hrun⟩
  · rw [hrun]
    exact ⟨h, hs⟩
  rw [hrun]
  refine ⟨?_, hs⟩
  by_cases hraiz : EsRaiz viejoNombre
  · -- what is written at the position of the root is in no slot
    rw [leerPath_raiz hraiz, Option.some.injEq] at hviejo
    have hpos : 2048 ≤ viejo.posicion := by
      rw [← hviejo]
      exact show 2048 ≤ posicionBarra by decide
    rw [Pokedex.escribir_disco, aplicar_descriptor_of_le _ hpos]
    exact h
  · obtain ⟨hp, hd', hvivo⟩ := leerPath_entrada hviejo hr hraiz
    rw [hd, Option.some.injEq] at hd'
    subst hd'
    obtain ⟨hlibre, hfuera⟩ := hrespeta viejo nuevo nombre hviejo hnuevo hr hr' hn hraiz
    obtain ⟨e, _, he, hdir, hn', _, hcero, _⟩ := leerPath_noPathValido hnuevo hr'
    rw [hn, Option.some.injEq] at hn'
    subst hn'
    have hnuevo' := h.enArbol_posicion rfl he hdir
    rw [Pokedex.escribir_disco, aplicar_descriptor_archivos _ hp]
    refine h.mover rfl ?_ ?_
    · by_cases hcarpeta : (s.disco.archivos viejo.posicion).state = .directory
      · exact hfuera hcarpeta
      · -- no path goes through a file
        refine hnuevo'.congr fun b hb => ⟨⟨hb, ?_⟩, rfl⟩
        rintro rfl
        exact hcarpeta hb.2
    · have hnom : OsadaFile.nombre { strcpyDescriptor (s.disco.archivos viejo.posicion) nombre with
          parentDirectory := nuevo.posicion } = nombre.take 17 := nombre_strcpy _ hcero
      rw [hnom]
      exact hlibre

theorem arbol_confirmarEliminar (h : Arbol s.disco.archivos) (hs : SinPendientes s)
    (path : Cadena) (l : Lectura) :
    Arbol (confirmarEliminar s.disco.archivos path l 0 s).2.disco.archivos ∧
      SinPendientes (confirmarEliminar s.disco.archivos path l 0 s).2 := by
  rcases confirmarEliminar_cases s.disco.archivos path l 0 s with
    hrun | ⟨e, hr, hd, hbarra, hrun⟩
  · rw [hrun]
    exact ⟨h, hs⟩
  rw [hrun, eliminarArchivoInterna]
  by_cases hhijos : (0 : ℕ) = 0 ∧ tieneHijos s.disco.archivos l.posicion = true
  · rw [if_pos hhijos]
    exact ⟨h, hs⟩
  rw [if_neg hhijos]
  -- freeing the blocks may not come to an end, but leaves the table alone
  have hlibera : Op.Keeps MismaTabla (liberarSiEsArchivo e) := by
    unfold liberarSiEsArchivo
    split
    · exact mismaTabla.bind (mismaTabla.get _) fun _ => mismaTabla.liberarBloques _ _
    · exact mismaTabla.pure _
  have hmisma := hlibera s
  rcases he : liberarSiEsArchivo e s with ⟨_ | r, s₁⟩
  · rw [he] at hmisma
    obtain ⟨harch, hotor, hmutex⟩ := hmisma
    rw [Op.bind_none he]
    simp only at harch hotor hmutex
    rw [SinPendientes, harch, hotor, hmutex]
    exact ⟨h, hs⟩
  · rw [he] at hmisma
    obtain ⟨harch, hotor, hmutex⟩ := hmisma
    simp only at harch hotor hmutex
    rw [Op.bind_some he]
    change Arbol (s₁.disco.aplicar (.descriptor l.posicion { e with state := .deleted })).archivos ∧
      SinPendientes s₁
    rw [SinPendientes, hotor, hmutex]
    refine ⟨?_, hs⟩
    rcases Nat.lt_or_ge l.posicion 2048 with hp | hp
    · rw [aplicar_descriptor_archivos _ hp, harch]
      refine h.borrar rfl fun i hi hvivo hpadre => hhijos ⟨rfl, ?_⟩
      exact List.any_eq_true.mpr ⟨i, List.mem_range.mpr hi, decide_eq_true ⟨hpadre, hvivo⟩⟩
    · rw [aplicar_descriptor_of_le _ hp, harch]
      exact h

/-- A step lemma for what starts by reading a path. -/
theorem arbol_leer {f : Lectura → Op Pokedex ℤ} (h : Arbol s.disco.archivos) (hs : SinPendientes s)
    (hf : ∀ l, leerPath s.disco basura path = some l →
      Arbol (f l s).2.disco.archivos ∧ SinPendientes (f l s).2) :
    Arbol ((leer basura path >>= f) s).2.disco.archivos ∧
      SinPendientes ((leer basura path >>= f) s).2 := by
  rcases hl : leerPath s.disco basura path with _ | l
  · rw [leer_bind_none hl]
    exact ⟨h, hs⟩
  · rw [leer_bind_some hl]
    exact hf l hl

theorem arbol_ejecutar (h : Arbol s.disco.archivos) (hs : SinPendientes s) (op : Operacion)
    (hde : op.DeEntradas) (hop : op.RespetaArbol s.disco) :
    Arbol (op.ejecutar s).2.disco.archivos ∧ SinPendientes (op.ejecutar s).2 := by
  cases op with
  | crearArchivo hora basura path =>
    rw [Operacion.ejecutar, osadaCrearArchivo, Op.bind_some (Op.get_apply _ _)]
    split
    · exact ⟨h, hs⟩
    · next hlleno =>
      refine arbol_crearEntrada _ _ _ h hs (Nat.lt_of_not_le hlleno) (by simp) ?_
      -- a name that fits was looked up as it will be stored
      intro l nombre hl hr hn hlargo j hj hvivo hpadre
      obtain ⟨_, nombre', _, _, hn', _, _, hnadie⟩ := leerPath_noPathValido hl hr
      rw [hn, Option.some.injEq] at hn'
      subst hn'
      rw [List.take_of_length_le (by simpa using hlargo)]
      exact fun he => obtenerEstructuraDeArchivo_none.mp hnadie j hj he hvivo hpadre
  | crearDirectorio hora basura path =>
    rw [Operacion.ejecutar, osadaCrearDirectorio, Op.bind_some (Op.get_apply _ _)]
    split
    · exact ⟨h, hs⟩
    · next hlleno =>
      have hlibre := Nat.lt_of_not_le hlleno
      obtain ⟨ha, hp⟩ := arbol_crearEntrada hora none .directory h hs hlibre (by simp)
        fun l nombre hl hr hn _ => hop l nombre hl hr hn hlibre
      rcases he : crearEntrada hora basura path none .directory s with ⟨_ | r, s'⟩
      · rw [he] at ha hp
        rw [Op.bind_none he]
        exact ⟨ha, hp⟩
      · rw [he] at ha hp
        rw [Op.bind_some he]
        split <;> exact ⟨ha, hp⟩
  | renombrar basura viejoNombre nuevoNombre =>
    exact arbol_leer h hs fun viejo hviejo => arbol_leer h hs fun nuevo hnuevo =>
      arbol_confirmarRenombrar h hs hviejo hnuevo hop
  | eliminar basura path hard =>
    obtain rfl : hard = 0 := hde
    rw [Operacion.ejecutar, osadaEliminarArchivo, Op.bind_some (Op.get_apply _ _)]
    exact arbol_leer h hs fun l _ => arbol_confirmarEliminar h hs path l
  | editar => exact hde.elim
  | truncar => exact hde.elim
  | utimens => exact hde.elim

end Pasos

def PasoDeEntradas (s : Pokedex) (op : Operacion) (s' : Pokedex) : Prop :=
  op.DeEntradas ∧ (op.ejecutar s).2 = s'

/-- One that does not run into what breaks the tree. -/
def PasoArbol (s : Pokedex) (op : Operacion) (s' : Pokedex) : Prop :=
  op.RespetaArbol s.disco ∧ PasoDeEntradas s op s'

/-- The tree along a sequence of creations, renamings and deletions that meet the condition. -/
theorem arbol_corrida {s s' : Pokedex} {ops : List Operacion} (h : Run PasoArbol s ops s')
    (ha : Arbol s.disco.archivos) (hs : SinPendientes s) : Arbol s'.disco.archivos := by
  have hpaso : ∀ s op s', Arbol s.disco.archivos ∧ SinPendientes s → PasoArbol s op s' →
      Arbol s'.disco.archivos ∧ SinPendientes s' := by
    rintro s op _ ⟨ha, hs⟩ ⟨hop, hde, rfl⟩
    exact arbol_ejecutar ha hs op hde hop
  exact (h.invariant hpaso ⟨ha, hs⟩).1

theorem arbol_discoChico : Arbol discoChico.archivos where
  alcanza _ _ hvivo := absurd rfl hvivo
  unico _ _ _ _ hvivo := absurd rfl hvivo

/-- A name that is kept whole was looked up as it will be stored, and a file is above nothing. -/
theorem respetaArbol_renombrar {d : Disco} {basura : OsadaFile} {viejoNombre nuevoNombre : Cadena}
    (hlargo : ∀ nombre, obtenerNombreDeArchivoDePath nuevoNombre = some nombre → nombre.length ≤ 17)
    (hreg : ∀ l, leerPath d basura viejoNombre = some l →
      (d.archivos l.posicion).state ≠ .directory) :
    (Operacion.renombrar basura viejoNombre nuevoNombre).RespetaArbol d := by
  intro viejo nuevo nombre hv hn _ hr hnombre _
  refine ⟨?_, fun hdir => absurd hdir (hreg viejo hv)⟩
  obtain ⟨_, nombre', _, _, hn', _, _, hnadie⟩ := leerPath_noPathValido hn hr
  rw [hnombre, Option.some.injEq] at hn'
  subst hn'
  intro j hj _ hvivo hpadre
  rw [List.take_of_length_le (hlargo nombre hnombre)]
  exact fun he => obtenerEstructuraDeArchivo_none.mp hnadie j hj he hvivo hpadre

/-- A directory is made, with a file that then goes out of it, and is deleted. -/
theorem arbol_corrida_chica : ∃ s', Run PasoDeEntradas (.inicial discoChico)
    [.crearDirectorio 0 .borrado rutaA, .crearArchivo 0 .borrado rutaAB,
      .renombrar .borrado rutaAB rutaB, .eliminar .borrado rutaA 0] s' ∧
      Arbol s'.disco.archivos ∧ (s'.disco.archivos 1).state = .regular := by
  obtain ⟨s₁, h₁⟩ : ∃ s₁, ((Operacion.crearDirectorio 0 .borrado rutaA).ejecutar
    (.inicial discoChico)).2 = s₁ := ⟨_, rfl⟩
  obtain ⟨s₂, h₂⟩ : ∃ s₂, ((Operacion.crearArchivo 0 .borrado rutaAB).ejecutar s₁).2 = s₂ := ⟨_, rfl⟩
  have hvacio : (Operacion.crearDirectorio 0 .borrado rutaA).RespetaArbol discoChico :=
    fun _ _ _ _ _ _ _ _ hvivo => absurd rfl hvivo
  have hreg : ∀ l, leerPath s₂.disco .borrado rutaAB = some l →
      (s₂.disco.archivos l.posicion).state ≠ .directory := by
    have hlee : (leerPath s₂.disco .borrado rutaAB).map (fun l =>
        (s₂.disco.archivos l.posicion).state) = some .regular := by
      rw [← h₂, ← h₁]
      decide +kernel
    intro l hl hdir
    rw [hl, Option.map_some, hdir] at hlee
    cases hlee
  have hnombre : ∀ nombre, obtenerNombreDeArchivoDePath rutaB = some nombre →
      nombre.length ≤ 17 := by
    intro nombre hn
    have hb : obtenerNombreDeArchivoDePath rutaB = some [98] := by decide
    rw [Option.some.inj (hn.symm.trans hb)]
    decide
  have hrun : Run PasoArbol (.inicial discoChico) [.crearDirectorio 0 .borrado rutaA,
      .crearArchivo 0 .borrado rutaAB, .renombrar .borrado rutaAB rutaB,
      .eliminar .borrado rutaA 0] _ :=
    .cons ⟨hvacio, trivial, h₁⟩ (.cons ⟨trivial, trivial, h₂⟩ (.cons
      ⟨respetaArbol_renombrar hnombre hreg, trivial, rfl⟩ (.cons ⟨trivial, rfl, rfl⟩ (.nil _))))
  refine ⟨_, hrun.mono fun _ _ _ h => h.2,
    arbol_corrida hrun arbol_discoChico (sinPendientes_inicial _), ?_⟩
  rw [← h₂, ← h₁]
  decide +kernel

/-- A directory that is moved below itself. -/
theorem no_toda_corrida_arbol : ¬ ∀ s s' ops, Run PasoDeEntradas s ops s' →
    Arbol s.disco.archivos → SinPendientes s → Arbol s'.disco.archivos := by
  intro h
  have hfin := h (.inicial discoChico) _
    [.crearDirectorio 0 .borrado rutaA, .renombrar .borrado rutaA rutaAB]
    (.cons ⟨trivial, rfl⟩ (.cons ⟨trivial, rfl⟩ (.nil _)))
    arbol_discoChico (sinPendientes_inicial _)
  have hsube := hfin.alcanza 0 (by decide) (by decide +kernel)
  exact hsube.not_of_fixed (by decide +kernel) (by decide +kernel)

end TpSo.Osada
