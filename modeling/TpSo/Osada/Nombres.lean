import TpSo.Osada.Arbol
import TpSo.Osada.Resultados
import TpSo.Osada.Rutas

/-!
# Names given and names stored

A creation and a rename put a name into an entry that `leerPath` has just not found. Whether the
path then leads to the entry depends on the 17 bytes of the field, and for a rename on where the
new directory is.
-/

namespace TpSo.Osada

open Function (update)

/-- Entry `p` has come to be the one of this name in the directory `q`, which had none; the other
entries are the same. -/
structure Recoloca (d d' : Disco) (p q : ℕ) (nombre : List UInt8) : Prop where
  enTabla : p < 2048
  otros : ∀ i ≠ p, d'.archivos i = d.archivos i
  vivo : (d'.archivos p).state ≠ .deleted
  padre : (d'.archivos p).parentDirectory = q
  directorio : (d.archivos p).state = .directory → (d'.archivos p).state = .directory
  libre : ∀ i, ¬ Coincide d q nombre i
  nombre : getStringFromNombreOsada (d'.archivos p).fname = nombre

theorem recoloca_update {d d' : Disco} {p q : ℕ} {nombre : List UInt8} {e : OsadaFile}
    (hp : p < 2048) (harchivos : d'.archivos = update d.archivos p e) (hvivo : e.state ≠ .deleted)
    (hpadre : e.parentDirectory = q)
    (hdir : (d.archivos p).state = .directory → e.state = .directory)
    (hlibre : ∀ i, ¬ Coincide d q nombre i) (hnombre : getStringFromNombreOsada e.fname = nombre) :
    Recoloca d d' p q nombre := by
  have hentrada : d'.archivos p = e := by
    rw [harchivos, Function.update_self]
  refine ⟨hp, fun i hi => ?_, ?_, ?_, ?_, hlibre, ?_⟩
  · rw [harchivos, Function.update_of_ne hi]
  · rwa [hentrada]
  · rwa [hentrada]
  · rwa [hentrada]
  · rwa [hentrada]

namespace Recoloca

variable {d d' : Disco} {p q a j : ℕ} {nombre c : List UInt8} {cs : List (List UInt8)}
  (h : Recoloca d d' p q nombre)
include h

theorem coincide_otro (hj : j ≠ p) : Coincide d' a c j ↔ Coincide d a c j := by
  rw [coincide_iff, coincide_iff, h.otros j hj]

theorem coincide_nuevo : Coincide d' q nombre j ↔ j = p := by
  constructor
  · intro hc
    by_contra hj
    exact h.libre j ((h.coincide_otro hj).mp hc)
  · rintro rfl
    exact ⟨h.enTabla, h.vivo, h.padre, h.nombre⟩

theorem hayDirectorio (ha : HayDirectorio d a) : HayDirectorio d' a := by
  rcases ha with rfl | ⟨hlt, hdir⟩
  · exact .inl rfl
  · refine .inr ⟨hlt, ?_⟩
    rcases eq_or_ne a p with rfl | hne
    · exact h.directorio hdir
    · rw [h.otros a hne]
      exact hdir

theorem baja_nuevo (hq : HayDirectorio d q) : Baja d' q nombre p := by
  refine ⟨h.hayDirectorio hq, h.coincide_nuevo.mpr rfl, fun j hj hc => ?_⟩
  exact hj.ne (h.coincide_nuevo.mp hc)

theorem baja (hb : Baja d a c j) (hj : j ≠ p) : Baja d' a c j := by
  refine ⟨h.hayDirectorio hb.1, (h.coincide_otro hj).mpr hb.2.1, fun k hk hc => ?_⟩
  rcases eq_or_ne k p with rfl | hkp
  · -- the entry matches under its new name only, which nothing had
    have ha : a = q := hc.padre.symm.trans h.padre
    have hnombre : c = nombre := hc.nombre.symm.trans h.nombre
    rw [ha, hnombre] at hb
    exact h.libre j hb.2.1
  · exact hb.2.2 k hk ((h.coincide_otro hkp).mp hc)

/-- A walk that does not come by the entry is still there. -/
theorem camina {r : ℕ} (hw : Walk (Baja d) r cs a)
    (hfuera : ∀ ys, ys ≠ [] → ys <+: cs → ¬ Walk (Baja d) r ys p) : Walk (Baja d') r cs a := by
  refine hw.mono_of fun ys x b c hpre hb hr => h.baja hr ?_
  rintro rfl
  exact hfuera (ys ++ [x]) (by simp) hpre (hb.concat hr)

end Recoloca

theorem length_getString (fname : List UInt8) : (getStringFromNombreOsada fname).length ≤ 17 :=
  (List.takeWhile_sublist _).length_le.trans (List.length_take_le 17 fname)

theorem vivo_of_walk {d : Disco} {r p : ℕ} {cs : List (List UInt8)} (hw : Walk (Baja d) r cs p)
    (hne : cs ≠ []) : p < 2048 ∧ (d.archivos p).state ≠ .deleted := by
  rcases List.eq_nil_or_concat cs with rfl | ⟨ys, c, rfl⟩
  · exact absurd rfl hne
  · rw [List.concat_eq_append] at hw
    obtain ⟨a, _, hb⟩ := hw.of_concat
    exact ⟨hb.2.1.enTabla, hb.2.1.vivo⟩

/-! ## Creations -/

/-- Slot `i` has the new entry of `path`, whose directory is at `q`, and the path leads there. -/
structure Creada (s s' : Pokedex) (path : Cadena) (q : ℕ) (estructura : OsadaFileState) (i : ℕ) :
    Prop where
  nueva : EntradaNueva s s' i
  state : (s'.disco.archivos i).state = estructura
  fileSize : (s'.disco.archivos i).fileSize = 0
  firstBlock : (s'.disco.archivos i).firstBlock = uint32Max
  parentDirectory : (s'.disco.archivos i).parentDirectory = q
  lectura : ∀ basura, leerPath s'.disco basura path =
    some ⟨some (s'.disco.archivos i), .archivoExiste, i⟩

/-- A creation leaves the table as it is, or makes the entry and would not make it again. -/
def CreaBien (crear : ℕ → OsadaFile → Cadena → Op Pokedex ℤ) (s s' : Pokedex) (path : Cadena)
    (q : ℕ) (estructura : OsadaFileState) : Prop :=
  s'.disco.archivos = s.disco.archivos ∨
    (∃ i, Creada s s' path q estructura i) ∧
      ∀ hora basura, (crear hora basura path s').2.disco.archivos = s'.disco.archivos

section Crear
variable {s : Pokedex} {hora : ℕ} {basura : OsadaFile} {path : Cadena} {l : Lectura}
  {nombre : List UInt8} {i : ℕ} {estructura : OsadaFileState}

theorem recoloca_conEntrada (hi : i < 2048) (hdel : (s.disco.archivos i).state = .deleted)
    (hvivo : estructura ≠ .deleted) (hcero : (0 : UInt8) ∉ nombre) (hlargo : nombre.length ≤ 17)
    (hlibre : ∀ j, ¬ Coincide s.disco l.posicion nombre j) :
    Recoloca s.disco
      (s.conEntrada i (descriptorNuevo hora basura nombre l.posicion estructura)).disco i l.posicion
      nombre := by
  refine recoloca_update hi (aplicar_descriptor_archivos s.disco hi _) hvivo rfl ?_ hlibre
    ((nombre_descriptorNuevo hcero).trans (List.take_of_length_le hlargo))
  intro hdir
  rw [hdel] at hdir
  exact absurd hdir (by decide)

/-- The entry of a name that fits in the field is found where it was put. -/
theorem creada_conEntrada (hl : leerPath s.disco basura path = some l)
    (hr : l.resultado = .archivoNoPathValido)
    (hn : obtenerNombreDeArchivoDePath path = some nombre) (hlargo : nombre.length ≤ 17)
    (hi : i < 2048) (hdel : (s.disco.archivos i).state = .deleted)
    (hvivo : estructura ≠ .deleted) :
    Creada s (s.conEntrada i (descriptorNuevo hora basura nombre l.posicion estructura)) path
      l.posicion estructura i := by
  obtain ⟨_, _, _, _, hn', _, hcero, _⟩ := leerPath_noPathValido hl hr
  obtain rfl := Option.some.inj (hn.symm.trans hn')
  obtain ⟨previas, _, hbarra, hpartes, hn', hlleva, hdir, hlibre⟩ := leerPath_falta hl hr
  obtain rfl := Option.some.inj (hn.symm.trans hn')
  have hrec : Recoloca s.disco
      (s.conEntrada i (descriptorNuevo hora basura nombre l.posicion estructura)).disco i l.posicion
      nombre := recoloca_conEntrada hi hdel hvivo hcero hlargo hlibre
  have harchivos : (s.conEntrada i
      (descriptorNuevo hora basura nombre l.posicion estructura)).disco.archivos i =
      descriptorNuevo hora basura nombre l.posicion estructura :=
    (congrFun (aplicar_descriptor_archivos s.disco hi _) i).trans (Function.update_self _ _ _)
  have hcamina := (hrec.camina hlleva fun ys hne _ hw => (vivo_of_walk hw hne).2 hdel).concat
    (hrec.baja_nuevo hdir)
  refine ⟨entradaNueva_conEntrada hi hdel hvivo, ?_, ?_, ?_, ?_, fun basura' => ?_⟩
  · rw [harchivos]
    rfl
  · rw [harchivos]
    rfl
  · rw [harchivos]
    rfl
  · rw [harchivos]
    rfl
  · exact leerPath_of_lleva hbarra hpartes (by simp) hcamina

theorem crear_existente (hl : ∀ basura, ∃ l, leerPath s.disco basura path = some l ∧
      l.resultado = .archivoExiste) (hora : ℕ) (basura : OsadaFile) :
    (osadaCrearArchivo hora basura path s).2.disco.archivos = s.disco.archivos ∧
      (osadaCrearDirectorio hora basura path s).2.disco.archivos = s.disco.archivos := by
  obtain ⟨l, hl, hr⟩ := hl basura
  have hno : ∀ largoMaximo estructura,
      crearEntrada hora basura path largoMaximo estructura s = (some 2, s) := fun _ _ =>
    crearEntrada_rechaza hl fun hc => by
      rw [hr] at hc
      exact absurd hc.1 (by decide)
  rw [osadaCrearArchivo, osadaCrearDirectorio, Op.get_bind, Op.get_bind]
  constructor
  · split
    · rfl
    · rw [hno]
  · split
    · rfl
    · rw [Op.bind_some (hno none .directory)]
      split <;> rfl

end Crear

theorem obtenerCantidadDeArchivos_lt_of {d : Disco} {i : ℕ} (hi : i < 2048)
    (hdel : (d.archivos i).state = .deleted) : ¬ 2048 ≤ obtenerCantidadDeArchivos d := by
  intro hllena
  have hle : obtenerCantidadDeArchivos d ≤ (List.range 2048).length := List.countP_le_length
  rw [List.length_range] at hle
  have hcuenta : obtenerCantidadDeArchivos d = (List.range 2048).length := by
    rw [List.length_range]
    exact le_antisymm hle hllena
  have htodas := List.countP_eq_length.mp hcuenta i (List.mem_range.mpr hi)
  simp [hdel] at htodas

theorem osadaCrearDirectorio_apply {s s' : Pokedex} {hora : ℕ} {basura : OsadaFile}
    {path : Cadena} {l : Lectura} {nombre : List UInt8} {r : ℤ}
    (hcabe : ¬ 2048 ≤ obtenerCantidadDeArchivos s.disco)
    (hl : leerPath s.disco basura path = some l) (hr : l.resultado = .archivoNoPathValido)
    (hn : obtenerNombreDeArchivoDePath path = some nombre)
    (hrun : escribirDescriptor (descriptorNuevo hora basura nombre l.posicion .directory) s =
      (some r, s')) : osadaCrearDirectorio hora basura path s = (some r, s') := by
  rw [osadaCrearDirectorio, Op.get_bind, if_neg hcabe,
    Op.bind_some ((crearEntrada_acepta (.inr rfl) hl hr hn rfl).trans hrun), hn]
  rfl

/-- No name that is found is longer than the field. -/
theorem largo_of_creaBien {crear : ℕ → OsadaFile → Cadena → Op Pokedex ℤ} {s s' : Pokedex}
    {basura : OsadaFile} {path : Cadena} {l : Lectura} {nombre : List UInt8} {q i : ℕ}
    {estructura : OsadaFileState} (hl : leerPath s.disco basura path = some l)
    (hr : l.resultado = .archivoNoPathValido)
    (hn : obtenerNombreDeArchivoDePath path = some nombre) (hnueva : EntradaNueva s s' i)
    (hbien : CreaBien crear s s' path q estructura) : nombre.length ≤ 17 := by
  rcases hbien with hmisma | ⟨⟨k, hcreada⟩, _⟩
  · rw [EntradaNueva, hmisma] at hnueva
    exact absurd hnueva.2.1 hnueva.2.2.1
  · obtain ⟨previas, _, _, hpartes, hn', _⟩ := leerPath_falta hl hr
    obtain rfl := Option.some.inj (hn.symm.trans hn')
    obtain ⟨_, hlleva⟩ :=
      lleva_of_leerPath (not_raiz_of_falta hl hr) hpartes (hcreada.lectura basura) rfl
    obtain ⟨_, _, hbaja⟩ := hlleva.of_concat
    rw [← hbaja.2.1.nombre]
    exact length_getString _

/-- With a slot to hand out, a file is created as it should, and a directory exactly when its name
fits in the field: the length is not looked at. -/
theorem crear_creaBien {s : Pokedex} (hmutex : s.obtenerEntradaArchivoLibreMutex = false)
    (hlibre : ∃ i < 2048, Otorgable s i) (hora : ℕ) {basura : OsadaFile} {path : Cadena}
    {l : Lectura} (hl : leerPath s.disco basura path = some l)
    (hr : l.resultado = .archivoNoPathValido) {nombre : List UInt8}
    (hn : obtenerNombreDeArchivoDePath path = some nombre) :
    Op.Returns (osadaCrearArchivo hora basura path) s
        (fun _ s' => CreaBien osadaCrearArchivo s s' path l.posicion .regular) ∧
      (Op.Returns (osadaCrearDirectorio hora basura path) s
          (fun _ s' => CreaBien osadaCrearDirectorio s s' path l.posicion .directory) ↔
        nombre.length ≤ 17) := by
  obtain ⟨i, hi, hot⟩ := id hlibre
  have hcabe := obtenerCantidadDeArchivos_lt_of hi hot.1
  constructor
  · rw [osadaCrearArchivo, Op.Returns, Op.get_bind, if_neg hcabe]
    by_cases hlargo : nombre.length ≤ 17
    · obtain ⟨j, hj, hotj, hrun⟩ := escribirDescriptor_otorga hmutex hlibre
        (descriptorNuevo hora basura nombre l.posicion .regular)
      have hcreada : Creada s (s.conEntrada j (descriptorNuevo hora basura nombre l.posicion
          .regular)) path l.posicion .regular j :=
        creada_conEntrada hl hr hn hlargo hj hotj.1 (by decide)
      refine ⟨_, _, (crearEntrada_acepta (.inl rfl) hl hr hn ?_).trans hrun,
        .inr ⟨⟨j, hcreada⟩, fun hora' basura' => ?_⟩⟩
      · simpa using hlargo
      · exact (crear_existente (fun b => ⟨_, hcreada.lectura b, rfl⟩) hora' basura').1
    · refine ⟨2, s, crearEntrada_rechaza hl ?_, .inl rfl⟩
      rintro ⟨_, nombre', hn', hlargo'⟩
      obtain rfl := Option.some.inj (hn.symm.trans hn')
      exact hlargo (by simpa using hlargo')
  · obtain ⟨j, hj, hotj, hrun⟩ := escribirDescriptor_otorga hmutex hlibre
      (descriptorNuevo hora basura nombre l.posicion .directory)
    have hdir := osadaCrearDirectorio_apply hcabe hl hr hn hrun
    constructor
    · rintro ⟨_, s', hrun', hbien⟩
      obtain ⟨_, rfl⟩ := Op.some_inj (hdir.symm.trans hrun')
      exact largo_of_creaBien hl hr hn (entradaNueva_conEntrada hj hotj.1 (by
        simp [descriptorNuevo])) hbien
    · intro hlargo
      have hcreada : Creada s (s.conEntrada j (descriptorNuevo hora basura nombre l.posicion
          .directory)) path l.posicion .directory j :=
        creada_conEntrada hl hr hn hlargo hj hotj.1 (by decide)
      exact ⟨_, _, hdir, .inr ⟨⟨j, hcreada⟩, fun hora' basura' =>
        (crear_existente (fun b => ⟨_, hcreada.lectura b, rfl⟩) hora' basura').2⟩⟩

theorem coincide_chico (p i : ℕ) (c : List UInt8) : ¬ Coincide discoChico p c i := fun h =>
  h.vivo rfl

theorem otorgable_chico : ∃ i < 2048, Otorgable (.inicial discoChico) i :=
  ⟨0, by decide, rfl, rfl⟩

theorem crear_creaBien_a :
    Op.Returns (osadaCrearArchivo 0 .borrado rutaA) (.inicial discoChico)
        (fun _ s' => CreaBien osadaCrearArchivo (.inicial discoChico) s' rutaA posicionBarra
          .regular) ∧
      (Op.Returns (osadaCrearDirectorio 0 .borrado rutaA) (.inicial discoChico)
          (fun _ s' => CreaBien osadaCrearDirectorio (.inicial discoChico) s' rutaA posicionBarra
            .directory) ↔ ([97] : List UInt8).length ≤ 17) :=
  have hpartes : stringSplit rutaA = some [[97]] := by decide
  crear_creaBien rfl otorgable_chico 0
    (leerPath_una (by decide) hpartes fun i => coincide_chico _ i _) rfl
    (show obtenerNombreDeArchivoDePath rutaA = some [97] by decide)

def rutaLarga : Cadena := ⟨barra :: List.replicate 18 97, by decide⟩

/-- A directory with a name of 18 bytes is made, and not found again. -/
theorem directorio_de_nombre_largo : ¬ ∀ s : Pokedex, SinPendientes s →
    (∃ i < 2048, (s.disco.archivos i).state = .deleted) →
    ∀ (hora : ℕ) (basura : OsadaFile) (path : Cadena) (l : Lectura),
      leerPath s.disco basura path = some l → l.resultado = .archivoNoPathValido →
      Op.Returns (osadaCrearDirectorio hora basura path) s
        fun _ s' => CreaBien osadaCrearDirectorio s s' path l.posicion .directory := by
  intro hall
  have hpartes : stringSplit rutaLarga = some [List.replicate 18 97] := by decide
  have hl : leerPath (Pokedex.inicial discoChico).disco .borrado rutaLarga =
      some ⟨none, .archivoNoPathValido, posicionBarra⟩ :=
    leerPath_una (by decide) hpartes fun i => coincide_chico _ i _
  have hn : obtenerNombreDeArchivoDePath rutaLarga = some (List.replicate 18 97) := by decide
  have hcabe : ¬ 2048 ≤ obtenerCantidadDeArchivos (Pokedex.inicial discoChico).disco :=
    obtenerCantidadDeArchivos_lt_of (show 0 < 2048 by decide) rfl
  obtain ⟨j, hj, hot, hrun⟩ := escribirDescriptor_otorga rfl otorgable_chico
    (descriptorNuevo 0 .borrado (List.replicate 18 97) posicionBarra .directory)
  obtain ⟨_, s', hrun', hbien⟩ := hall (.inicial discoChico) (sinPendientes_inicial discoChico)
    ⟨0, by decide, rfl⟩ 0 .borrado rutaLarga _ hl rfl
  obtain ⟨_, rfl⟩ := Op.some_inj
    ((osadaCrearDirectorio_apply hcabe hl rfl hn hrun).symm.trans hrun')
  have hnueva := entradaNueva_conEntrada hj hot.1 (show (descriptorNuevo 0 .borrado
    (List.replicate 18 97) posicionBarra .directory).state ≠ .deleted by simp [descriptorNuevo])
  have hlargo := largo_of_creaBien hl rfl hn hnueva hbien
  rw [List.length_replicate] at hlargo
  exact absurd hlargo (by decide)

/-! ## Renames -/

/-- What a rename that returns 1 owes to the entry at `p`. -/
structure Renombrada (s s' : Pokedex) (viejoNombre nuevoNombre : Cadena) (p : ℕ) : Prop where
  enTabla : p < 2048
  cambia : s'.disco.archivos p ≠ s.disco.archivos p
  otros : ∀ i ≠ p, s'.disco.archivos i = s.disco.archivos i
  campos : s'.disco.archivos p = { s.disco.archivos p with
    fname := (s'.disco.archivos p).fname
    parentDirectory := (s'.disco.archivos p).parentDirectory }
  nuevo : ∀ basura, leerPath s'.disco basura nuevoNombre =
    some ⟨some (s'.disco.archivos p), .archivoExiste, p⟩
  viejo : ∀ basura l, leerPath s'.disco basura viejoNombre = some l →
    l.resultado = .archivoExiste → l.posicion ≠ p

/-- The way down a path comes by entry `p`. -/
def PasaPor (d : Disco) (path : Cadena) (p : ℕ) : Prop :=
  ∃ partes ys, stringSplit path = some partes ∧ ys <+: partes ∧ Lleva d ys p

theorem pasaPor_iff {d : Disco} {path : Cadena} {p : ℕ} {partes : List (List UInt8)}
    (hpartes : stringSplit path = some partes) :
    PasaPor d path p ↔ ∃ ys, ys <+: partes ∧ Lleva d ys p := by
  constructor
  · rintro ⟨partes', ys, hpartes', hpre, hys⟩
    obtain rfl := Option.some.inj (hpartes.symm.trans hpartes')
    exact ⟨ys, hpre, hys⟩
  · rintro ⟨ys, hpre, hys⟩
    exact ⟨partes, ys, hpartes, hpre, hys⟩

section Renombrar
variable {s s' : Pokedex} {basura : OsadaFile} {viejoNombre nuevoNombre : Cadena}
  {viejo nuevo : Lectura} {e : OsadaFile} {nombre : List UInt8}

theorem not_baja_largo {d : Disco} {a i : ℕ} (hlargo : 17 < nombre.length) : ¬ Baja d a nombre i := by
  intro hb
  have hle := length_getString (d.archivos i).fname
  rw [hb.2.1.nombre] at hle
  omega

/-- The fields behind the name are as they were for names that end within their own, and for one
more length if the low byte of the size is zero. -/
theorem strcpyDescriptor_campos (e : OsadaFile) (hlargo : nombre.length ≤ 17) (q : ℕ) :
    ({ strcpyDescriptor e nombre with parentDirectory := q } : OsadaFile) =
        { e with fname := strcpyFname e.fname nombre, parentDirectory := q } ↔
      nombre.length ≤ 16 ∨ nombre.length = 17 ∧ e.fileSize % 256 = 0 := by
  have hfin : ∀ k, nombre.length < k → (nombre ++ [0]).drop k = [] := fun k hk =>
    List.drop_eq_nil_of_le (by rw [List.length_append, List.length_singleton]; omega)
  have hlastmod := hfin 23 (by omega)
  have hprimero := hfin 27 (by omega)
  rcases Nat.lt_or_eq_of_le hlargo with hlt | heq
  · have htamanio := hfin 17 hlt
    refine iff_of_true ?_ (.inl (Nat.le_of_lt_succ hlt))
    simp [strcpyDescriptor, hlastmod, hprimero, htamanio, pisar]
  · have htamanio : (nombre ++ [0]).drop 17 = [0] := by
      rw [← heq, List.drop_left]
    simp only [strcpyDescriptor, hlastmod, hprimero, htamanio, pisar, OsadaFile.mk.injEq, heq]
    simp only [UInt8.toNat_zero, true_and, and_true]
    omega

theorem osadaRenombrarArchivo_apply (hv : leerPath s.disco basura viejoNombre = some viejo)
    (hn : leerPath s.disco basura nuevoNombre = some nuevo)
    (hrv : viejo.resultado = .archivoExiste) (hd : viejo.descriptor = some e)
    (hrn : nuevo.resultado = .archivoNoPathValido)
    (hnombre : obtenerNombreDeArchivoDePath nuevoNombre = some nombre)
    (hbarra : viejoNombre.1 ≠ [barra]) :
    osadaRenombrarArchivo basura viejoNombre nuevoNombre s =
      (some 1, s.escribir (.descriptor viejo.posicion
        { strcpyDescriptor e nombre with parentDirectory := nuevo.posicion })) := by
  rw [osadaRenombrarArchivo, leer_bind_some hv, leer_bind_some hn, confirmarRenombrar, hrv, hd, hrn,
    hnombre]
  exact (congrFun (if_pos hbarra) s).trans (Op.bind_some rfl)

section Recolocada
variable {d d' : Disco} {p q : ℕ} (h : Recoloca d d' p q nombre) {previas : List (List UInt8)}
include h

/-- After a rename the new path leads to the entry, unless it came by it before. -/
theorem Recoloca.lleva_iff (hprevias : Lleva d previas q) (hq : HayDirectorio d q) :
    Lleva d' (previas ++ [nombre]) p ↔ ¬ ∃ ys, ys <+: previas ++ [nombre] ∧ Lleva d ys p := by
  constructor
  · rintro hnuevo ⟨ys, hpre, hys⟩
    have hcorto : ys <+: previas := by
      rcases List.prefix_concat_iff.mp hpre with rfl | hcorto
      · obtain ⟨a, ha, hb⟩ := hys.of_concat
        obtain rfl := Lleva.unique ha hprevias
        exact absurd hb.2.1 (h.libre p)
      · exact hcorto
    obtain ⟨ws, rfl⟩ := hcorto
    obtain ⟨b, hb, hws⟩ := hprevias.of_append
    obtain rfl := Lleva.unique hb hys
    -- the way from the entry to its new directory closes
    have hcamina := h.camina hws fun us hne _ hus =>
      Walk.not_of_closed (fun h h' => h.padre_unico h') not_baja_raiz hus hne hys
    have hcierra := hcamina.concat (h.baja_nuevo hq)
    exact Walk.not_of_closed (fun h h' => h.padre_unico h') not_baja_raiz hcierra (by simp) hnuevo
  · intro hno
    exact (h.camina hprevias fun ys _ hpre hys =>
      hno ⟨ys, hpre.trans (List.prefix_append _ _), hys⟩).concat (h.baja_nuevo hq)

theorem Recoloca.not_lleva {cs : List (List UInt8)} (hviejo : Lleva d cs p) (hne : cs ≠ []) :
    ¬ Lleva d' cs p := by
  intro hsigue
  rcases List.eq_nil_or_concat cs with rfl | ⟨zs, z, rfl⟩
  · exact hne rfl
  · rw [List.concat_eq_append] at hviejo hsigue
    obtain ⟨a, ha, hb⟩ := hviejo.of_concat
    obtain ⟨a', ha', hb'⟩ := hsigue.of_concat
    have hcamina := h.camina ha fun ys _ hpre hys => by
      have hlen := Lleva.length_eq hys hviejo
      have hle := hpre.length_le
      rw [List.length_append, List.length_singleton] at hlen
      omega
    obtain rfl := Lleva.unique hcamina ha'
    have hq : a = q := hb'.2.1.padre.symm.trans h.padre
    have hz : z = nombre := hb'.2.1.nombre.symm.trans h.nombre
    rw [hq, hz] at hb
    exact h.libre p hb.2.1

end Recolocada

/-- The entry is what it should be after the rename exactly when the path of the entry is not the
empty one, the name leaves the fields behind it alone, and the entry does not go below itself. -/
theorem renombrada_iff (hv : leerPath s.disco basura viejoNombre = some viejo)
    (hn : leerPath s.disco basura nuevoNombre = some nuevo)
    (hrv : viejo.resultado = .archivoExiste) (hd : viejo.descriptor = some e)
    (hrn : nuevo.resultado = .archivoNoPathValido)
    (hnombre : obtenerNombreDeArchivoDePath nuevoNombre = some nombre)
    (hbarra : viejoNombre.1 ≠ [barra]) (hs' : s' = s.escribir (.descriptor viejo.posicion
      { strcpyDescriptor e nombre with parentDirectory := nuevo.posicion })) :
    Renombrada s s' viejoNombre nuevoNombre viejo.posicion ↔ viejoNombre.1 ≠ [] ∧
      (nombre.length ≤ 16 ∨
        nombre.length = 17 ∧ (s.disco.archivos viejo.posicion).fileSize % 256 = 0) ∧
      ¬ PasaPor s.disco nuevoNombre viejo.posicion := by
  by_cases hvacio : viejoNombre.1 = []
  · -- the root: nothing of the table is written
    refine iff_of_false (fun hren => ?_) fun hc => hc.1 hvacio
    rw [leerPath_raiz (.inr hvacio), Option.some.injEq] at hv
    have hlt := hren.enTabla
    rw [← hv] at hlt
    exact absurd hlt (by simp [lecturaRaiz, posicionBarra])
  have hraiz : ¬ EsRaiz viejoNombre := fun hc => hc.elim hbarra hvacio
  obtain ⟨hp, hd', hvivo⟩ := leerPath_entrada hv hrv hraiz
  obtain rfl := Option.some.inj (hd.symm.trans hd')
  obtain ⟨_, _, _, _, hn', _, hcero, _⟩ := leerPath_noPathValido hn hrn
  obtain rfl := Option.some.inj (hnombre.symm.trans hn')
  obtain ⟨previas, _, hbarra', hpartes, hn', hlleva, hdir, hlibre⟩ := leerPath_falta hn hrn
  obtain rfl := Option.some.inj (hnombre.symm.trans hn')
  have harchivos : s'.disco.archivos = update s.disco.archivos viejo.posicion
      { strcpyDescriptor (s.disco.archivos viejo.posicion) nombre with
        parentDirectory := nuevo.posicion } := by
    rw [hs', Pokedex.escribir_disco, aplicar_descriptor_archivos _ hp]
  have hentrada : s'.disco.archivos viejo.posicion =
      { strcpyDescriptor (s.disco.archivos viejo.posicion) nombre with
        parentDirectory := nuevo.posicion } := by
    rw [harchivos, Function.update_self]
  have hpasa := pasaPor_iff (d := s.disco) (p := viejo.posicion) hpartes
  have hraiz' := not_raiz_of_falta hn hrn
  rcases Nat.lt_or_ge 17 nombre.length with hlargo | hlargo
  · refine iff_of_false (fun hren => ?_) fun hc => by omega
    obtain ⟨_, hnuevo⟩ := lleva_of_leerPath hraiz' hpartes (hren.nuevo basura) rfl
    obtain ⟨_, _, hb⟩ := hnuevo.of_concat
    exact not_baja_largo hlargo hb
  · have hrec : Recoloca s.disco s'.disco viejo.posicion nuevo.posicion nombre :=
      recoloca_update hp harchivos hvivo rfl id hlibre
        ((nombre_strcpy _ hcero).trans (List.take_of_length_le hlargo))
    have hcampos := strcpyDescriptor_campos (s.disco.archivos viejo.posicion) hlargo nuevo.posicion
    have hlleva_iff := hrec.lleva_iff hlleva hdir
    constructor
    · intro hren
      obtain ⟨_, hnuevo⟩ := lleva_of_leerPath hraiz' hpartes (hren.nuevo basura) rfl
      refine ⟨hvacio, hcampos.mp ?_, fun hpp => hlleva_iff.mp hnuevo (hpasa.mp hpp)⟩
      have hmarco := hren.campos
      rw [hentrada] at hmarco
      exact hmarco
    · rintro ⟨_, hlargo', hno⟩
      have hnuevo := hlleva_iff.mpr (mt hpasa.mpr hno)
      refine ⟨hp, fun hmisma => ?_, hrec.otros, ?_, fun basura' => ?_, fun basura' l hl hr => ?_⟩
      · have hcoincide := hrec.coincide_nuevo.mpr (Eq.refl viejo.posicion)
        rw [coincide_iff, hmisma, ← coincide_iff] at hcoincide
        exact hlibre _ hcoincide
      · rw [hentrada]
        exact hcampos.mpr hlargo'
      · exact leerPath_of_lleva hbarra' hpartes (by simp) hnuevo
      · intro hpos
        obtain ⟨partes, hpv⟩ := partes_of_leerPath hbarra hv
        obtain ⟨hne, hantes⟩ := lleva_of_leerPath hraiz hpv hv hrv
        obtain ⟨_, hdespues⟩ := lleva_of_leerPath hraiz hpv hl hr
        rw [hpos] at hdespues
        exact hrec.not_lleva hantes hne hdespues

end Renombrar

/-- A rename that returns 1 has done its work on the entry that the old path led to, and one that
does not leaves the table as it was. -/
def RenombraBien (s : Pokedex) (basura : OsadaFile) (viejoNombre nuevoNombre : Cadena) : Prop :=
  (∀ s' viejo, osadaRenombrarArchivo basura viejoNombre nuevoNombre s = (some 1, s') →
      leerPath s.disco basura viejoNombre = some viejo →
      Renombrada s s' viejoNombre nuevoNombre viejo.posicion) ∧
    ((osadaRenombrarArchivo basura viejoNombre nuevoNombre s).1 ≠ some 1 →
      (osadaRenombrarArchivo basura viejoNombre nuevoNombre s).2.disco.archivos =
        s.disco.archivos)

theorem renombraBien_iff (s : Pokedex) (basura : OsadaFile) (viejoNombre nuevoNombre : Cadena) :
    RenombraBien s basura viejoNombre nuevoNombre ↔ ∀ viejo nuevo nombre,
      leerPath s.disco basura viejoNombre = some viejo →
      leerPath s.disco basura nuevoNombre = some nuevo → viejo.resultado = .archivoExiste →
      nuevo.resultado = .archivoNoPathValido →
      obtenerNombreDeArchivoDePath nuevoNombre = some nombre → viejoNombre.1 ≠ [barra] →
        viejoNombre.1 ≠ [] ∧
        (nombre.length ≤ 16 ∨
          nombre.length = 17 ∧ (s.disco.archivos viejo.posicion).fileSize % 256 = 0) ∧
        ¬ PasaPor s.disco nuevoNombre viejo.posicion := by
  by_cases hsi : ∃ viejo nuevo nombre, leerPath s.disco basura viejoNombre = some viejo ∧
      leerPath s.disco basura nuevoNombre = some nuevo ∧ viejo.resultado = .archivoExiste ∧
      nuevo.resultado = .archivoNoPathValido ∧
      obtenerNombreDeArchivoDePath nuevoNombre = some nombre ∧ viejoNombre.1 ≠ [barra]
  · obtain ⟨viejo, nuevo, nombre, hv, hn, hrv, hrn, hnombre, hbarra⟩ := hsi
    obtain ⟨e, hd, _⟩ := leerPath_existe hv hrv
    have hrun := osadaRenombrarArchivo_apply hv hn hrv hd hrn hnombre hbarra
    have hiff := renombrada_iff hv hn hrv hd hrn hnombre hbarra rfl
    constructor
    · intro hbien viejo' nuevo' nombre' hv' _ _ _ hnombre' _
      obtain rfl := Option.some.inj (hv.symm.trans hv')
      obtain rfl := Option.some.inj (hnombre.symm.trans hnombre')
      exact hiff.mp (hbien.1 _ viejo hrun hv)
    · intro hcond
      refine ⟨fun s' viejo' hrun' hv' => ?_, fun hno => absurd (congrArg Prod.fst hrun) hno⟩
      obtain ⟨_, rfl⟩ := Op.some_inj (hrun.symm.trans hrun')
      obtain rfl := Option.some.inj (hv.symm.trans hv')
      exact hiff.mpr (hcond viejo nuevo nombre hv hn hrv hrn hnombre hbarra)
  · have hrun : osadaRenombrarArchivo basura viejoNombre nuevoNombre s = (none, s) ∨
        osadaRenombrarArchivo basura viejoNombre nuevoNombre s = (some archivoInexistente, s) := by
      cases hv : leerPath s.disco basura viejoNombre with
      | none =>
        rw [osadaRenombrarArchivo, leer_bind_none hv]
        exact .inl rfl
      | some viejo =>
        cases hn : leerPath s.disco basura nuevoNombre with
        | none =>
          rw [osadaRenombrarArchivo, leer_bind_some hv, leer_bind_none hn]
          exact .inl rfl
        | some nuevo =>
          rw [osadaRenombrarArchivo, leer_bind_some hv, leer_bind_some hn]
          rcases confirmarRenombrar_cases viejoNombre nuevoNombre viejo nuevo s with
            hrun | ⟨e, nombre, hrv, _, hrn, hnombre, hbarra, _⟩
          · exact .inr hrun
          · exact absurd ⟨viejo, nuevo, nombre, hv, hn, hrv, hrn, hnombre, hbarra⟩ hsi
    refine iff_of_true ⟨fun s' viejo hrun' _ => ?_, fun _ => ?_⟩ ?_
    · rcases hrun with hrun | hrun
      · exact absurd (congrArg Prod.fst (hrun.symm.trans hrun')) (by simp)
      · exact absurd (congrArg Prod.fst (hrun.symm.trans hrun')) (by simp [archivoInexistente])
    · rcases hrun with hrun | hrun <;> rw [hrun]
    · intro viejo nuevo nombre hv hn hrv hrn hnombre hbarra
      exact absurd ⟨viejo, nuevo, nombre, hv, hn, hrv, hrn, hnombre, hbarra⟩ hsi

def rutaJusta : Cadena := ⟨barra :: List.replicate 17 97, by decide⟩

/-- A file of ten bytes is empty after it gets a name of 17. -/
theorem renombrar_sin_tamanio : ¬ ∀ (s : Pokedex) (basura : OsadaFile)
    (viejoNombre nuevoNombre : Cadena), RenombraBien s basura viejoNombre nuevoNombre := by
  intro hall
  have hpartes : stringSplit rutaJusta = some [List.replicate 17 97] := by decide
  have hv : leerPath (Pokedex.inicial (discoConA 1 10)).disco .borrado rutaA =
      some ⟨some ((discoConA 1 10).archivos 0), .archivoExiste, 0⟩ := leerPath_conA 1 10 .borrado
  have hn : leerPath (Pokedex.inicial (discoConA 1 10)).disco .borrado rutaJusta =
      some ⟨none, .archivoNoPathValido, posicionBarra⟩ := by
    refine leerPath_una (by decide) hpartes fun i hc => ?_
    obtain rfl := estado_conArchivo hc.vivo
    exact absurd hc.nombre (by decide)
  have hnombre : obtenerNombreDeArchivoDePath rutaJusta = some (List.replicate 17 97) := by decide
  have hbarra : rutaA.1 ≠ [barra] := by decide
  have hrun := osadaRenombrarArchivo_apply hv hn rfl rfl rfl hnombre hbarra
  have hren := (hall (.inicial (discoConA 1 10)) .borrado rutaA rutaJusta).1 _ _ hrun hv
  obtain ⟨_, hlargo, _⟩ := (renombrada_iff hv hn rfl rfl rfl hnombre hbarra rfl).mp hren
  rw [List.length_replicate] at hlargo
  have htamanio : ((discoConA 1 10).archivos 0).fileSize = 10 := rfl
  rcases hlargo with hcorto | ⟨_, hcero⟩
  · exact absurd hcorto (by decide)
  · exact absurd (htamanio ▸ hcero) (by decide)

end TpSo.Osada
