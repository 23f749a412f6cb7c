import TpSo.Osada.Consultas
import TpSo.Osada.Contenidos
import TpSo.Osada.FueraDeLugar

/-!
# Which operations come back

On a well-formed disk a write comes back if the check turns it down, or if there are blocks for it:
those that are free and, where they are not enough, the bits after them, which the search takes for
blocks as well. A truncation of a file always comes back, and a read does if it ends before the last
block of its file. For the rest it is enough that their paths can be taken apart.
-/

namespace TpSo.Osada

variable {s : Pokedex} {basura : OsadaFile} {path : Cadena} {l : Lectura}

/-! ## Lookups -/

theorem leer_legible {β : Type} {f : Lectura → Op Pokedex β}
    (h : ((leer basura path >>= f) s).1.isSome = true) : path.Legible := by
  rw [← leerPath_isSome s.disco basura path]
  rcases hl : leerPath s.disco basura path with _ | l
  · rw [leer_bind_none hl] at h
    cases h
  · rfl

theorem siExiste_iff {d : Disco} {P : OsadaFile → Prop} (hl : leerPath d basura path = some l)
    (hraiz : ¬ EsRaiz path) :
    SiExiste d path P ↔ (l.resultado = .archivoExiste → P (d.archivos l.posicion)) := by
  constructor
  · exact fun h hr => h.of_leer hl hr hraiz
  · intro h l' e hl' hr hd _
    rw [leerPath_basura hraiz basura, hl, Option.some.injEq] at hl'
    subst hl'
    obtain ⟨_, hd', _⟩ := leerPath_entrada hl hr hraiz
    rw [hd, Option.some.injEq] at hd'
    exact hd' ▸ h hr

/-! ## Descriptors -/

theorem osadaUtimens_isSome {segundos : ℤ} :
    (osadaUtimens basura path segundos s).1.isSome = true ↔ path.Legible := by
  apply leer_isSome
  intro l
  rcases confirmarUtimens_cases path l segundos s with hrun | ⟨_, _, _, _, hrun⟩ <;>
    rw [hrun] <;> rfl

theorem osadaRenombrarArchivo_isSome {viejoNombre nuevoNombre : Cadena} :
    (osadaRenombrarArchivo basura viejoNombre nuevoNombre s).1.isSome = true ↔
      viejoNombre.Legible ∧ nuevoNombre.Legible := by
  have hnuevo : ∀ viejo, ((leer basura nuevoNombre >>= fun nuevo =>
      confirmarRenombrar viejoNombre nuevoNombre viejo nuevo) s).1.isSome = true ↔
        nuevoNombre.Legible := by
    intro viejo
    apply leer_isSome
    intro nuevo
    rcases confirmarRenombrar_cases viejoNombre nuevoNombre viejo nuevo s with
      hrun | ⟨_, _, _, _, _, _, _, hrun⟩ <;> rw [hrun] <;> rfl
  rw [osadaRenombrarArchivo, ← leerPath_isSome s.disco basura viejoNombre]
  rcases hl : leerPath s.disco basura viejoNombre with _ | viejo
  · rw [leer_bind_none hl]
    simp
  · rw [leer_bind_some hl, hnuevo viejo]
    simp

/-- The blocks of an entry are freed along its chain, and the root has none. -/
theorem osadaEliminarArchivo_isSome {hard : ℕ} (hd : BienFormado s.disco) :
    (osadaEliminarArchivo basura path hard s).1.isSome = true ↔ path.Legible := by
  rw [osadaEliminarArchivo, Op.get_bind, ← leerPath_isSome s.disco basura path]
  rcases hl : leerPath s.disco basura path with _ | l
  · rw [leer_bind_none hl]
    rfl
  rw [leer_bind_some hl]
  refine iff_of_true ?_ rfl
  rcases confirmarEliminar_cases s.disco.archivos path l hard s with
    hrun | ⟨e, hr, hdes, hbarra, hrun⟩
  · rw [hrun]
    rfl
  rw [hrun]
  by_cases hhijos : hard = 0 ∧ tieneHijos s.disco.archivos l.posicion = true
  · rw [eliminarArchivoInterna_hijos hhijos]
    rfl
  obtain ⟨cad, hocu, _⟩ := hd.ocupacion
  have hraiz : s.disco.raiz l.posicion = e.raiz := by
    by_cases hvacio : EsRaiz path
    · obtain ⟨_, hdes', hfuera⟩ := leerPath_raiz_fuera hvacio hl
      rw [hdes, Option.some.injEq] at hdes'
      rw [raiz_otro fun h => Nat.not_lt.mpr hfuera h.1, hdes']
      rfl
    · obtain ⟨hp, hdes', _⟩ := leerPath_entrada hl hr hvacio
      rw [hdes, Option.some.injEq] at hdes'
      rw [hdes', Disco.raiz, OsadaFile.raiz]
      simp [hp]
  obtain ⟨r, s', hrun', _⟩ := returns_eliminarArchivoInterna hocu hraiz hhijos
  rw [hrun']
  rfl

/-! ## Creations -/

section Creacion
variable {hora : ℕ}

/-- With no entry granted to anybody a creation comes back. -/
theorem crearEntrada_isSome {largoMaximo : Option ℕ} {estructura : OsadaFileState}
    (hs : SinPendientes s) (hvivo : estructura ≠ .deleted)
    (hlibre : obtenerCantidadDeArchivos s.disco < 2048) :
    (crearEntrada hora basura path largoMaximo estructura s).1.isSome = true ↔ path.Legible := by
  refine ⟨leer_legible, fun hleg => ?_⟩
  obtain ⟨l, hl⟩ := Option.isSome_iff_exists.mp ((leerPath_isSome s.disco basura path).mpr hleg)
  rcases crearEntrada_apply hora largoMaximo hs hlibre hvivo hl with
    hrun | ⟨_, _, _, _, _, _, _, hrun⟩ <;> rw [hrun] <;> rfl

theorem crearEntrada_ne_lleno {largoMaximo : Option ℕ} {estructura : OsadaFileState} {r : ℤ}
    (hs : SinPendientes s) (hvivo : estructura ≠ .deleted)
    (hlibre : obtenerCantidadDeArchivos s.disco < 2048)
    (hr : (crearEntrada hora basura path largoMaximo estructura s).1 = some r) :
    r ≠ noHayDescriptores := by
  have hleg : path.Legible := (crearEntrada_isSome hs hvivo hlibre).mp (by rw [hr]; rfl)
  obtain ⟨l, hl⟩ := Option.isSome_iff_exists.mp ((leerPath_isSome s.disco basura path).mpr hleg)
  unfold noHayDescriptores
  rcases crearEntrada_apply hora largoMaximo hs hlibre hvivo hl with
    hrun | ⟨_, i, _, _, _, _, _, hrun⟩
  · rw [hrun] at hr
    obtain rfl := Option.some.inj hr
    decide
  · rw [hrun] at hr
    obtain rfl := Option.some.inj hr
    omega

theorem osadaCrearArchivo_isSome (hs : SinPendientes s) :
    (osadaCrearArchivo hora basura path s).1.isSome = true ↔
      path.Legible ∨ 2048 ≤ obtenerCantidadDeArchivos s.disco := by
  rw [osadaCrearArchivo, Op.get_bind]
  split
  · next hlleno => exact iff_of_true rfl (.inr hlleno)
  · next hlibre =>
    have hcrea : (crearEntrada hora basura path (some 17) .regular s).1.isSome = true ↔
        path.Legible := crearEntrada_isSome hs (by simp) (Nat.lt_of_not_le hlibre)
    rw [or_iff_left hlibre]
    exact hcrea

theorem nombre_isSome (hleg : path.Legible) (hraiz : ¬ EsRaiz path) :
    (obtenerNombreDeArchivoDePath path).isSome = true := by
  obtain ⟨hbarra, hvacio⟩ := not_or.mp hraiz
  obtain ⟨partes, hpartes⟩ := Option.isSome_iff_exists.mp (hleg.resolve_left hbarra)
  rw [obtenerNombreDeArchivoDePath, if_neg hbarra, hpartes, Option.bind_some,
    List.getLast?_isSome]
  rintro rfl
  exact hvacio (partirTexto_eq_nil (le_refl _) hpartes)

/-- A directory is made, or refused, with the memory of its path as it was. -/
theorem osadaCrearDirectorio_vuelve (hs : SinPendientes s) :
    (∃ r, (osadaCrearDirectorio hora basura path s).1 = some r ∧ ¬ liberaElPath path r) ↔
      path.Legible ∧ ¬ EsRaiz path ∨ 2048 ≤ obtenerCantidadDeArchivos s.disco := by
  rw [osadaCrearDirectorio, Op.get_bind]
  split
  · next hlleno => exact iff_of_true ⟨_, rfl, fun h => h.2 rfl⟩ (.inr hlleno)
  next hlibre =>
  rw [or_iff_left hlibre]
  have hvivo : OsadaFileState.directory ≠ .deleted := by decide
  have hcuenta := Nat.lt_of_not_le hlibre
  have hcrea : (crearEntrada hora basura path none .directory s).1.isSome = true ↔ path.Legible :=
    crearEntrada_isSome hs hvivo hcuenta
  constructor
  · rintro ⟨r, hr, hno⟩
    obtain ⟨posicion, s', hrun, hr⟩ := Op.of_bind hr
    have hleg : path.Legible := hcrea.mp (by rw [hrun]; rfl)
    have hnombre : (obtenerNombreDeArchivoDePath path).isSome = true := by
      by_contra hnone
      rw [if_neg hnone] at hr
      cases hr
    rw [if_pos hnombre] at hr
    obtain rfl : posicion = r := Option.some.inj hr
    refine ⟨hleg, fun hraiz => ?_⟩
    rcases hraiz with hbarra | hvacio
    · have hotro : posicion ≠ noHayDescriptores := by
        apply crearEntrada_ne_lleno hs hvivo hcuenta
        exact congrArg Prod.fst hrun
      exact hno ⟨hbarra, hotro⟩
    · rw [obtenerNombreDeArchivoDePath, if_neg (by simp [hvacio]), stringSplit, hvacio] at hnombre
      cases hnombre
  · rintro ⟨hleg, hraiz⟩
    obtain ⟨r, hr⟩ := Option.isSome_iff_exists.mp (hcrea.mpr hleg)
    refine ⟨r, ?_, fun h => hraiz (.inl h.1)⟩
    rw [Op.bind_some (Prod.ext hr rfl), if_pos (nombre_isSome hleg hraiz)]
    rfl

end Creacion

/-! ## Writes -/

/-- The write is turned down or finds its blocks, some of which may not be there. -/
def VuelveEscritura (d : Disco) (e : OsadaFile) (n pos : ℤ) : Prop :=
  u32 (e.fileSize - pos + libres d * 64) < u32 n ∨
    ∃ xs, Chain d.asignaciones uint32Max e.firstBlock xs ∧
      max 1 (rondas n pos) ≤ xs.length + libres d + relleno d.header

section Escritura
variable {n pos : ℤ} {datos : List UInt8}

theorem confirmarEditar_isSome (hd : BienFormado s.disco)
    (hl : leerPath s.disco basura path = some l) (hr : l.resultado = .archivoExiste)
    (hraiz : ¬ EsRaiz path) (hmax : n + pos < 4294967296) :
    (confirmarEditar l pos n datos s).1.isSome = true ↔
      VuelveEscritura s.disco (s.disco.archivos l.posicion) n pos := by
  obtain ⟨hp, hdes, hvivo⟩ := leerPath_entrada hl hr hraiz
  obtain ⟨cad, hocu, hdesc⟩ := hd.ocupacion
  have hlibres := hocu.obtenerBloquesLibres_eq
  have hcadena : ∀ xs, Chain s.disco.asignaciones uint32Max
      (s.disco.archivos l.posicion).firstBlock xs ↔ xs = cad l.posicion := fun _ =>
    hdesc.chain_iff hocu hp hvivo
  have hfirst := ((hcadena _).mpr rfl).start_unique (hocu.fat.chain l.posicion)
  rcases Nat.lt_or_ge (u32 ((s.disco.archivos l.posicion).fileSize - pos +
      libres s.disco * 64)) (u32 n) with hcheck | hcheck
  · refine iff_of_true ?_ (.inl hcheck)
    rw [← hlibres] at hcheck
    rw [confirmarEditar_rechazado hr hdes hp hcheck]
    rfl
  have hiff : VuelveEscritura s.disco (s.disco.archivos l.posicion) n pos ↔
      max 1 (rondas n pos) ≤ (cad l.posicion).length + libres s.disco +
        relleno s.disco.header := by
    rw [VuelveEscritura, or_iff_right (Nat.not_lt.mpr hcheck)]
    simp only [hcadena, exists_eq_left]
  rw [hiff]
  rw [← hlibres] at hcheck
  rcases Nat.lt_or_ge ((cad l.posicion).length + libres s.disco) (max 1 (rondas n pos)) with
    hfalta | hneed
  · have h : Falta (editarArchivoInterna _ n pos datos) s _ _ :=
      falta_editarArchivoInterna hocu hfirst.symm hcheck hfalta (hocu.rondas_lt hmax)
    rw [confirmarEditar_entrada n pos datos hr hdes hp]
    constructor
    · intro hsome
      by_contra hno
      rw [Op.bind_fst_none (h.cae hno)] at hsome
      cases hsome
    · intro hay
      obtain ⟨r, s', hrun, _⟩ := h.vuelve hay
      rw [Op.bind_some hrun]
      split <;> rfl
  · obtain ⟨_, _, _, _, _, _, _, _, _, _, _, _, hrun⟩ :=
      confirmarEditar_partes datos hr hdes hp hocu hfirst.symm hcheck hneed rfl
    rw [hrun]
    exact iff_of_true rfl (by omega)

theorem osadaEditarArchivo_isSome (hd : BienFormado s.disco) (hmax : n + pos < 4294967296) :
    (osadaEditarArchivo basura path pos n datos s).1.isSome = true ↔
      path.Legible ∧ ¬ EsRaiz path ∧ SiExiste s.disco path fun e =>
        VuelveEscritura s.disco e n pos := by
  rcases hl : leerPath s.disco basura path with _ | l
  · have hleg : ¬ path.Legible := by
      rw [← leerPath_isSome s.disco basura path, hl]
      simp
    rw [osadaEditarArchivo, leer_bind_none hl]
    exact iff_of_false (by simp) fun h => hleg h.1
  have hleg : path.Legible := by
    rw [← leerPath_isSome s.disco basura path, hl]
    rfl
  rw [osadaEditarArchivo, leer_bind_some hl, and_iff_right hleg]
  by_cases hraiz : EsRaiz path
  · obtain ⟨hr, hdes, hfuera⟩ := leerPath_raiz_fuera hraiz hl
    rw [confirmarEditar_fuera hr hdes hfuera]
    exact iff_of_false (by simp) fun h => h.1 hraiz
  rw [and_iff_right hraiz, siExiste_iff hl hraiz]
  by_cases hr : l.resultado = .archivoExiste
  · rw [confirmarEditar_isSome hd hl hr hraiz hmax, forall_prop_of_true hr]
  · rw [confirmarEditar_otro hr]
    exact iff_of_true rfl fun h => absurd h hr

end Escritura

/-! ## Truncations -/

theorem confirmarTruncar_isSome {offset : ℕ} (hd : BienFormado s.disco)
    (hl : leerPath s.disco basura path = some l) (hr : l.resultado = .archivoExiste)
    (hraiz : ¬ EsRaiz path) (h : u32 ((s.disco.archivos l.posicion).fileSize + libres s.disco * 64) <
      u32 offset ∨ EntraTruncado s.disco (s.disco.archivos l.posicion) offset) :
    (confirmarTruncar l (i32 offset) s).1.isSome = true := by
  obtain ⟨hp, hdes, hvivo⟩ := leerPath_entrada hl hr hraiz
  obtain ⟨cad, hocu, hdesc⟩ := hd.ocupacion
  have hu : u32 (i32 offset) = u32 offset := u32_i32 offset
  rcases Nat.lt_or_ge (u32 ((s.disco.archivos l.posicion).fileSize +
      libres s.disco * 64)) (u32 offset) with hcheck | hcheck
  · rw [← hocu.obtenerBloquesLibres_eq, ← hu] at hcheck
    rw [confirmarTruncar_rechazado hr hdes hp hcheck]
    rfl
  · obtain ⟨xs, hx, hneed, hsize⟩ := h.resolve_left (Nat.not_lt.mpr hcheck)
    obtain rfl := (hdesc.chain_iff hocu hp hvivo).mp hx
    have hfirst := hx.start_unique (hocu.fat.chain l.posicion)
    have hi : i32 (u32 (i32 offset)) = i32 offset := by rw [hu, i32_u32]
    rw [← hocu.obtenerBloquesLibres_eq, ← hu] at hcheck
    have hn : u32 (i32 offset) ≤ (s.disco.archivos l.posicion).fileSize ∨
        0 ≤ i32 offset ∧ i32 offset < 2147483648 := by
      rw [hu]
      refine hsize.imp_right fun hlt => ?_
      rw [← i32_u32, i32_natCast_of_lt hlt]
      omega
    obtain ⟨r, s', hrun, _⟩ := returns_confirmarTruncar hr hdes hp hocu hfirst.symm hcheck hi hn
      hneed (q := 2048) (hocu.cad_eq_nil (by omega)) (by omega) rfl
    rw [hrun]
    rfl

/-- A truncation of a file is turned down or has its blocks. -/
theorem entra_of_regular {offset p : ℕ} (hd : BienFormado s.disco) (hp : p < 2048)
    (hreg : (s.disco.archivos p).state = .regular) :
    u32 ((s.disco.archivos p).fileSize + libres s.disco * 64) < u32 offset ∨
      EntraTruncado s.disco (s.disco.archivos p) offset := by
  obtain ⟨xs, hx, _, _, _⟩ := hd.cadena p hp hreg
  have harchivo : ArchivoEn s.disco p xs := ⟨hd, hp, hreg, hx⟩
  obtain ⟨hsize, hmax, _⟩ := harchivo.tamanio
  rcases Nat.lt_or_ge (u32 ((s.disco.archivos p).fileSize + libres s.disco * 64)) (u32 offset) with
    hcheck | hcheck
  · exact .inl hcheck
  · have hsuma : u32 ((s.disco.archivos p).fileSize + libres s.disco * 64) =
        (s.disco.archivos p).fileSize + libres s.disco * 64 := by
      unfold u32
      omega
    rw [hsuma] at hcheck
    have hlt : u32 offset < 2147483648 := by omega
    have hi : i32 offset = u32 offset := by rw [← i32_u32, i32_natCast_of_lt hlt]
    refine .inr ⟨xs, hx, ?_, .inr hlt⟩
    rw [hi]
    unfold bloquesDeTruncado bloquesPara
    split <;> omega

theorem osadaTruncarArchivo_isSome {offset : ℕ} (hd : BienFormado s.disco) (hleg : path.Legible)
    (hraiz : ¬ EsRaiz path) (hentra : (Pedido.truncarArchivo path offset).Entra s.disco) :
    (osadaTruncarArchivo basura path (i32 offset) s).1.isSome = true := by
  obtain ⟨l, hl⟩ := Option.isSome_iff_exists.mp ((leerPath_isSome s.disco basura path).mpr hleg)
  rw [osadaTruncarArchivo, leer_bind_some hl]
  by_cases hr : l.resultado = .archivoExiste
  · exact confirmarTruncar_isSome hd hl hr hraiz (SiExiste.of_leer hentra hl hr hraiz)
  · rw [confirmarTruncar_otro hr]
    rfl

/-! ## Reads -/

theorem cadenaDe_of_bienFormado {p : ℕ} (hd : BienFormado s.disco) (hp : p < 2048)
    (hreg : (s.disco.archivos p).state = .regular) :
    ∃ xs, CadenaDe s.disco (s.disco.archivos p) xs := by
  obtain ⟨xs, hx, _, hlt, halc⟩ := hd.cadena p hp hreg
  have harchivo : ArchivoEn s.disco p xs := ⟨hd, hp, hreg, hx⟩
  obtain ⟨hsize, hmax, _⟩ := harchivo.tamanio
  have hsuma := hd.suma
  have hchico := hd.chico
  refine ⟨xs, hx, hlt, halc, ?_, ?_⟩ <;> unfold uint32Max <;> omega

/-- A read of a file comes back if the chain goes on after what is read. -/
theorem osadaLeerArchivo_file_isSome {memoria : ℕ → UInt8} {e : OsadaFile} {xs : List ℕ}
    {n posicion : ℕ} (hl : leerPath s.disco basura path = some l)
    (hr : l.resultado = .archivoExiste) (hd : l.descriptor = some e) (hstate : e.state ≠ .directory)
    (hx : CadenaDe s.disco e xs) (hn : n < 2147483648) (hpos : posicion < 2147483648) :
    (osadaLeerArchivo basura memoria path n posicion s).1.isSome = true ↔
      xs ≠ [] ∧ Alcanza xs.length (largoRango e.fileSize n posicion) posicion := by
  have hin : i32 (n : ℤ) = n := i32_natCast_of_lt hn
  have hip : i32 (posicion : ℤ) = posicion := i32_natCast_of_lt hpos
  rw [osadaLeerArchivo_archivo hl hr hd hstate (by rw [hin]; omega), hin, hip, Option.isSome_map]
  by_cases hno : xs = [] ∨ ¬ Alcanza xs.length (largoRango e.fileSize n posicion) posicion
  · rw [hx.cae hn hpos hno]
    exact iff_of_false (by simp) fun h => hno.elim h.1 fun halc => halc h.2
  · obtain ⟨hne, halc⟩ := not_or.mp hno
    obtain ⟨archivo, indices, hrun, _⟩ := hx.lee hn hpos hne (not_not.mp halc)
    rw [hrun]
    exact iff_of_true rfl ⟨hne, not_not.mp halc⟩

end TpSo.Osada
