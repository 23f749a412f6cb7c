import TpSo.Osada.Listado
import TpSo.Osada.Refinamiento

/-!
# What the reads answer

An operation that only reads says what the tree of the file system has at its path. The bytes of a
file are read up to the last of its blocks.
-/

namespace TpSo.Osada

def tipoDeNodo : Node (List UInt8) → TipoArchivo
  | .dir => .directorio
  | .file _ => .archivo

/-- The attributes of what stands at a path. Those of a directory tell no size. -/
def AtributosDe : Option (Node (List UInt8)) → Option DirectoryAttr → Prop
  | none, atributos => atributos = none
  | some nodo, atributos => ∃ a, atributos = some a ∧ a.tipoArchivo = tipoDeNodo nodo ∧
      ∀ bytes, nodo = .file bytes → a.size = bytes.length

/-- The elements are the nodes below `cs`, each of them once. -/
structure ListaDe (arbol : FileTree (List UInt8) (List UInt8)) (cs : List (List UInt8))
    (elementos : List DirectoryElement) : Prop where
  tipo : ∀ c tipo, (∃ e ∈ elementos, getStringFromNombreOsada e.nombre = c ∧ e.tipoArchivo = tipo) ↔
    (arbol.node (cs ++ [c])).map tipoDeNodo = some tipo
  distintos : (elementos.map fun e => getStringFromNombreOsada e.nombre).Nodup

/-- The file has bytes, and the range is empty, past its end or over before its last block. -/
def AntesDelUltimo (size n posicion : ℕ) : Prop :=
  size ≠ 0 ∧ (n = 0 ∨ size ≤ posicion ∨ posicion + n ≤ 64 * ((size - 1) / 64))

instance (size n posicion : ℕ) : Decidable (AntesDelUltimo size n posicion) :=
  inferInstanceAs (Decidable (_ ∧ _))

/-- A read of `n` bytes from `posicion` on: of a file, if it comes back, the range, in memory that
holds `memoria`. -/
def leerNodo (memoria : ℕ → UInt8) (n posicion : ℕ) :
    Option (Node (List UInt8)) → Option (Option (List UInt8))
  | some (.file bytes) =>
    if AntesDelUltimo bytes.length n posicion then
      some (some (((bytes.drop posicion).take n ++ sinEscribir memoria n).take n))
    else none
  | _ => some none

section Lecturas
variable {s : Pokedex} {basura : OsadaFile} {memoria : ℕ → UInt8} {path : Cadena} {l : Lectura}
  {descriptor : OsadaFile} {p i : ℕ} {cs : List (List UInt8)} {c : List UInt8}

theorem cero_nombre (fname : List UInt8) : (0 : UInt8) ∉ getStringFromNombreOsada fname := by
  intro hmem
  unfold getStringFromNombreOsada at hmem
  have hne := List.all_eq_true.mp
    (List.all_takeWhile (p := (· ≠ 0)) (l := fname.take 17)) 0 hmem
  simp at hne

/-- The client reads in an element the name of its entry. -/
theorem nombre_elementoDe (archivo : OsadaFile) :
    getStringFromNombreOsada (elementoDe memoria archivo).nombre =
      getStringFromNombreOsada archivo.fname :=
  (nombre_strcpy _ (cero_nombre _)).trans (List.take_of_length_le (length_getString _))

/-- The descriptor that was read is that of a directory just if a directory stands there. -/
theorem descriptor_directorio (hl : leerPath s.disco basura path = some l)
    (hr : l.resultado = .archivoExiste) (hd : l.descriptor = some descriptor) :
    descriptor.state = .directory ↔ HayDirectorio s.disco l.posicion := by
  obtain ⟨e, hd', hpos, _⟩ := leerPath_existe hl hr
  obtain rfl := Option.some.inj (hd.symm.trans hd')
  rcases hpos with ⟨hbarra, rfl⟩ | ⟨hlt, rfl, _⟩
  · exact iff_of_true rfl (.inl hbarra)
  · constructor
    · exact fun hdir => .inr ⟨hlt, hdir⟩
    · intro hdir
      by_contra hno
      exact not_hayDirectorio hlt hno hdir

theorem tipo_de_nodoEn (hp : p < 2048) :
    tipoDeNodo (nodoEn s.disco p) = (s.disco.archivos p).state.tipoArchivo := by
  unfold OsadaFileState.tipoArchivo
  split
  · next hdir =>
    rw [nodoEn_dir (.inr ⟨hp, hdir⟩)]
    rfl
  · next hdir =>
    rw [nodoEn, if_neg (not_hayDirectorio hp hdir)]
    rfl

variable (basura) in
theorem existe_como (hleg : path.Legible) :
    (osadaExisteArchivo basura path s).1 =
      some (if ((sistema s).arbol.node (componentes path)).isSome = true then 0 else -1) := by
  obtain ⟨l, hl⟩ := Option.isSome_iff_exists.mp ((leerPath_isSome s.disco basura path).mpr hleg)
  rw [osadaExisteArchivo, leer_bind_some hl, sistema_arbol]
  simp only [leerPath_existe_iff hl]
  rfl

variable (basura) in
theorem Fiel.atributos_como (hs : Fiel s) (hleg : path.Legible) :
    ∃ atributos, (osadaGetAtributosArchivo basura path s).1 = some atributos ∧
      AtributosDe ((sistema s).arbol.node (componentes path)) atributos := by
  obtain ⟨l, hl⟩ := Option.isSome_iff_exists.mp ((leerPath_isSome s.disco basura path).mpr hleg)
  rw [osadaGetAtributosArchivo, leer_bind_some hl]
  by_cases hr : l.resultado = .archivoExiste
  · obtain ⟨e, hd, hpos, _⟩ := leerPath_existe hl hr
    rw [hr, hd, node_of_existe hl hr]
    refine ⟨_, rfl, _, rfl, ?_, fun bytes hbytes => ?_⟩
    · rcases hpos with ⟨hbarra, rfl⟩ | ⟨hlt, rfl, _⟩
      · rw [nodoEn_dir (.inl hbarra)]
        rfl
      · exact (tipo_de_nodoEn hlt).symm
    · obtain ⟨hlt, hreg, rfl⟩ := archivo_of_nodo (lleva_of_existe hl hr) hbytes
      obtain ⟨_, _, _, _, hsize⟩ := hs.archivoEn hlt hreg
      rcases hpos with ⟨hbarra, _⟩ | ⟨_, rfl, _⟩
      · exact absurd (hbarra ▸ hlt) (by decide)
      · exact hsize.symm
  · rw [node_of_no_existe hl hr]
    refine ⟨none, ?_, rfl⟩
    rcases l with ⟨_ | e, resultado, posicion⟩ <;> cases resultado <;> first | rfl | exact absurd rfl hr

/-- The entries of a directory are what stands below it. -/
theorem Fiel.tipo_hijo (hs : Fiel s) (hp : Lleva s.disco cs p) (c : List UInt8)
    (tipo : TipoArchivo) :
    ((sistema s).arbol.node (cs ++ [c])).map tipoDeNodo = some tipo ↔
      ∃ i ∈ hijos s.disco.archivos p, getStringFromNombreOsada (s.disco.archivos i).fname = c ∧
        (s.disco.archivos i).state.tipoArchivo = tipo := by
  rw [Option.map_eq_some_iff]
  constructor
  · rintro ⟨n, hn, rfl⟩
    obtain ⟨i, hi, rfl⟩ := vista_eq_some.mp hn
    obtain ⟨q, hq, hb⟩ := hi.of_concat
    obtain rfl := (bosque s.disco).end_unique hq hp
    exact ⟨i, mem_hijos.mpr ⟨hb.2.1.enTabla, hb.2.1.vivo, hb.2.1.padre⟩, hb.2.1.nombre,
      (tipo_de_nodoEn hb.2.1.enTabla).symm⟩
  · rintro ⟨i, hi, rfl, rfl⟩
    obtain ⟨hlt, hvivo, hpadre⟩ := mem_hijos.mp hi
    exact ⟨_, vista_of_lleva (hp.concat (hs.arbol.baja_iff.mpr ⟨hlt, hvivo, hpadre, rfl⟩)),
      tipo_de_nodoEn hlt⟩

variable (basura memoria) in
theorem Fiel.lista_como (hs : Fiel s) (hleg : path.Legible) :
    ∃ elementos, (osadaEstructuraDirectorio basura memoria path s).1 = some elementos ∧
      ListaDe (sistema s).arbol (componentes path) elementos := by
  obtain ⟨l, hl⟩ := Option.isSome_iff_exists.mp ((leerPath_isSome s.disco basura path).mpr hleg)
  have hnada : (sistema s).arbol.node (componentes path) ≠ some .dir →
      ListaDe (sistema s).arbol (componentes path) [] := by
    refine fun hno => ⟨fun c tipo => ?_, List.nodup_nil⟩
    rcases hn : (sistema s).arbol.node (componentes path ++ [c]) with _ | n
    · simp
    · exact absurd ((sistema s).arbol.dir_of_child (by rw [hn]; rfl)) hno
  rw [osadaEstructuraDirectorio, leer_bind_some hl]
  by_cases hr : l.resultado = .archivoExiste
  · obtain ⟨e, hd, _⟩ := leerPath_existe hl hr
    have hdir := descriptor_directorio hl hr hd
    have hnode := node_of_existe hl hr
    rw [hr, hd]
    change ∃ elementos, ((if e.state = .directory then _ else _ : Op Pokedex _) s).1 = _ ∧ _
    split
    · refine ⟨_, rfl, fun c tipo => ?_, ?_⟩
      · rw [hs.tipo_hijo (lleva_of_existe hl hr), listarDirectorio_eq, List.map_map]
        simp only [List.mem_map, Function.comp_apply, exists_exists_and_eq_and, nombre_elementoDe]
        rfl
      · rw [listarDirectorio_eq, List.map_map, List.map_map]
        refine List.Nodup.map_on (fun i hi j hj he => ?_) (List.nodup_range.filter _)
        simp only [Function.comp_apply, nombre_elementoDe] at he
        obtain ⟨hi, hvi, hpi⟩ := mem_hijos.mp hi
        obtain ⟨hj, hvj, hpj⟩ := mem_hijos.mp hj
        exact hs.arbol.unico i hi j hj hvi hvj (hpi.trans hpj.symm) he
    · next hno =>
      refine ⟨[], rfl, hnada ?_⟩
      rw [hnode, ne_eq, Option.some.injEq, nodoEn_eq_dir]
      exact mt hdir.mpr hno
  · refine ⟨[], ?_, hnada (by rw [node_of_no_existe hl hr]; simp)⟩
    rcases l with ⟨_ | e, resultado, posicion⟩ <;> cases resultado <;> first | rfl | exact absurd rfl hr

theorem Fiel.cadenaDe (hs : Fiel s) (hp : p < 2048)
    (hreg : (s.disco.archivos p).state = .regular) :
    ∃ xs, CadenaDe s.disco (s.disco.archivos p) xs ∧
      xs.length = bloquesPara (s.disco.archivos p).fileSize ∧
      (∀ b ∈ xs, (s.disco.inicio + b) * 64 < 4294967296) ∧
      (s.disco.archivos p).fileSize < 2147483648 := by
  obtain ⟨cad, hocu, _⟩ := hs.sano.bienFormado.ocupacion
  have hcadena := hocu.cadena hp hreg
  have hlargo := hs.justo p hp hreg _ hcadena
  have hmax := hocu.length_le p
  have hsuma := hocu.suma
  have hchico := hocu.chico
  unfold bloquesPara at hlargo
  refine ⟨cad p, ⟨hcadena, hocu.enRango p, hlargo.ge, ?_, ?_⟩, hlargo, fun b hb => ?_, by omega⟩
  · unfold uint32Max
    omega
  · unfold uint32Max
    omega
  · have hlt := hocu.enRango p b hb
    omega

theorem Fiel.largo_bytes (hs : Fiel s) {bytes : List UInt8}
    (h : (sistema s).arbol.node cs = some (.file bytes)) : bytes.length < 2147483648 := by
  obtain ⟨p, hp, hn⟩ := vista_eq_some.mp h
  obtain ⟨hlt, hreg, rfl⟩ := archivo_of_nodo hp hn
  obtain ⟨_, _, _, _, hsize⟩ := hs.archivoEn hlt hreg
  obtain ⟨_, _, _, _, hmax⟩ := hs.cadenaDe hlt hreg
  rwa [hsize]

/-- In a chain no longer than its file, a range that ends before the last block has one after it. -/
theorem antesDelUltimo_iff {size n posicion : ℕ} (hsize : size < 2147483648) :
    AntesDelUltimo size n posicion ↔ bloquesPara size ≠ 0 ∧
      Alcanza (bloquesPara size) (largoRango size n posicion) posicion := by
  unfold AntesDelUltimo Alcanza largoRango bloquesPara
  constructor
  · rintro ⟨hne, hn | hfin | hdentro⟩ <;> omega
  · rintro ⟨hne, halc | ⟨halc, _⟩⟩ <;> omega

variable (basura memoria) in
theorem Fiel.lee_como (hs : Fiel s) (hleg : path.Legible) {n posicion : ℕ} (hn : n < 2147483648)
    (hpos : posicion < 2147483648) :
    (osadaLeerArchivo basura memoria path n posicion s).1 =
      leerNodo memoria n posicion ((sistema s).arbol.node (componentes path)) := by
  obtain ⟨l, hl⟩ := Option.isSome_iff_exists.mp ((leerPath_isSome s.disco basura path).mpr hleg)
  have hin : i32 (n : ℤ) = n := i32_of_range (by omega) (by omega)
  have hip : i32 (posicion : ℤ) = posicion := i32_of_range (by omega) (by omega)
  by_cases hr : l.resultado = .archivoExiste
  · by_cases hdir : HayDirectorio s.disco l.posicion
    · rw [osadaLeerArchivo_otro hl fun e hr hd => (descriptor_directorio hl hr hd).mpr hdir,
        node_of_existe hl hr, nodoEn_dir hdir]
      rfl
    · obtain ⟨hp, hreg, hd, hnode⟩ := archivo_of_existe hl hr (by
        rw [node_of_existe hl hr, ne_eq, Option.some.injEq, nodoEn_eq_dir]
        exact hdir)
      obtain ⟨xs, hxs, hlargo, hchico, hsize⟩ := hs.cadenaDe hp hreg
      obtain ⟨ys, hys, _, hcontenido, hlen⟩ := hs.archivoEn hp hreg
      obtain rfl := hys.cadena.unique hxs.cadena
      rw [osadaLeerArchivo_archivo hl hr hd (by rw [hreg]; decide) (by omega), hin, hip, hnode,
        leerNodo, hlen]
      by_cases hantes : AntesDelUltimo (s.disco.archivos l.posicion).fileSize n posicion
      · rw [if_pos hantes]
        rw [antesDelUltimo_iff hsize, ← hlargo] at hantes
        obtain ⟨leido, accesos, hlee, hrango⟩ := (lectura_iff hxs hchico hn hpos).mpr
          ⟨by simpa using hantes.1, hantes.2⟩
        rw [hlee, Option.map_some, hrango, rango, hcontenido, Int.toNat_natCast]
      · rw [if_neg hantes]
        rw [antesDelUltimo_iff hsize, ← hlargo] at hantes
        rw [hxs.cae hn hpos (or_iff_not_imp_left.mpr fun hne halc =>
          hantes ⟨by simpa using hne, halc⟩)]
        rfl
  · rw [osadaLeerArchivo_otro hl fun e hr' => absurd hr' hr, node_of_no_existe hl hr]
    rfl

theorem Sistema.PasoDelSistema.det {a a₁ a₂ : Sistema} {e : Operacion × ℤ}
    (h₁ : Sistema.PasoDelSistema a e a₁) (h₂ : Sistema.PasoDelSistema a e a₂) : a₁ = a₂ :=
  h₁.2.trans h₂.2.symm

/-- After any run of calls the reads of the server say what the system that has taken the same
steps has at the path. -/
theorem lecturas_fieles {s' : Pokedex} {es : List (Operacion × ℤ)} {a : Sistema} (hs : Fiel s)
    (h : Run PasoEnRegla s es s') (ha : Run Sistema.PasoDelSistema (sistema s) es a)
    (hleg : path.Legible) :
    (osadaExisteArchivo basura path s').1 =
        some (if (a.arbol.node (componentes path)).isSome = true then 0 else -1) ∧
      (∃ atributos, (osadaGetAtributosArchivo basura path s').1 = some atributos ∧
        AtributosDe (a.arbol.node (componentes path)) atributos) ∧
      (∃ elementos, (osadaEstructuraDirectorio basura memoria path s').1 = some elementos ∧
        ListaDe a.arbol (componentes path) elementos) ∧
      ∀ n posicion : ℕ, n < 2147483648 → posicion < 2147483648 →
        (osadaLeerArchivo basura memoria path n posicion s').1 =
          leerNodo memoria n posicion (a.arbol.node (componentes path)) := by
  obtain ⟨hrun, hs'⟩ := corre h hs
  obtain rfl := hrun.det (fun _ _ _ _ h₁ h₂ => h₁.det h₂) ha
  exact ⟨existe_como basura hleg, hs'.atributos_como basura hleg, hs'.lista_como basura memoria hleg,
    fun _ _ => hs'.lee_como basura memoria hleg⟩

end Lecturas

theorem lee_creaAB {s : Pokedex} (hs : Fiel s)
    (h : (sistema s).arbol.node [[97], [98]] = some (.file bytesAB)) :
    (osadaLeerArchivo .borrado (fun _ => 0) rutaAB (3 : ℕ) (0 : ℕ) s).1 = some (some [1, 2, 3]) := by
  have hAB : componentes rutaAB = [[97], [98]] := by decide
  rw [hs.lee_como .borrado _ (.inr (by decide)) (by decide) (by decide), hAB, h]
  decide

theorem lecturas_fieles_chica : ∃ es s' elementos, es.map Prod.fst = creaAB ∧
    Run PasoEnRegla (.inicial discoChico) es s' ∧
      (osadaEstructuraDirectorio .borrado (fun _ => 0) rutaA s').1 = some elementos ∧
      (∃ e ∈ elementos, getStringFromNombreOsada e.nombre = [98] ∧ e.tipoArchivo = .archivo) ∧
      (osadaLeerArchivo .borrado (fun _ => 0) rutaAB (3 : ℕ) (0 : ℕ) s').1 =
        leerNodo (fun _ => 0) 3 0 (some (.file bytesAB)) := by
  have hA : componentes rutaA = [[97]] := by decide
  have hAB : componentes rutaAB = [[97], [98]] := by decide
  obtain ⟨es, s', hes, hrun, _, _, _, hnodo, _⟩ := corrida_creaAB
  have ha := (corre hrun fiel_discoChico).1
  obtain ⟨_, _, ⟨elementos, helementos, hlista⟩, _⟩ :=
    @lecturas_fieles _ .borrado (fun _ => 0) rutaA s' es _ fiel_discoChico hrun ha (.inr (by decide))
  obtain ⟨_, _, _, hlee⟩ :=
    @lecturas_fieles _ .borrado (fun _ => 0) rutaAB s' es _ fiel_discoChico hrun ha (.inr (by decide))
  refine ⟨es, s', elementos, hes, hrun, helementos, (hlista.tipo [98] .archivo).mpr ?_, ?_⟩
  · rw [hA]
    exact congrArg (Option.map tipoDeNodo) hnodo
  · rw [hlee 3 0 (by decide) (by decide), hAB, hnodo]

end TpSo.Osada
