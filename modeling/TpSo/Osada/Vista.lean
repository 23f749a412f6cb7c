import TpSo.Base.FileTree
import TpSo.Osada.Aislamiento
import TpSo.Osada.Contenidos
import TpSo.Osada.Nombres

/-!
# The tree that a disk holds

`vista d` is the tree of files and directories that the paths of `leerPath` lead through, with the
bytes of every file. What a change of the table of files does to it is one of the operations on
trees, as long as the parent pointers make a tree themselves.
-/

namespace TpSo.Osada

open Function (update)

theorem bosque (d : Disco) : Walk.Forest (Baja d) posicionBarra where
  det h h' := h.unique h'
  up h h' := ⟨h.padre_unico h', h.2.1.nombre.symm.trans h'.2.1.nombre⟩
  root := not_baja_raiz

instance (d : Disco) (p : ℕ) : Decidable (HayDirectorio d p) :=
  inferInstanceAs (Decidable (_ ∨ _ ∧ _))

open Classical in
/-- The bytes of the file at slot `p`. -/
noncomputable def bytesDe (d : Disco) (p : ℕ) : List UInt8 :=
  if h : ∃ bytes, TieneBytes d (d.archivos p) bytes then h.choose else []

noncomputable def nodoEn (d : Disco) (p : ℕ) : Node (List UInt8) :=
  if HayDirectorio d p then .dir else .file (bytesDe d p)

section Nodo
variable {d d' : Disco} {p : ℕ} {cs : List (List UInt8)} {n : Node (List UInt8)}

theorem TieneBytes.unique {e : OsadaFile} {bytes bytes' : List UInt8} (h : TieneBytes d e bytes)
    (h' : TieneBytes d e bytes') : bytes = bytes' := by
  obtain ⟨xs, hc, hle, hbytes⟩ := h
  exact hbytes.symm.trans ((tieneBytes_iff hc hle).mp h')

theorem bytesDe_eq {bytes : List UInt8} (h : TieneBytes d (d.archivos p) bytes) :
    bytesDe d p = bytes := by
  have hex : ∃ bytes, TieneBytes d (d.archivos p) bytes := ⟨bytes, h⟩
  rw [bytesDe, dif_pos hex]
  exact hex.choose_spec.unique h

theorem bytesDe_congr (h : ∀ bytes, TieneBytes d' (d'.archivos p) bytes ↔
    TieneBytes d (d.archivos p) bytes) : bytesDe d' p = bytesDe d p := by
  by_cases hex : ∃ bytes, TieneBytes d (d.archivos p) bytes
  · obtain ⟨bytes, hbytes⟩ := hex
    rw [bytesDe_eq hbytes, bytesDe_eq ((h bytes).mpr hbytes)]
  · have hex' : ¬ ∃ bytes, TieneBytes d' (d'.archivos p) bytes := fun hb =>
      hex (hb.imp fun bytes => (h bytes).mp)
    rw [bytesDe, bytesDe, dif_neg hex, dif_neg hex']

theorem nodoEn_dir (h : HayDirectorio d p) : nodoEn d p = .dir := if_pos h

theorem nodoEn_eq_dir : nodoEn d p = .dir ↔ HayDirectorio d p := by
  unfold nodoEn
  split
  · exact iff_of_true rfl ‹_›
  · exact iff_of_false (by simp) ‹_›

theorem not_hayDirectorio (hp : p < 2048) (h : (d.archivos p).state ≠ .directory) :
    ¬ HayDirectorio d p := by
  rintro (rfl | ⟨_, hdir⟩)
  · exact absurd hp (by decide)
  · exact h hdir

theorem nodoEn_file (hp : p < 2048) (hreg : (d.archivos p).state = .regular) :
    nodoEn d p = .file (bytesDe d p) :=
  if_neg (not_hayDirectorio hp (by rw [hreg]; decide))

end Nodo

open Classical in
noncomputable def vista (d : Disco) : FileTree (List UInt8) (List UInt8) where
  node cs := if h : ∃ p, Lleva d cs p then some (nodoEn d h.choose) else none
  root := by
    have h : ∃ p, Lleva d [] p := ⟨posicionBarra, .nil posicionBarra⟩
    rw [dif_pos h, (bosque d).end_unique h.choose_spec (.nil posicionBarra), nodoEn_dir (.inl rfl)]
  closed cs hcs := by
    split at hcs
    · next h =>
      obtain ⟨p, hp⟩ := h
      have hdir : ∃ q, Lleva d cs.dropLast q ∧ HayDirectorio d q := by
        rcases List.eq_nil_or_concat cs with rfl | ⟨ys, c, rfl⟩
        · exact ⟨posicionBarra, .nil posicionBarra, .inl rfl⟩
        · rw [List.concat_eq_append] at hp ⊢
          obtain ⟨q, hq, hb⟩ := hp.of_concat
          rw [List.dropLast_concat]
          exact ⟨q, hq, hb.1⟩
      obtain ⟨q, hq, hdir⟩ := hdir
      have hex : ∃ q, Lleva d cs.dropLast q := ⟨q, hq⟩
      rw [dif_pos hex, (bosque d).end_unique hex.choose_spec hq, nodoEn_dir hdir]
    · cases hcs

section Vista
variable {d d' : Disco} {p q : ℕ} {cs ps : List (List UInt8)} {n : Node (List UInt8)}

theorem vista_of_lleva (h : Lleva d cs p) : (vista d).node cs = some (nodoEn d p) := by
  have hex : ∃ p, Lleva d cs p := ⟨p, h⟩
  have hnode : (vista d).node cs = some (nodoEn d hex.choose) := dif_pos hex
  rw [hnode, (bosque d).end_unique hex.choose_spec h]

theorem vista_eq_none : (vista d).node cs = none ↔ ∀ p, ¬ Lleva d cs p := by
  constructor
  · intro h p hp
    rw [vista_of_lleva hp] at h
    cases h
  · intro h
    exact dif_neg (not_exists.mpr h)

theorem vista_eq_some : (vista d).node cs = some n ↔ ∃ p, Lleva d cs p ∧ nodoEn d p = n := by
  constructor
  · intro h
    by_cases hex : ∃ p, Lleva d cs p
    · obtain ⟨p, hp⟩ := hex
      rw [vista_of_lleva hp, Option.some.injEq] at h
      exact ⟨p, hp, h⟩
    · rw [vista_eq_none.mpr fun p hp => hex ⟨p, hp⟩] at h
      cases h
  · rintro ⟨p, hp, rfl⟩
    exact vista_of_lleva hp

theorem vista_isSome : ((vista d).node cs).isSome = true ↔ ∃ p, Lleva d cs p := by
  constructor
  · intro h
    obtain ⟨n, hn⟩ := Option.isSome_iff_exists.mp h
    obtain ⟨p, hp, _⟩ := vista_eq_some.mp hn
    exact ⟨p, hp⟩
  · rintro ⟨p, hp⟩
    rw [vista_of_lleva hp]
    rfl

/-- The same positions with the same nodes, be it under another path. -/
theorem vista_congr {rs : List (List UInt8)} (hlleva : ∀ a, Lleva d' cs a ↔ Lleva d rs a)
    (hnodo : ∀ a, Lleva d rs a → nodoEn d' a = nodoEn d a) :
    (vista d').node cs = (vista d).node rs := by
  by_cases hex : ∃ a, Lleva d rs a
  · obtain ⟨a, ha⟩ := hex
    rw [vista_of_lleva ((hlleva a).mpr ha), vista_of_lleva ha, hnodo a ha]
  · rw [vista_eq_none.mpr fun a ha => hex ⟨a, ha⟩,
      vista_eq_none.mpr fun a ha => hex ⟨a, (hlleva a).mp ha⟩]

end Vista

/-! ## Paths -/

/-- The components of a path that can be taken apart. -/
def componentes (path : Cadena) : List (List UInt8) :=
  if path.1 = [barra] then [] else (stringSplit path).getD []

section Path
variable {d : Disco} {basura : OsadaFile} {path : Cadena} {l : Lectura}

theorem componentes_raiz (h : EsRaiz path) : componentes path = [] := by
  unfold componentes
  split
  · rfl
  · next hbarra =>
    rw [stringSplit, h.resolve_left hbarra]
    rfl

theorem componentes_partes (hraiz : ¬ EsRaiz path) (hl : leerPath d basura path = some l) :
    stringSplit path = some (componentes path) ∧ componentes path ≠ [] := by
  have hbarra : path.1 ≠ [barra] := fun h => hraiz (.inl h)
  obtain ⟨partes, hpartes⟩ := partes_of_leerPath hbarra hl
  have heq : componentes path = partes := by
    rw [componentes, if_neg hbarra, hpartes]
    rfl
  rw [heq]
  exact ⟨hpartes, partes_ne_nil hraiz hpartes⟩

theorem componentes_eq_nil (hl : leerPath d basura path = some l) :
    componentes path = [] ↔ EsRaiz path := by
  constructor
  · intro h
    by_contra hraiz
    exact (componentes_partes hraiz hl).2 h
  · exact componentes_raiz

theorem lleva_of_existe (hl : leerPath d basura path = some l) (hr : l.resultado = .archivoExiste) :
    Lleva d (componentes path) l.posicion := by
  by_cases hraiz : EsRaiz path
  · rw [leerPath_raiz hraiz, Option.some.injEq] at hl
    rw [componentes_raiz hraiz, ← hl]
    exact .nil posicionBarra
  · exact (lleva_of_leerPath hraiz (componentes_partes hraiz hl).1 hl hr).2

theorem leerPath_existe_iff (hl : leerPath d basura path = some l) :
    l.resultado = .archivoExiste ↔ ((vista d).node (componentes path)).isSome = true := by
  rw [vista_isSome]
  constructor
  · exact fun hr => ⟨_, lleva_of_existe hl hr⟩
  · rintro ⟨q, hq⟩
    by_cases hraiz : EsRaiz path
    · rw [leerPath_raiz hraiz, Option.some.injEq] at hl
      rw [← hl]
      rfl
    · obtain ⟨hpartes, hne⟩ := componentes_partes hraiz hl
      have hbarra : path.1 ≠ [barra] := fun h => hraiz (.inl h)
      rw [(leerPath_clasifica hbarra hpartes hne hl).existe q hq]

/-- What is missing only its last component is an empty place in a directory. -/
theorem leerPath_falta_iff (hl : leerPath d basura path = some l) :
    l.resultado = .archivoNoPathValido ↔ (vista d).Vacant (componentes path) := by
  constructor
  · intro hr
    obtain ⟨previas, nombre, _, hpartes, _, hlleva, hdir, hno⟩ := leerPath_falta hl hr
    have hcs := Option.some.inj
      ((componentes_partes (not_raiz_of_falta hl hr) hl).1.symm.trans hpartes)
    rw [hcs]
    refine ⟨vista_eq_none.mpr fun p hp => ?_, ?_⟩
    · obtain ⟨q, hq, hb⟩ := hp.of_concat
      rw [(bosque d).end_unique hq hlleva] at hb
      exact hno p hb.2.1
    · rw [List.dropLast_concat, vista_of_lleva hlleva, nodoEn_dir hdir]
  · intro hv
    have hraiz : ¬ EsRaiz path := fun h => hv.ne_nil (componentes_raiz h)
    obtain ⟨hpartes, hne⟩ := componentes_partes hraiz hl
    have hbarra : path.1 ≠ [barra] := fun h => hraiz (.inl h)
    have hclas := leerPath_clasifica hbarra hpartes hne hl
    obtain ⟨previas, nombre, hcs⟩ := (List.eq_nil_or_concat' _).resolve_left hne
    obtain ⟨q, hq, hdir⟩ := vista_eq_some.mp hv.parent
    rw [hcs] at hclas hv
    rw [hcs, List.dropLast_concat] at hq
    have hdir' := nodoEn_eq_dir.mp hdir
    rw [hclas.falta q ⟨previas, nombre, rfl, hq, hdir', fun i hi => ?_⟩]
    -- an entry of that name would be found, it or one before it
    rcases hfirst : obtenerEstructuraDeArchivo d q nombre with _ | j
    · exact obtenerEstructuraDeArchivo_eq_none.mp hfirst i hi
    · exact vista_eq_none.mp hv.empty j
        (hq.concat ⟨hdir', obtenerEstructuraDeArchivo_iff.mp hfirst⟩)

/-- The directory and the name of such a path. -/
theorem componentes_falta (hl : leerPath d basura path = some l)
    (hr : l.resultado = .archivoNoPathValido) :
    ∃ previas nombre, componentes path = previas ++ [nombre] ∧
      obtenerNombreDeArchivoDePath path = some nombre ∧ (0 : UInt8) ∉ nombre ∧
      Lleva d previas l.posicion ∧ HayDirectorio d l.posicion ∧
      ∀ i, ¬ Coincide d l.posicion nombre i := by
  obtain ⟨previas, nombre, _, hpartes, hn, hlleva, hdir, hno⟩ := leerPath_falta hl hr
  obtain ⟨_, _, _, _, hn', _, hcero, _⟩ := leerPath_noPathValido hl hr
  obtain rfl := Option.some.inj (hn.symm.trans hn')
  exact ⟨previas, nombre, Option.some.inj
    ((componentes_partes (not_raiz_of_falta hl hr) hl).1.symm.trans hpartes), hn, hcero, hlleva,
    hdir, hno⟩

end Path

/-! ## The tree after a change of the table -/

theorem hayDirectorio_of_enArbol {d : Disco} {a : ℕ} (h : EnArbol d.archivos a) :
    HayDirectorio d a := by
  cases h with
  | root => exact .inl rfl
  | step hnode _ => exact .inr hnode

theorem Arbol.hayDirectorio {d : Disco} (h : Arbol d.archivos) {p a : ℕ} {c : List UInt8}
    (hc : Coincide d a c p) : HayDirectorio d a := by
  have hup := h.alcanza p hc.enTabla hc.vivo
  rw [hc.padre] at hup
  exact hayDirectorio_of_enArbol hup

theorem Arbol.baja_iff {d : Disco} (h : Arbol d.archivos) {p a : ℕ} {c : List UInt8} :
    Baja d a c p ↔ Coincide d a c p := by
  constructor
  · exact fun hb => hb.2.1
  · refine fun hc => ⟨h.hayDirectorio hc, hc, fun j hj hcj => hj.ne ?_⟩
    exact h.unico j hcj.enTabla p hc.enTabla hcj.vivo hc.vivo (hcj.padre.trans hc.padre.symm)
      (hcj.nombre.trans hc.nombre.symm)

/-- Another content for entry `p`, whatever else its descriptor says. -/
structure MismaForma (d d' : Disco) : Prop where
  state : ∀ i, (d'.archivos i).state = (d.archivos i).state
  padre : ∀ i, (d'.archivos i).parentDirectory = (d.archivos i).parentDirectory
  nombre : ∀ i, (d'.archivos i).nombre = (d.archivos i).nombre

section Forma
variable {d d' : Disco} (h : MismaForma d d')
include h

theorem MismaForma.hayDirectorio (p : ℕ) : HayDirectorio d' p ↔ HayDirectorio d p := by
  unfold HayDirectorio
  rw [h.state]

theorem MismaForma.coincide (p : ℕ) (c : List UInt8) (i : ℕ) :
    Coincide d' p c i ↔ Coincide d p c i := by
  have hnombre := h.nombre i
  unfold OsadaFile.nombre at hnombre
  rw [coincide_iff, coincide_iff, h.state, h.padre, hnombre]

theorem MismaForma.baja : Baja d' = Baja d := by
  funext p c i
  unfold Baja EsPrimera
  simp only [h.hayDirectorio, h.coincide]

theorem MismaForma.arbol (ha : Arbol d.archivos) : Arbol d'.archivos where
  alcanza i hi hvivo := by
    rw [OsadaFile.Vivo, h.state] at hvivo
    rw [h.padre]
    refine (ha.alcanza i hi hvivo).congr fun b hb => ⟨?_, h.padre b⟩
    rw [EsDirectorio, h.state]
    exact hb
  unico i hi j hj hvi hvj hpadre hnombre := by
    rw [OsadaFile.Vivo, h.state] at hvi hvj
    rw [h.padre, h.padre] at hpadre
    rw [h.nombre, h.nombre] at hnombre
    exact ha.unico i hi j hj hvi hvj hpadre hnombre

theorem MismaForma.vista_write {p : ℕ} {cs : List (List UInt8)} (hp : Lleva d cs p)
    (hotros : ∀ a rs, Lleva d rs a → a ≠ p → nodoEn d' a = nodoEn d a) :
    vista d' = (vista d).write cs (bytesDe d' p) := by
  have hlleva : ∀ rs a, Lleva d' rs a ↔ Lleva d rs a := by
    intro rs a
    rw [Lleva, h.baja]
  ext1 rs
  rcases eq_or_ne rs cs with rfl | hne
  · rw [vista_of_lleva ((hlleva rs p).mpr hp)]
    rw [FileTree.write_node_self, vista_of_lleva hp]
    by_cases hdir : HayDirectorio d p
    · rw [nodoEn_dir hdir, nodoEn_dir ((h.hayDirectorio p).mpr hdir)]
      rfl
    · rw [nodoEn, nodoEn, if_neg hdir, if_neg (mt (h.hayDirectorio p).mp hdir)]
      rfl
  · rw [FileTree.write_node_of_ne hne]
    refine vista_congr (hlleva rs) fun a ha => hotros a rs ha ?_
    rintro rfl
    exact hne ((bosque d).labels_unique ha hp)

theorem MismaForma.vista_eq (hnodos : ∀ a rs, Lleva d rs a → nodoEn d' a = nodoEn d a) :
    vista d' = vista d := by
  ext1 rs
  refine vista_congr (fun a => ?_) fun a ha => hnodos a rs ha
  rw [Lleva, h.baja]

end Forma

section Recoloca
variable {d d' : Disco} {p q : ℕ} {nombre : List UInt8} {previas : List (List UInt8)}

theorem Recoloca.relinked (h : Recoloca d d' p q nombre) (ha : Arbol d.archivos)
    (hq : HayDirectorio d q) : Walk.Relinked (Baja d) (Baja d') p q nombre where
  edge := by
    intro a c j
    constructor
    · intro hb
      rcases eq_or_ne j p with rfl | hne
      · exact .inr ⟨rfl, hb.2.1.padre.symm.trans h.padre, hb.2.1.nombre.symm.trans h.nombre⟩
      · exact .inl ⟨hne, ha.baja_iff.mpr ((h.coincide_otro hne).mp hb.2.1)⟩
    · rintro (⟨hne, hb⟩ | ⟨rfl, rfl, rfl⟩)
      · exact h.baja hb hne
      · exact h.baja_nuevo hq
  free := fun hb => h.libre _ hb.2.1

theorem Recoloca.vista_insert (h : Recoloca d d' p q nombre) (ha : Arbol d.archivos)
    (hdel : (d.archivos p).state = .deleted) (hprevias : Lleva d previas q)
    (hq : HayDirectorio d q) {n : Node (List UInt8)} (hn : nodoEn d' p = n)
    (hotros : ∀ a rs, Lleva d rs a → a ≠ p → nodoEn d' a = nodoEn d a)
    {cs : List (List UInt8)} (hcs : cs = previas ++ [nombre]) (hv : (vista d).Vacant cs) :
    vista d' = (vista d).insert cs n hv := by
  subst hcs hn
  have hrel := h.relinked ha hq
  have hraiz : p ≠ posicionBarra := fun he => absurd (he ▸ h.enTabla) (by decide)
  have hfuera : ∀ zs, ¬ Lleva d zs p := by
    intro zs hz
    rcases eq_or_ne zs [] with rfl | hne
    · cases hz
      exact hraiz rfl
    · exact (vivo_of_walk hz hne).2 hdel
  have hplaced := hrel.placed hprevias fun zs _ => hfuera zs
  ext1 rs
  rcases eq_or_ne rs (previas ++ [nombre]) with rfl | hne
  · rw [FileTree.insert_node_self, vista_of_lleva hplaced]
  · rw [FileTree.insert_node_of_ne _ hne]
    by_cases hpre : previas ++ [nombre] <+: rs
    · rw [FileTree.none_of_none hv.empty hpre]
      obtain ⟨s, rfl⟩ := hpre
      refine vista_eq_none.mpr fun a hw => ?_
      have hno : ∀ zs b, zs ≠ [] → ¬ Walk (Baja d) p zs b := by
        intro zs b hzs hz
        cases hz with
        | nil => exact hzs rfl
        | cons hb _ => exact not_hayDirectorio h.enTabla (by rw [hdel]; decide) hb.1
      have hw' := (hrel.below_iff hprevias (fun zs _ => hfuera zs) (bosque d) hraiz
        fun zs hzs => hno zs p hzs).mp hw
      refine hno s a ?_ hw'
      rintro rfl
      exact hne (List.append_nil _)
    · refine vista_congr (fun a => ?_) fun a hw => hotros a rs hw fun he => hfuera rs (he ▸ hw)
      rw [Lleva, hrel.elsewhere_iff hprevias (fun zs _ => hfuera zs) (bosque d) hraiz hpre]
      exact and_iff_left fun zs _ => hfuera zs

theorem Recoloca.vista_move (h : Recoloca d d' p q nombre) (ha : Arbol d.archivos)
    {ps : List (List UInt8)} (hp : Lleva d ps p) (hprevias : Lleva d previas q)
    (hq : HayDirectorio d q) (hnodos : ∀ a rs, Lleva d rs a → nodoEn d' a = nodoEn d a)
    {cs : List (List UInt8)} (hcs : cs = previas ++ [nombre]) (hm : (vista d).Movable ps cs) :
    vista d' = (vista d).move ps cs hm := by
  subst hcs
  have hrel := h.relinked ha hq
  have hraiz : p ≠ posicionBarra := fun he => absurd (he ▸ h.enTabla) (by decide)
  have hpaso : ∀ rs zs, zs <+: rs → Lleva d zs p → ps <+: rs := fun rs zs hpre hz =>
    (bosque d).labels_unique hz hp ▸ hpre
  have hfuera : ∀ zs, zs <+: previas → ¬ Lleva d zs p := fun zs hpre hz =>
    hm.outside ((hpaso previas zs hpre hz).trans (List.prefix_append _ _))
  ext1 rs
  rw [FileTree.move_node]
  by_cases hpre : previas ++ [nombre] <+: rs
  · obtain ⟨s, rfl⟩ := hpre
    rw [FileTree.movedNode_below]
    have hbelow : ∀ a, Lleva d' (previas ++ [nombre] ++ s) a ↔ Lleva d (ps ++ s) a := by
      intro a
      rw [Lleva, hrel.below_iff hprevias hfuera (bosque d) hraiz fun zs hzs =>
        (bosque d).not_closed hp hzs]
      exact ⟨hp.append, (bosque d).through hp⟩
    exact vista_congr hbelow fun a => hnodos a (ps ++ s)
  · have helse : ∀ a, Lleva d' rs a ↔ Lleva d rs a ∧ ∀ zs, zs <+: rs → ¬ Lleva d zs p := fun a =>
      hrel.elsewhere_iff hprevias hfuera (bosque d) hraiz hpre
    by_cases hps : ps <+: rs
    · rw [FileTree.movedNode_source hpre hps]
      exact vista_eq_none.mpr fun a hw => ((helse a).mp hw).2 ps hps hp
    · rw [FileTree.movedNode_other hpre hps]
      refine vista_congr (fun a => ?_) fun a => hnodos a rs
      rw [helse]
      exact and_iff_left fun zs hz hzp => hps (hpaso rs zs hz hzp)

end Recoloca

theorem vista_remove {d d' : Disco} {p : ℕ} {e : OsadaFile} {ps : List (List UInt8)}
    (ha : Arbol d.archivos) (hp : Lleva d ps p) (hne : ps ≠ [])
    (harchivos : d'.archivos = update d.archivos p e) (hdel : e.state = .deleted)
    (hhijos : ∀ c i, ¬ Coincide d p c i)
    (hotros : ∀ a rs, Lleva d rs a → a ≠ p → nodoEn d' a = nodoEn d a)
    (hc : (vista d).Childless ps) : vista d' = (vista d).remove ps hne hc := by
  have hraiz : p ≠ posicionBarra := fun he =>
    absurd (he ▸ (vivo_of_walk hp hne).1) (by decide)
  have hcoincide : ∀ a c j, Coincide d' a c j ↔ j ≠ p ∧ Coincide d a c j := by
    intro a c j
    rcases eq_or_ne j p with rfl | hj
    · refine iff_of_false (fun h => h.vivo ?_) fun h => h.1 rfl
      rw [harchivos, Function.update_self, hdel]
    · rw [coincide_iff, coincide_iff, harchivos, Function.update_of_ne hj]
      exact (and_iff_right hj).symm
  have hbaja : ∀ {a c j}, Baja d' a c j ↔ j ≠ p ∧ Baja d a c j := by
    intro a c j
    constructor
    · intro hb
      obtain ⟨hj, hc⟩ := (hcoincide a c j).mp hb.2.1
      exact ⟨hj, ha.baja_iff.mpr hc⟩
    · rintro ⟨hj, hb⟩
      refine ⟨?_, (hcoincide a c j).mpr ⟨hj, hb.2.1⟩, fun k hk hc =>
        hb.2.2 k hk ((hcoincide a c k).mp hc).2⟩
      have hap : a ≠ p := fun he => hhijos c j (he ▸ hb.2.1)
      refine hb.1.imp_right fun hdir => ?_
      rwa [harchivos, Function.update_of_ne hap]
  have hlleva : ∀ rs a, Lleva d' rs a ↔ Lleva d rs a ∧ ∀ zs, zs <+: rs → ¬ Lleva d zs p :=
    fun rs a => (bosque d).unlinked_iff hbaja hraiz
  ext1 rs
  rcases eq_or_ne rs ps with rfl | hrs
  · rw [FileTree.remove_node_self]
    exact vista_eq_none.mpr fun a hw => ((hlleva rs a).mp hw).2 rs (List.prefix_refl rs) hp
  · rw [FileTree.remove_node_of_ne _ _ hrs]
    have hpaso : ∀ a, Lleva d rs a → ∀ zs, zs <+: rs → ¬ Lleva d zs p := by
      intro a hw zs hpre hz
      obtain rfl := (bosque d).labels_unique hz hp
      exact hrs (hc.eq_of_isSome (vista_isSome.mpr ⟨a, hw⟩) hpre)
    refine vista_congr (fun a => ?_) fun a hw => hotros a rs hw ?_
    · rw [hlleva]
      exact ⟨And.left, fun hw => ⟨hw, hpaso a hw⟩⟩
    · rintro rfl
      exact hpaso a hw rs (List.prefix_refl rs) hw

end TpSo.Osada
