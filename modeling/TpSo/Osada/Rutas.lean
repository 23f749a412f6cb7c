import TpSo.Base.Op
import TpSo.Base.Walk
import TpSo.Osada.Formateo
import TpSo.Osada.Ruta

/-!
# What a path leads to

A path with the components `cs` is a walk down the table, one component a step: each one is the
first live entry of that name in the directory reached so far. The loop of `leerPath` is here with
its two flags and its index into the array of components, every access to which is recorded.
-/

namespace TpSo.Osada

/-! ## The components of a path -/

/-- The path `/c1/…/cn`. -/
structure EsRuta (path : Cadena) (cs : List (List UInt8)) : Prop where
  bytes : path.1 = cs.flatMap (barra :: ·)
  partes : ∀ c ∈ cs, c ≠ [] ∧ barra ∉ c

theorem partirTexto_nil (n : ℕ) : partirTexto n [] = some [] := by
  cases n <;> rfl

section Componente
variable {c : List UInt8} (hbarra : barra ∉ c) (cs : List (List UInt8))
include hbarra

theorem takeWhile_componente :
    (c ++ cs.flatMap (barra :: ·)).takeWhile (· ≠ barra) = c := by
  have htodos : ∀ b ∈ c, decide (b ≠ barra) = true := fun b hb =>
    decide_eq_true fun he => hbarra (he ▸ hb)
  rw [List.takeWhile_append_of_pos htodos]
  cases cs <;> simp

theorem dropWhile_componente :
    (c ++ cs.flatMap (barra :: ·)).dropWhile (· ≠ barra) = cs.flatMap (barra :: ·) := by
  have htodos : ∀ b ∈ c, decide (b ≠ barra) = true := fun b hb =>
    decide_eq_true fun he => hbarra (he ▸ hb)
  rw [List.dropWhile_append_of_pos htodos]
  cases cs <;> simp

end Componente

/-- The split of a text, after its first separator or before it. The induction is on the
components. -/
theorem partirTexto_eq {cs : List (List UInt8)} (hcs : ∀ c ∈ cs, c ≠ [] ∧ barra ∉ c) :
    ∀ {n : ℕ} {texto : List UInt8}, texto.length ≤ n →
      (texto = cs.flatMap (barra :: ·) ∨ barra :: texto = cs.flatMap (barra :: ·)) →
      partirTexto n texto = some cs := by
  induction cs with
  | nil =>
    intro n texto _ htexto
    rcases htexto with rfl | hc
    · exact partirTexto_nil n
    · exact absurd hc (List.cons_ne_nil _ _)
  | cons c cs ih =>
    intro n texto hn htexto
    obtain ⟨hne, hbarra⟩ := hcs c List.mem_cons_self
    obtain ⟨b, bs, rfl⟩ := List.exists_cons_of_ne_nil hne
    have hb : b ≠ barra := fun he => hbarra (he ▸ List.mem_cons_self)
    rw [List.flatMap_cons, List.cons_append] at htexto
    have hstr : texto.dropWhile (· = barra) = (b :: bs) ++ cs.flatMap (barra :: ·) := by
      rcases htexto with rfl | hc
      · rw [List.dropWhile_cons_of_pos (by simp), List.cons_append,
          List.dropWhile_cons_of_neg (by simpa using hb)]
      · rw [(List.cons.inj hc).2, List.cons_append,
          List.dropWhile_cons_of_neg (by simpa using hb)]
    have hnil : texto ≠ [] := by
      rintro rfl
      simp at hstr
    have hlargo : (cs.flatMap (barra :: ·)).length < texto.length := by
      have hle := (List.dropWhile_sublist (· = barra) (l := texto)).length_le
      rw [hstr, List.length_append, List.length_cons] at hle
      omega
    cases n with
    | zero => exact absurd (Nat.le_zero.mp hn) (List.length_pos_iff.mpr hnil).ne'
    | succ n =>
      have hsigue : partirTexto n ((cs.flatMap (barra :: ·)).drop 1) = some cs := by
        apply ih fun c' hc' => hcs c' (List.mem_cons_of_mem _ hc')
        · rw [List.length_drop]
          omega
        · cases cs with
          | nil => exact .inl rfl
          | cons c' cs => exact .inr rfl
      rw [partirTexto, if_neg hnil]
      simp only
      rw [hstr, if_neg (List.append_ne_nil_of_left_ne_nil hne _), takeWhile_componente hbarra,
        dropWhile_componente hbarra, hsigue]
      rfl

theorem EsRuta.stringSplit {path : Cadena} {cs : List (List UInt8)} (h : EsRuta path cs) :
    stringSplit path = some cs :=
  partirTexto_eq h.partes (le_refl _) (.inl h.bytes)

theorem EsRuta.ne_barra {path : Cadena} {cs : List (List UInt8)} (h : EsRuta path cs) :
    path.1 ≠ [barra] := by
  rw [h.bytes]
  rcases cs with _ | ⟨c, cs⟩
  · simp
  · obtain ⟨b, bs, rfl⟩ := List.exists_cons_of_ne_nil (h.partes c List.mem_cons_self).1
    simp

/-! ## Walking down the table -/

/-- A live entry with that parent and that name. -/
structure Coincide (d : Disco) (padre : ℕ) (nombre : List UInt8) (i : ℕ) : Prop where
  enTabla : i < 2048
  vivo : (d.archivos i).state ≠ .deleted
  padre : (d.archivos i).parentDirectory = padre
  nombre : getStringFromNombreOsada (d.archivos i).fname = nombre

/-- The first of them in the table. -/
def EsPrimera (d : Disco) (padre : ℕ) (nombre : List UInt8) (i : ℕ) : Prop :=
  Coincide d padre nombre i ∧ ∀ j < i, ¬ Coincide d padre nombre j

/-- The root, or an entry that is a directory. -/
def HayDirectorio (d : Disco) (p : ℕ) : Prop :=
  p = posicionBarra ∨ p < 2048 ∧ (d.archivos p).state = .directory

/-- One component of a path. -/
def Baja (d : Disco) (p : ℕ) (c : List UInt8) (i : ℕ) : Prop := HayDirectorio d p ∧ EsPrimera d p c i

/-- The components `cs` lead from the root to `p`, through directories. -/
abbrev Lleva (d : Disco) (cs : List (List UInt8)) (p : ℕ) : Prop :=
  Walk (Baja d) posicionBarra cs p

section Baja
variable {d : Disco} {p q i : ℕ} {c c' : List UInt8}

theorem coincide_iff : Coincide d p c i ↔ i < 2048 ∧
    (getStringFromNombreOsada (d.archivos i).fname = c ∧ (d.archivos i).state ≠ .deleted ∧
      (d.archivos i).parentDirectory = p) := by
  constructor
  · exact fun h => ⟨h.enTabla, h.nombre, h.vivo, h.padre⟩
  · exact fun ⟨hi, hn, hv, hp⟩ => ⟨hi, hv, hp, hn⟩

theorem obtenerEstructuraDeArchivo_iff :
    obtenerEstructuraDeArchivo d p c = some i ↔ EsPrimera d p c i := by
  rw [obtenerEstructuraDeArchivo, List.find?_range_eq_some, EsPrimera, coincide_iff]
  constructor
  · rintro ⟨hi, hlt, hantes⟩
    refine ⟨⟨List.mem_range.mp hlt, of_decide_eq_true hi⟩, fun j hj hc => ?_⟩
    have hno := hantes j hj
    rw [Bool.not_eq_true', decide_eq_false_iff_not] at hno
    exact hno (coincide_iff.mp hc).2
  · rintro ⟨⟨hlt, hi⟩, hantes⟩
    refine ⟨decide_eq_true hi, List.mem_range.mpr hlt, fun j hj => ?_⟩
    rw [Bool.not_eq_true', decide_eq_false_iff_not]
    exact fun hc => hantes j hj (coincide_iff.mpr ⟨hj.trans hlt, hc⟩)

theorem obtenerEstructuraDeArchivo_eq_none :
    obtenerEstructuraDeArchivo d p c = none ↔ ∀ i, ¬ Coincide d p c i := by
  rw [obtenerEstructuraDeArchivo_none]
  constructor
  · exact fun h i hc => h i hc.enTabla hc.nombre hc.vivo hc.padre
  · exact fun h i hi hn hv hp => h i ⟨hi, hv, hp, hn⟩

theorem Baja.unique (h : Baja d p c i) (h' : Baja d p c q) : i = q := by
  have hi := obtenerEstructuraDeArchivo_iff.mpr h.2
  exact Option.some.inj (hi.symm.trans (obtenerEstructuraDeArchivo_iff.mpr h'.2))

theorem Baja.padre_unico (h : Baja d p c i) (h' : Baja d q c' i) : p = q :=
  h.2.1.padre.symm.trans h'.2.1.padre

theorem not_baja_raiz : ¬ Baja d p c posicionBarra := fun h =>
  absurd h.2.1.enTabla (by decide)

theorem Lleva.unique {cs : List (List UInt8)} (h : Lleva d cs p) (h' : Lleva d cs q) : p = q :=
  Walk.unique (fun h h' => h.unique h') h h'

theorem Lleva.length_eq {cs cs' : List (List UInt8)} (h : Lleva d cs p) (h' : Lleva d cs' p) :
    cs.length = cs'.length :=
  Walk.length_eq (fun h h' => h.padre_unico h') not_baja_raiz h h'

end Baja

/-! ## What `leerPath` says -/

section Leer
variable {d : Disco} {basura : OsadaFile}

/-- The directory that would hold the last of the components, which is missing. -/
def FaltaUltima (d : Disco) (p : ℕ) (cs : List (List UInt8)) (q : ℕ) : Prop :=
  ∃ previas c, cs = previas ++ [c] ∧ Walk (Baja d) p previas q ∧ HayDirectorio d q ∧
    ∀ i, ¬ Coincide d q c i

/-- What is said of the components `cs` below `p`. -/
structure Clasifica (d : Disco) (p : ℕ) (cs : List (List UInt8)) (l : Lectura) : Prop where
  existe : ∀ q, Walk (Baja d) p cs q → l = ⟨some (d.archivos q), .archivoExiste, q⟩
  falta : ∀ q, FaltaUltima d p cs q → l = ⟨none, .archivoNoPathValido, q⟩
  otro : (¬ ∃ q, Walk (Baja d) p cs q) → (¬ ∃ q, FaltaUltima d p cs q) →
    l.resultado = .pathInvalido

theorem hayDirectorio_iff {p : ℕ} {e : OsadaFile} (he : EnPosicion d basura p e) :
    HayDirectorio d p ↔ e.state ≠ .regular := by
  rcases he with ⟨rfl, rfl⟩ | ⟨hlt, rfl, hvivo⟩
  · exact iff_of_true (.inl rfl) (by simp [descriptorRaiz])
  · have hne : p ≠ posicionBarra := fun he => absurd (he ▸ hlt) (by decide)
    constructor
    · rintro (he | ⟨_, hdir⟩)
      · exact absurd he hne
      · rw [hdir]
        decide
    · intro hreg
      refine .inr ⟨hlt, ?_⟩
      cases hs : (d.archivos p).state with
      | deleted => exact absurd hs hvivo
      | regular => exact absurd hs hreg
      | directory => rfl

theorem faltaUltima_cons {p q : ℕ} {c c' : List UInt8} {cs : List (List UInt8)} :
    FaltaUltima d p (c :: c' :: cs) q ↔ ∃ i, Baja d p c i ∧ FaltaUltima d i (c' :: cs) q := by
  constructor
  · rintro ⟨previas, u, heq, hw, hdir, hno⟩
    cases hw with
    | nil => simp at heq
    | @cons _ i _ x previas hb hw =>
      rw [List.cons_append] at heq
      obtain ⟨rfl, hresto⟩ := List.cons.inj heq
      exact ⟨i, hb, previas, u, hresto, hw, hdir, hno⟩
  · rintro ⟨i, hb, previas, u, heq, hw, hdir, hno⟩
    exact ⟨c :: previas, u, by rw [heq, List.cons_append], .cons hb hw, hdir, hno⟩

theorem faltaUltima_singleton {p q : ℕ} {c : List UInt8} :
    FaltaUltima d p [c] q ↔ p = q ∧ HayDirectorio d p ∧ ∀ i, ¬ Coincide d p c i := by
  constructor
  · rintro ⟨previas, u, heq, hw, hdir, hno⟩
    cases hw with
    | nil =>
      obtain ⟨rfl, _⟩ := List.cons.inj heq
      exact ⟨rfl, hdir, hno⟩
    | cons _ _ => simp at heq
  · rintro ⟨rfl, hdir, hno⟩
    exact ⟨[], c, rfl, .nil p, hdir, hno⟩

theorem clasifica_sin_directorio {c : List UInt8} {cs : List (List UInt8)} {p : ℕ} {l : Lectura}
    (hp : ¬ HayDirectorio d p) (hl : l.resultado = .pathInvalido) : Clasifica d p (c :: cs) l where
  existe q hw := by
    cases hw with
    | cons hb _ => exact absurd hb.1 hp
  falta q hf := by
    obtain ⟨previas, u, heq, hw, hdir, _⟩ := hf
    cases hw with
    | nil => exact absurd hdir hp
    | cons hb _ => exact absurd hb.1 hp
  otro _ _ := hl

theorem clasifica_sin_entrada {c c' : List UInt8} {cs : List (List UInt8)} {p : ℕ} {l : Lectura}
    (hno : ∀ i, ¬ Coincide d p c i) (hl : l.resultado = .pathInvalido) :
    Clasifica d p (c :: c' :: cs) l where
  existe q hw := by
    cases hw with
    | cons hb _ => exact absurd hb.2.1 (hno _)
  falta q hf := by
    obtain ⟨i, hb, _⟩ := faltaUltima_cons.mp hf
    exact absurd hb.2.1 (hno i)
  otro _ _ := hl

theorem Clasifica.baja {c c' : List UInt8} {cs : List (List UInt8)} {p i : ℕ} {l : Lectura}
    (hb : Baja d p c i) (h : Clasifica d i (c' :: cs) l) : Clasifica d p (c :: c' :: cs) l where
  existe q hw := by
    cases hw with
    | cons hb' hw =>
      obtain rfl := hb.unique hb'
      exact h.existe q hw
  falta q hf := by
    obtain ⟨j, hb', hf⟩ := faltaUltima_cons.mp hf
    obtain rfl := hb.unique hb'
    exact h.falta q hf
  otro hw hf := h.otro (fun ⟨q, hq⟩ => hw ⟨q, .cons hb hq⟩)
    fun ⟨q, hq⟩ => hf ⟨q, faltaUltima_cons.mpr ⟨i, hb, hq⟩⟩

/-- The three answers, by induction on the components. -/
theorem leerPartes_clasifica {c : List UInt8} {cs : List (List UInt8)} {p : ℕ} {e : OsadaFile}
    (he : EnPosicion d basura p e) : Clasifica d p (c :: cs) (leerPartes d (some e) p (c :: cs)) := by
  induction cs generalizing c p e with
  | nil =>
    rw [leerPartes]
    by_cases hreg : e.state = .regular
    · have hdir : ¬ HayDirectorio d p := fun hd => (hayDirectorio_iff he).mp hd hreg
      rw [if_pos (by simpa using hreg)]
      exact clasifica_sin_directorio hdir rfl
    · have hdir : HayDirectorio d p := (hayDirectorio_iff he).mpr hreg
      rw [if_neg (by simpa using hreg)]
      cases hb : obtenerEstructuraDeArchivo d p c with
      | none =>
        have hno := obtenerEstructuraDeArchivo_eq_none.mp hb
        refine ⟨fun q hw => ?_, fun q hf => ?_, fun _ hf => ?_⟩
        · cases hw with
          | cons hb' _ => exact absurd hb'.2.1 (hno _)
        · obtain ⟨rfl, _⟩ := faltaUltima_singleton.mp hf
          rfl
        · exact absurd ⟨p, faltaUltima_singleton.mpr ⟨rfl, hdir, hno⟩⟩ hf
      | some i =>
        have hbaja : Baja d p c i := ⟨hdir, obtenerEstructuraDeArchivo_iff.mp hb⟩
        refine ⟨fun q hw => ?_, fun q hf => ?_, fun hw _ => ?_⟩
        · cases hw with
          | cons hb' hw =>
            obtain rfl := hbaja.unique hb'
            cases hw
            rfl
        · exact absurd hbaja.2.1 ((faltaUltima_singleton.mp hf).2.2 i)
        · exact absurd ⟨i, .cons hbaja (.nil i)⟩ hw
  | cons c' cs ih =>
    rw [leerPartes]
    by_cases hreg : e.state = .regular
    · have hdir : ¬ HayDirectorio d p := fun hd => (hayDirectorio_iff he).mp hd hreg
      rw [if_pos (by simpa using hreg)]
      exact clasifica_sin_directorio hdir rfl
    · have hdir : HayDirectorio d p := (hayDirectorio_iff he).mpr hreg
      rw [if_neg (by simpa using hreg)]
      cases hb : obtenerEstructuraDeArchivo d p c with
      | none =>
        refine clasifica_sin_entrada (obtenerEstructuraDeArchivo_eq_none.mp hb) ?_
        simp [leerPartes]
      | some i =>
        have hprimera := obtenerEstructuraDeArchivo_iff.mp hb
        exact (ih (.inr ⟨hprimera.1.enTabla, rfl, hprimera.1.vivo⟩)).baja ⟨hdir, hprimera⟩

theorem leerPath_partes {path : Cadena} {partes : List (List UInt8)}
    (hbarra : path.1 ≠ [barra]) (hpartes : stringSplit path = some partes) :
    leerPath d basura path =
      some (leerPartes d (some (descriptorRaiz basura)) posicionBarra partes) := by
  rw [leerPath, if_neg hbarra, hpartes, Option.map_some]

theorem partes_of_leerPath {path : Cadena} {l : Lectura} (hbarra : path.1 ≠ [barra])
    (hl : leerPath d basura path = some l) : ∃ partes, stringSplit path = some partes := by
  rw [leerPath, if_neg hbarra] at hl
  obtain ⟨partes, hpartes, _⟩ := Option.map_eq_some_iff.mp hl
  exact ⟨partes, hpartes⟩

theorem partes_ne_nil {path : Cadena} {partes : List (List UInt8)} (hraiz : ¬ EsRaiz path)
    (hpartes : stringSplit path = some partes) : partes ≠ [] := by
  rintro rfl
  exact hraiz (.inr (partirTexto_eq_nil (le_refl _) hpartes))

theorem leerPath_clasifica {path : Cadena} {partes : List (List UInt8)} {l : Lectura}
    (hbarra : path.1 ≠ [barra]) (hpartes : stringSplit path = some partes) (hne : partes ≠ [])
    (hl : leerPath d basura path = some l) : Clasifica d posicionBarra partes l := by
  rw [leerPath_partes hbarra hpartes, Option.some.injEq] at hl
  obtain ⟨c, cs, rfl⟩ := List.exists_cons_of_ne_nil hne
  rw [← hl]
  exact leerPartes_clasifica (.inl ⟨rfl, rfl⟩)

theorem leerPath_of_lleva {path : Cadena} {partes : List (List UInt8)} {q : ℕ}
    (hbarra : path.1 ≠ [barra]) (hpartes : stringSplit path = some partes) (hne : partes ≠ [])
    (hw : Lleva d partes q) :
    leerPath d basura path = some ⟨some (d.archivos q), .archivoExiste, q⟩ := by
  have hl : leerPath d basura path = _ := leerPath_partes hbarra hpartes
  rw [hl, (leerPath_clasifica hbarra hpartes hne hl).existe q hw]

theorem lleva_of_leerPath {path : Cadena} {partes : List (List UInt8)} {l : Lectura}
    (hraiz : ¬ EsRaiz path) (hpartes : stringSplit path = some partes)
    (hl : leerPath d basura path = some l) (hr : l.resultado = .archivoExiste) :
    partes ≠ [] ∧ Lleva d partes l.posicion := by
  have hbarra : path.1 ≠ [barra] := fun h => hraiz (.inl h)
  have hne := partes_ne_nil hraiz hpartes
  have hclas := leerPath_clasifica hbarra hpartes hne hl
  refine ⟨hne, ?_⟩
  by_cases hw : ∃ q, Walk (Baja d) posicionBarra partes q
  · obtain ⟨q, hq⟩ := hw
    rw [hclas.existe q hq]
    exact hq
  · by_cases hf : ∃ q, FaltaUltima d posicionBarra partes q
    · obtain ⟨q, hq⟩ := hf
      rw [hclas.falta q hq] at hr
      exact absurd hr (by simp)
    · rw [hclas.otro hw hf] at hr
      exact absurd hr (by decide)

theorem not_raiz_of_falta {path : Cadena} {l : Lectura} (hl : leerPath d basura path = some l)
    (hr : l.resultado = .archivoNoPathValido) : ¬ EsRaiz path := by
  intro hraiz
  rw [leerPath_raiz hraiz, Option.some.injEq] at hl
  rw [← hl] at hr
  exact absurd hr (by simp [lecturaRaiz])

/-- The components of a path that is missing the last one only. -/
theorem leerPath_falta {path : Cadena} {l : Lectura} (hl : leerPath d basura path = some l)
    (hr : l.resultado = .archivoNoPathValido) :
    ∃ previas nombre, path.1 ≠ [barra] ∧ stringSplit path = some (previas ++ [nombre]) ∧
      obtenerNombreDeArchivoDePath path = some nombre ∧ Lleva d previas l.posicion ∧
      HayDirectorio d l.posicion ∧ ∀ i, ¬ Coincide d l.posicion nombre i := by
  have hraiz := not_raiz_of_falta hl hr
  have hbarra : path.1 ≠ [barra] := fun h => hraiz (.inl h)
  obtain ⟨partes, hpartes⟩ := partes_of_leerPath hbarra hl
  have hne := partes_ne_nil hraiz hpartes
  have hclas := leerPath_clasifica hbarra hpartes hne hl
  by_cases hw : ∃ q, Walk (Baja d) posicionBarra partes q
  · obtain ⟨q, hq⟩ := hw
    rw [hclas.existe q hq] at hr
    exact absurd hr (by simp)
  · by_cases hf : ∃ q, FaltaUltima d posicionBarra partes q
    · obtain ⟨q, hq⟩ := hf
      obtain ⟨previas, nombre, rfl, hlleva, hdir, hno⟩ := id hq
      have hnombre : obtenerNombreDeArchivoDePath path = some nombre := by
        rw [obtenerNombreDeArchivoDePath, if_neg hbarra, hpartes, Option.bind_some,
          List.getLast?_concat]
      rw [hclas.falta q hq]
      exact ⟨previas, nombre, hbarra, hpartes, hnombre, hlleva, hdir, hno⟩
    · rw [hclas.otro hw hf] at hr
      exact absurd hr (by decide)

theorem leerPath_una {path : Cadena} {c : List UInt8} (hbarra : path.1 ≠ [barra])
    (hpartes : stringSplit path = some [c]) (hno : ∀ i, ¬ Coincide d posicionBarra c i) :
    leerPath d basura path = some ⟨none, .archivoNoPathValido, posicionBarra⟩ := by
  have hl : leerPath d basura path = _ := leerPath_partes hbarra hpartes
  have hclas := leerPath_clasifica hbarra hpartes (List.cons_ne_nil c []) hl
  rw [hl, hclas.falta posicionBarra ⟨[], c, rfl, .nil posicionBarra, .inl rfl, hno⟩]

end Leer

/-! ## The loop -/

/-- The locals of the loop; `sigue` falls at a `break`. -/
structure Bucle where
  directory : Option OsadaFile
  posicion : ℕ
  resultado : Resultado
  ultimaEstructura : Bool
  indicePartes : ℤ
  sigue : Bool

/-- `partes[i]`, for the components followed by a null pointer. The accesses are recorded; one
outside of the array is not followed further. -/
def leerParte (partes : List (List UInt8)) (i : ℤ) : Op (List ℤ) (Option (List UInt8)) :=
  fun leidos =>
    if 0 ≤ i ∧ i ≤ partes.length then (some partes[i.toNat]?, leidos ++ [i])
    else (none, leidos ++ [i])

/-- Below a missing entry or a file there is one round more. -/
def Bucle.mirar (b : Bucle) : Bucle :=
  match b.directory with
  | none => { b with ultimaEstructura := true, resultado := .archivoNoPathValido }
  | some e => if e.state = .regular then { b with ultimaEstructura := true } else b

/-- At a component the position stays where it is when there is no such entry. -/
def Bucle.avanzar (d : Disco) (b : Bucle) : Option (List UInt8) → Bucle
  | none => { b with indicePartes := b.indicePartes + 1, sigue := false }
  | some nombre =>
    let hallado := obtenerEstructuraDeArchivo d b.posicion nombre
    { b with
      indicePartes := b.indicePartes + 1
      directory := hallado.map d.archivos
      posicion := hallado.getD b.posicion }

def vueltaDePath (d : Disco) (partes : List (List UInt8)) (b : Bucle) : Op (List ℤ) Bucle :=
  if b.ultimaEstructura then pure { b with resultado := .pathInvalido, sigue := false }
  else do
    let parte ← leerParte partes (b.mirar.indicePartes + 1)
    pure (b.mirar.avanzar d parte)

/-- `leerPath` with its loop, given up after one round more than the array is long. -/
def leerPathBucle (d : Disco) (basura : OsadaFile) (path : Cadena) : Op (List ℤ) Lectura :=
  if path.1 = [barra] then pure ⟨some (descriptorRaiz basura), .archivoExiste, posicionBarra⟩
  else
    match stringSplit path with
    | none => Op.abort
    | some partes => do
      let b ← Op.whileDo Bucle.sigue (vueltaDePath d partes) (partes.length + 2)
        ⟨some (descriptorRaiz basura), posicionBarra, .archivoExiste, false, -1, true⟩
      pure ⟨b.directory, b.resultado, b.posicion⟩

section Bucle
variable {d : Disco}

theorem whileDo_fin {b : Bucle} (hb : b.sigue = false) {body : Bucle → Op (List ℤ) Bucle}
    (fuel : ℕ) (leidos : List ℤ) :
    Op.whileDo Bucle.sigue body fuel b leidos = (some b, leidos) := by
  cases fuel <;> simp [Op.whileDo, hb]

theorem whileDo_vuelta {b b' : Bucle} (hb : b.sigue = true) {body : Bucle → Op (List ℤ) Bucle}
    {leidos leidos' : List ℤ} (hrun : body b leidos = (some b', leidos')) (fuel : ℕ) :
    Op.whileDo Bucle.sigue body (fuel + 1) b leidos =
      Op.whileDo Bucle.sigue body fuel b' leidos' := by
  rw [Op.whileDo, if_pos hb, Op.bind_some hrun]

theorem mirar_conserva (b : Bucle) : b.mirar.indicePartes = b.indicePartes ∧
    b.mirar.posicion = b.posicion ∧ b.mirar.sigue = b.sigue := by
  unfold Bucle.mirar
  split
  · exact ⟨rfl, rfl, rfl⟩
  · split
    · exact ⟨rfl, rfl, rfl⟩
    · exact ⟨rfl, rfl, rfl⟩

theorem avanzar_conserva (b : Bucle) (parte : List UInt8) :
    (b.avanzar d (some parte)).ultimaEstructura = b.ultimaEstructura ∧
      (b.avanzar d (some parte)).resultado = b.resultado ∧
      (b.avanzar d (some parte)).sigue = b.sigue := by
  simp only [Bucle.avanzar, and_self]

theorem mirar_ultima {b : Bucle} (hfin : b.directory.all (·.state = .regular) = true) :
    b.mirar.ultimaEstructura = true := by
  cases hdir : b.directory with
  | none => simp [Bucle.mirar, hdir]
  | some e =>
    have hreg : e.state = .regular := by simpa [hdir] using hfin
    simp [Bucle.mirar, hdir, hreg]

theorem mirar_abierta {b : Bucle} (hfin : ¬ b.directory.all (·.state = .regular) = true) :
    b.mirar = b := by
  cases hdir : b.directory with
  | none => simp [hdir] at hfin
  | some e =>
    have hreg : e.state ≠ .regular := by simpa [hdir] using hfin
    simp [Bucle.mirar, hdir, hreg]

/-- The loop has gone through the components `previas` and goes on. -/
structure Bucle.EnCurso (b : Bucle) (previas : List (List UInt8)) : Prop where
  abierta : b.ultimaEstructura = false
  existe : b.resultado = .archivoExiste
  sigue : b.sigue = true
  indice : b.indicePartes + 1 = previas.length

theorem Bucle.EnCurso.avanza {b : Bucle} {previas : List (List UInt8)} (h : b.EnCurso previas)
    (d : Disco) (parte : List UInt8) :
    (b.avanzar d (some parte)).EnCurso (previas ++ [parte]) where
  abierta := (avanzar_conserva b parte).1.trans h.abierta
  existe := (avanzar_conserva b parte).2.1.trans h.existe
  sigue := (avanzar_conserva b parte).2.2.trans h.sigue
  indice := by
    rw [List.length_append, List.length_singleton, Nat.cast_add, ← h.indice]
    simp only [Bucle.avanzar, Nat.cast_one]

/-- A round reads the component after the ones already gone through. -/
theorem vueltaDePath_lee {partes previas resto : List (List UInt8)}
    (hpartes : partes = previas ++ resto) {b : Bucle} (h : b.EnCurso previas) (leidos : List ℤ) : vueltaDePath d partes b leidos =
      (some (b.mirar.avanzar d resto.head?), leidos ++ [(previas.length : ℤ)]) := by
  have hlee : leerParte partes (b.mirar.indicePartes + 1) leidos =
      (some resto.head?, leidos ++ [(previas.length : ℤ)]) := by
    have hdentro : (0 : ℤ) ≤ previas.length ∧ (previas.length : ℤ) ≤ partes.length := by
      rw [hpartes, List.length_append]
      omega
    rw [(mirar_conserva b).1, h.indice, leerParte, if_pos hdentro, Int.toNat_natCast, hpartes,
      List.getElem?_append_right (le_refl _), Nat.sub_self, List.head?_eq_getElem?]
  rw [vueltaDePath, if_neg (by rw [h.abierta]; exact Bool.false_ne_true)]
  exact Op.bind_some hlee

/-- After the last component the round finds the null pointer. -/
theorem resultado_al_final {b : Bucle} {previas : List (List UInt8)} (h : b.EnCurso previas) :
    (⟨b.mirar.directory, b.mirar.resultado, b.mirar.posicion⟩ : Lectura) =
      leerPartes d b.directory b.posicion [] := by
  have hexiste := h.existe
  cases hdir : b.directory with
  | none => simp [Bucle.mirar, leerPartes, hdir]
  | some e =>
    by_cases hreg : e.state = .regular
    · simp [Bucle.mirar, leerPartes, hdir, hreg, hexiste]
    · simp [Bucle.mirar, leerPartes, hdir, hreg, hexiste]

/-- With a component left below what holds none, there is a round more and the path is given up. -/
theorem bucle_abandona {partes : List (List UInt8)} {b b' : Bucle} {leidos leidos' : List ℤ}
    (hsigue : b.sigue = true) (hrun : vueltaDePath d partes b leidos = (some b', leidos'))
    (hsigue' : b'.sigue = true) (hultima : b'.ultimaEstructura = true) (fuel : ℕ) :
    Op.whileDo Bucle.sigue (vueltaDePath d partes) (fuel + 2) b leidos =
      (some { b' with resultado := .pathInvalido, sigue := false }, leidos') := by
  have hvuelta : vueltaDePath d partes b' leidos' =
      (some { b' with resultado := .pathInvalido, sigue := false }, leidos') := by
    rw [vueltaDePath, if_pos hultima, Op.pure_apply]
  rw [whileDo_vuelta hsigue hrun, whileDo_vuelta hsigue' hvuelta]
  exact whileDo_fin rfl _ _

/-- The rest of the loop, by induction on the components that are left. -/
theorem bucle_eq {partes resto : List (List UInt8)} :
    ∀ {previas : List (List UInt8)} {b : Bucle} {fuel : ℕ} (leidos : List ℤ),
      partes = previas ++ resto → b.EnCurso previas → resto.length + 2 ≤ fuel →
      ∃ b' mas, Op.whileDo Bucle.sigue (vueltaDePath d partes) fuel b leidos =
          (some b', leidos ++ mas) ∧ (∀ i ∈ mas, 0 ≤ i ∧ i ≤ partes.length) ∧
        (⟨b'.directory, b'.resultado, b'.posicion⟩ : Lectura) =
          leerPartes d b.directory b.posicion resto := by
  induction resto with
  | nil =>
    intro previas b fuel leidos hpartes h hfuel
    obtain ⟨fuel, rfl⟩ : ∃ k, fuel = k + 1 := ⟨fuel - 1, by omega⟩
    rw [whileDo_vuelta h.sigue (vueltaDePath_lee hpartes h leidos)]
    have hpara : (b.mirar.avanzar d ([] : List (List UInt8)).head?).sigue = false := rfl
    refine ⟨_, _, whileDo_fin hpara _ _, ?_, resultado_al_final h⟩
    intro i hi
    rw [List.mem_singleton] at hi
    rw [hi, hpartes, List.append_nil]
    omega
  | cons parte resto ih =>
    intro previas b fuel leidos hpartes h hfuel
    rw [List.length_cons] at hfuel
    obtain ⟨fuel, rfl⟩ : ∃ k, fuel = k + 2 := ⟨fuel - 2, by omega⟩
    have hlargo : (previas.length : ℤ) ≤ partes.length := by
      rw [hpartes, List.length_append]
      omega
    have hlee := vueltaDePath_lee (d := d) hpartes h leidos
    rw [List.head?_cons] at hlee
    rw [leerPartes]
    by_cases hfin : b.directory.all (·.state = .regular) = true
    · obtain ⟨hultima, _, hsigue⟩ := avanzar_conserva (d := d) b.mirar parte
      rw [mirar_ultima hfin] at hultima
      rw [(mirar_conserva b).2.2, h.sigue] at hsigue
      rw [if_pos hfin]
      refine ⟨_, _, bucle_abandona h.sigue hlee hsigue hultima fuel, ?_, ?_⟩
      · intro i hi
        rw [List.mem_singleton] at hi
        omega
      · simp only [Bucle.avanzar, (mirar_conserva b).2.1]
    · rw [mirar_abierta hfin] at hlee
      rw [if_neg hfin, whileDo_vuelta h.sigue hlee]
      have hpartes' : partes = previas ++ [parte] ++ resto := by
        rw [hpartes, List.append_assoc, List.singleton_append]
      have hfuel' : resto.length + 2 ≤ fuel + 1 := by omega
      obtain ⟨b', mas, hrun, hmas, hres'⟩ := ih (leidos ++ [(previas.length : ℤ)]) hpartes'
        (h.avanza d parte) hfuel'
      simp only [Bucle.avanzar] at hres'
      refine ⟨b', (previas.length : ℤ) :: mas, ?_, ?_, hres'⟩
      · rw [hrun, List.append_assoc, List.singleton_append]
      · intro i hi
        cases List.mem_cons.mp hi with
        | inl he => omega
        | inr hmem => exact hmas i hmem

end Bucle

/-- `leerPath` ends without looking past the end of the components, and says of the path what the
table says of them. -/
theorem leerPath_ruta {path : Cadena} {cs : List (List UInt8)} (h : EsRuta path cs) (hne : cs ≠ [])
    (d : Disco) (basura : OsadaFile) :
    Op.Returns (leerPathBucle d basura path) [] fun l leidos =>
      (∀ i ∈ leidos, 0 ≤ i ∧ i ≤ cs.length) ∧ leerPath d basura path = some l ∧
        Clasifica d posicionBarra cs l := by
  have hbucle : leerPathBucle d basura path = Op.whileDo Bucle.sigue (vueltaDePath d cs)
      (cs.length + 2) ⟨some (descriptorRaiz basura), posicionBarra, .archivoExiste, false, -1, true⟩
        >>= fun b => pure ⟨b.directory, b.resultado, b.posicion⟩ := by
    rw [leerPathBucle, if_neg h.ne_barra, h.stringSplit]
  have hpartes : cs = [] ++ cs := (List.nil_append cs).symm
  obtain ⟨b, mas, hrun, hmas, hl⟩ := bucle_eq (d := d)
    (b := ⟨some (descriptorRaiz basura), posicionBarra, .archivoExiste, false, -1, true⟩)
    [] hpartes ⟨rfl, rfl, rfl, rfl⟩ (le_refl _)
  rw [hbucle]
  refine ⟨_, _, (Op.bind_some hrun).trans rfl, hmas, ?_, ?_⟩
  · rw [leerPath_partes h.ne_barra h.stringSplit, ← hl]
  · obtain ⟨c, cs, rfl⟩ := List.exists_cons_of_ne_nil hne
    rw [hl]
    exact leerPartes_clasifica (.inl ⟨rfl, rfl⟩)

/-- The directory `/a`, with the empty file `/a/b` in it. -/
def discoConAB : Disco :=
  { discoFormateado headerChico headerChico_regiones with
    archivos := fun i =>
      if i = 0 then
        { OsadaFile.borrado with state := .directory, fname := [97], parentDirectory := 65535 }
      else if i = 1 then
        { OsadaFile.borrado with state := .regular, fname := [98], firstBlock := uint32Max }
      else .borrado }

theorem leerPath_ruta_ab : Op.Returns (leerPathBucle discoConAB .borrado rutaAB) [] fun l leidos =>
    (∀ i ∈ leidos, 0 ≤ i ∧ i ≤ 2) ∧ Clasifica discoConAB posicionBarra [[97], [98]] l ∧
      l.resultado = .archivoExiste ∧ l.posicion = 1 := by
  have hruta : EsRuta rutaAB [[97], [98]] := ⟨by decide, by decide⟩
  refine (leerPath_ruta hruta (List.cons_ne_nil [97] _) discoConAB .borrado).mono fun l _ h => ?_
  obtain ⟨hleidos, hl, hclas⟩ := h
  have hlee : (leerPath discoConAB .borrado rutaAB).map (fun l => (l.resultado, l.posicion)) =
      some (.archivoExiste, 1) := by decide +kernel
  rw [hl, Option.map_some, Option.some.injEq, Prod.mk.injEq] at hlee
  exact ⟨hleidos, hclas, hlee⟩

/-- A disk of 16 blocks whose only file is the path `/a`. -/
abbrev discoConA (k size : ℕ) : Disco :=
  discoConArchivo headerChico headerChico_regiones k size

theorem leerPath_conA (k size : ℕ) (basura : OsadaFile) :
    leerPath (discoConA k size) basura rutaA =
      some ⟨some ((discoConA k size).archivos 0), .archivoExiste, 0⟩ := by
  have hpartes : stringSplit rutaA = some [[97]] := by decide
  have hhallado : obtenerEstructuraDeArchivo (discoConA k size) posicionBarra [97] = some 0 := by
    rw [obtenerEstructuraDeArchivo, List.find?_range_eq_some]
    exact ⟨by simp [discoConArchivo, getStringFromNombreOsada, posicionBarra], by simp,
      fun j hj => absurd hj (Nat.not_lt_zero j)⟩
  rw [leerPath_partes (by decide) hpartes, leerPartes, if_neg (by simp [descriptorRaiz]), hhallado]
  rfl

end TpSo.Osada
