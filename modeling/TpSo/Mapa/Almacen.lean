import Mathlib.Data.List.Nodup
import Mathlib.Tactic.Ring
import TpSo.Mapa.Estado

/-!
# The store of a map

A file of a pokemon is named after its species, with seven characters more (`001.dat`). What a
trainer holds of a species is in its `Dir de Bill`, and `reintegrarRecursos` takes it back species by
species, by the start of the names.
-/

namespace TpSo.Mapa

open Function (update)

/-- The name is of a file of the species. -/
def ArchivoDe (species f : Nombre) : Prop := species <+: f ∧ f.length = species.length + 7

instance (species f : Nombre) : Decidable (ArchivoDe species f) :=
  inferInstanceAs (Decidable (_ ∧ _))

/-- A file is of one species. -/
theorem ArchivoDe.unica {s s' f : Nombre} (h : ArchivoDe s f) (h' : ArchivoDe s' f) : s = s' := by
  have hlen : s.length = s'.length := by
    have h1 := h.2
    have h2 := h'.2
    omega
  have hpre : s <+: s' := List.prefix_of_prefix_length_le h.1 h'.1 hlen.le
  exact hpre.eq_of_length hlen

/-- The files of the species among those of a directory. -/
def deEspecie (s : Nombre) (l : List Nombre) : List Nombre := l.filter fun f => ArchivoDe s f

theorem mem_deEspecie {s f : Nombre} {l : List Nombre} :
    f ∈ deEspecie s l ↔ f ∈ l ∧ ArchivoDe s f := by
  simp [deEspecie]

/-! ## Looking up a pokenest -/

/-- What does not change in a pokenest. -/
def Pokenest.ficha (p : Pokenest) : UInt8 × Nombre := (p.identificador, p.species)

theorem sumarCant_fichas (id : UInt8) (k : ℤ) (l : List Pokenest) :
    (sumarCant id k l).map Pokenest.ficha = l.map Pokenest.ficha := by
  induction l with
  | nil => rfl
  | cons p ps ih =>
    unfold sumarCant
    split
    · rfl
    · rw [List.map_cons, List.map_cons, ih]

namespace Almacen

def fichas (a : Almacen) : List (UInt8 × Nombre) := a.listaPokenest.map Pokenest.ficha

def especies (a : Almacen) : List Nombre := a.listaPokenest.map Pokenest.species

def especie (a : Almacen) (id : UInt8) : Option Nombre :=
  (a.getPokenestById id).map Pokenest.species

variable {a a' : Almacen}

theorem especies_eq (a : Almacen) : a.especies = a.fichas.map Prod.snd := by
  simp [especies, fichas, Pokenest.ficha, Function.comp_def]

theorem especie_eq (a : Almacen) (id : UInt8) : a.especie id =
    ((a.fichas.find? fun e => e.1 = id).or a.fichas.getLast?).map Prod.snd := by
  unfold especie getPokenestById fichas
  rw [List.find?_map, List.getLast?_map, ← Option.map_or, Option.map_map]
  rfl

theorem hayPokenest_eq (a : Almacen) (id : UInt8) :
    a.hayPokenest id = a.fichas.any fun e => e.1 = id := by
  unfold hayPokenest fichas
  rw [List.any_map]
  rfl

theorem getPokenestById_of_hay {id : UInt8} (h : a.hayPokenest id = true) :
    ∃ p ∈ a.listaPokenest, a.getPokenestById id = some p ∧ p.identificador = id ∧
      a.listaPokenest.find? (fun p => p.identificador = id) = some p := by
  obtain ⟨p, hp, hid⟩ := List.any_eq_true.mp h
  cases hf : a.listaPokenest.find? fun p => p.identificador = id with
  | none => exact absurd hid (List.find?_eq_none.mp hf p hp)
  | some q =>
    refine ⟨q, List.mem_of_find?_eq_some hf, ?_, ?_, rfl⟩
    · rw [getPokenestById, hf, Option.some_or]
    · simpa using List.find?_some hf

theorem mem_of_getPokenestById {id : UInt8} {p : Pokenest} (h : a.getPokenestById id = some p) :
    p ∈ a.listaPokenest := by
  cases Option.or_eq_some_iff.mp h with
  | inl hf => exact List.mem_of_find?_eq_some hf
  | inr hl => exact List.mem_of_getLast? hl.2

theorem mem_especies_of_especie {id : UInt8} {s : Nombre} (h : a.especie id = some s) :
    s ∈ a.especies := by
  obtain ⟨p, hp, rfl⟩ := Option.map_eq_some_iff.mp h
  exact List.mem_map_of_mem (mem_of_getPokenestById hp)

/-- How many of the identifiers stand for the species. -/
def tiene (a : Almacen) (s : Nombre) (ids : List UInt8) : ℕ :=
  ids.countP fun id => a.especie id = some s

end Almacen

/-- The pokenest that `sumarCant` changes is the one of the identifier. -/
theorem mem_sumarCant {id : UInt8} {k : ℤ} {l : List Pokenest} {q : Pokenest}
    (hnd : (l.map Pokenest.species).Nodup) (hq : q ∈ sumarCant id k l) :
    ∃ p ∈ l, p.species = q.species ∧ q.cant = p.cant +
      if (l.find? fun p => p.identificador = id).map Pokenest.species = some q.species then k
      else 0 := by
  induction l with
  | nil => cases hq
  | cons p ps ih =>
    rw [List.map_cons, List.nodup_cons] at hnd
    have hotra : ∀ r ∈ ps, r.species ≠ p.species := fun r hr he =>
      hnd.1 (he ▸ List.mem_map_of_mem hr)
    unfold sumarCant at hq
    split at hq
    · next hid =>
      rw [List.find?_cons_of_pos (by simpa using hid)]
      cases List.mem_cons.mp hq with
      | inl he =>
        subst he
        exact ⟨p, by simp, rfl, by simp⟩
      | inr hq =>
        refine ⟨q, by simp [hq], rfl, ?_⟩
        rw [if_neg (by simpa using (hotra q hq).symm), add_zero]
    · next hid =>
      rw [List.find?_cons_of_neg (by simpa using hid)]
      cases List.mem_cons.mp hq with
      | inl he =>
        subst he
        refine ⟨q, by simp, rfl, ?_⟩
        rw [if_neg, add_zero]
        intro hf
        obtain ⟨r, hr, hs⟩ := Option.map_eq_some_iff.mp hf
        exact hotra r (List.mem_of_find?_eq_some hr) hs
      | inr hq =>
        obtain ⟨r, hr, hs, hc⟩ := ih hnd.2 hq
        exact ⟨r, by simp [hr], hs, hc⟩

/-! ## Giving back -/

theorem union_of_nodup {α : Type} [BEq α] [LawfulBEq α] {l l' : List α} (h : (l ++ l').Nodup) :
    l ∪ l' = l ++ l' := by
  induction l with
  | nil => exact List.nil_union l'
  | cons x l ih =>
    rw [List.cons_append, List.nodup_cons] at h
    rw [List.cons_union, ih h.2, List.insert_of_not_mem h.1, List.cons_append]

namespace Almacen

/-- What the pokenest and the trainer have between them of a species. -/
def entreAmbos (a : Almacen) (path s : Nombre) : List Nombre :=
  a.pokeNests s ++ deEspecie s (a.dirDeBill path)

/-- The books of a trainer that still has to give back `ids`. -/
structure Cuadra (a : Almacen) (path : Nombre) (ids : List UInt8) : Prop where
  especies : a.especies.Nodup
  conocidos : ∀ id ∈ ids, a.hayPokenest id = true
  archivos : ∀ s ∈ a.especies, (a.entreAmbos path s).Nodup
  propios : ∀ id ∈ ids, ∀ s, a.especie id = some s → ∀ f ∈ a.dirDeBill path, s <+: f →
    ArchivoDe s f
  cant : ∀ p ∈ a.listaPokenest,
    p.cant + a.tiene p.species ids = (a.entreAmbos path p.species).length

/-- Files of the trainer have gone to their pokenests, and no others. -/
structure Devuelto (path : Nombre) (a a' : Almacen) : Prop where
  fichas : a'.fichas = a.fichas
  otros : ∀ path', path' ≠ path → a'.dirDeBill path' = a.dirDeBill path'
  entreAmbos : ∀ s ∈ a.especies, (a'.entreAmbos path s).Perm (a.entreAmbos path s)
  bolsa : a'.dirDeBill path ⊆ a.dirDeBill path

section Devolver
variable {a : Almacen} {path s : Nombre}

theorem devolverArchivos_bolsa (a : Almacen) (path s : Nombre) :
    (a.devolverArchivos path s).dirDeBill path =
      (a.dirDeBill path).filter fun f => !s.isPrefixOf f := Function.update_self ..

theorem devolverArchivos_pokeNests (a : Almacen) (path s : Nombre) :
    (a.devolverArchivos path s).pokeNests s =
      (a.dirDeBill path).filter (fun f => s.isPrefixOf f) ∪ a.pokeNests s :=
  Function.update_self ..

/-- The files whose names start with the species are those of the species. -/
theorem filter_prefijo (hprop : ∀ f ∈ a.dirDeBill path, s <+: f → ArchivoDe s f) :
    (a.dirDeBill path).filter (fun f => s.isPrefixOf f) = deEspecie s (a.dirDeBill path) := by
  apply List.filter_congr
  intro f hf
  rw [Bool.eq_iff_iff, List.isPrefixOf_iff_prefix, decide_eq_true_iff]
  exact ⟨hprop f hf, fun h => h.1⟩

/-- None of the species is left to the trainer. -/
theorem deEspecie_devolver : deEspecie s ((a.devolverArchivos path s).dirDeBill path) = [] := by
  apply List.filter_eq_nil_iff.mpr
  intro f hf
  rw [devolverArchivos_bolsa] at hf
  have hno := (List.mem_filter.mp hf).2
  intro hmia
  rw [List.isPrefixOf_iff_prefix.mpr (of_decide_eq_true hmia).1] at hno
  cases hno

theorem deEspecie_devolver_otra {s' : Nombre} (hne : s' ≠ s)
    (hprop : ∀ f ∈ a.dirDeBill path, s <+: f → ArchivoDe s f) :
    deEspecie s' ((a.devolverArchivos path s).dirDeBill path) =
      deEspecie s' (a.dirDeBill path) := by
  rw [devolverArchivos_bolsa]
  unfold deEspecie
  rw [List.filter_filter]
  apply List.filter_congr
  intro f hf
  cases hd : decide (ArchivoDe s' f) with
  | false => rfl
  | true =>
    have hno : ¬ s <+: f := fun hs => hne ((of_decide_eq_true hd).unica (hprop f hf hs))
    have hpre : s.isPrefixOf f = false := by
      rw [← Bool.not_eq_true, List.isPrefixOf_iff_prefix]
      exact hno
    rw [hpre]
    rfl

theorem entreAmbos_devolver (hprop : ∀ f ∈ a.dirDeBill path, s <+: f → ArchivoDe s f)
    (hnd : (a.entreAmbos path s).Nodup) (s' : Nombre) :
    ((a.devolverArchivos path s).entreAmbos path s').Perm (a.entreAmbos path s') := by
  by_cases hs : s' = s
  · subst hs
    have hnd' : (deEspecie s' (a.dirDeBill path) ++ a.pokeNests s').Nodup :=
      List.perm_append_comm.nodup_iff.mp hnd
    unfold entreAmbos
    rw [deEspecie_devolver, List.append_nil, devolverArchivos_pokeNests, filter_prefijo hprop,
      union_of_nodup hnd']
    exact List.perm_append_comm
  · have hnests : (a.devolverArchivos path s).pokeNests s' = a.pokeNests s' :=
      Function.update_of_ne hs _ _
    unfold entreAmbos
    rw [deEspecie_devolver_otra hs hprop, hnests]

end Devolver

theorem fichas_conCant (a : Almacen) (id : UInt8) (k : ℤ) : (a.conCant id k).fichas = a.fichas :=
  sumarCant_fichas id k a.listaPokenest

section Fichas
variable {a a' : Almacen} (h : a'.fichas = a.fichas)
include h

theorem especies_congr : a'.especies = a.especies := by rw [especies_eq, especies_eq, h]

theorem especie_congr (id : UInt8) : a'.especie id = a.especie id := by
  rw [especie_eq, especie_eq, h]

theorem hayPokenest_congr (id : UInt8) : a'.hayPokenest id = a.hayPokenest id := by
  rw [hayPokenest_eq, hayPokenest_eq, h]

theorem tiene_congr (s : Nombre) (ids : List UInt8) : a'.tiene s ids = a.tiene s ids := by
  unfold tiene
  simp only [especie_congr h]

end Fichas

theorem mem_conCant {a : Almacen} {id : UInt8} {k : ℤ} {q : Pokenest} (hnd : a.especies.Nodup)
    (hid : a.hayPokenest id = true) (hq : q ∈ (a.conCant id k).listaPokenest) :
    ∃ p ∈ a.listaPokenest, p.species = q.species ∧
      q.cant = p.cant + if a.especie id = some q.species then k else 0 := by
  obtain ⟨r, _, hr, _, hf⟩ := getPokenestById_of_hay hid
  obtain ⟨p, hp, hs, hc⟩ := mem_sumarCant hnd hq
  refine ⟨p, hp, hs, ?_⟩
  rw [hc, hf, especie, hr]

theorem tiene_cons (a : Almacen) (s : Nombre) (id : UInt8) (ids : List UInt8) :
    a.tiene s (id :: ids) = a.tiene s ids + if a.especie id = some s then 1 else 0 := by
  unfold tiene
  rw [List.countP_cons]
  simp

section Reintegrar
variable {a : Almacen} {path : Nombre} {id : UInt8} {ids : List UInt8}

/-- One unit goes back, with the files of its species. -/
theorem Cuadra.reintegrar (h : a.Cuadra path (id :: ids)) :
    ∃ a', reintegrarRecurso path id a = (some ⟨⟩, a') ∧ a'.Cuadra path ids ∧
      Devuelto path a a' ∧ ∀ s, a.especie id = some s → deEspecie s (a'.dirDeBill path) = [] := by
  have hid := h.conocidos id (by simp)
  obtain ⟨p, hp, hget, _, _⟩ := getPokenestById_of_hay hid
  have hesp : a.especie id = some p.species := by rw [especie, hget, Option.map_some]
  have hprop := h.propios id (by simp) p.species hesp
  have hnd := h.archivos p.species (List.mem_map_of_mem hp)
  generalize ha' : (a.devolverArchivos path p.species).conCant id 1 = a'
  have hfichas : a'.fichas = a.fichas := by
    rw [← ha', fichas_conCant]
    rfl
  have hbolsa : a'.dirDeBill path = (a.devolverArchivos path p.species).dirDeBill path := by
    rw [← ha']
    rfl
  have hambos : ∀ s, (a'.entreAmbos path s).Perm (a.entreAmbos path s) := by
    intro s
    rw [← ha']
    exact entreAmbos_devolver hprop hnd s
  have hsub : a'.dirDeBill path ⊆ a.dirDeBill path := by
    rw [hbolsa, devolverArchivos_bolsa]
    exact List.filter_subset_self _
  refine ⟨a', ?_, ?_, ?_, ?_⟩
  · rw [← ha', reintegrarRecurso, hget]
    dsimp only
    rw [if_pos hid]
  · constructor
    · rw [especies_congr hfichas]
      exact h.especies
    · intro id' hid'
      rw [hayPokenest_congr hfichas]
      exact h.conocidos id' (by simp [hid'])
    · intro s hs
      rw [especies_congr hfichas] at hs
      exact (hambos s).nodup_iff.mpr (h.archivos s hs)
    · intro id' hid' s hs f hf
      rw [especie_congr hfichas] at hs
      exact h.propios id' (by simp [hid']) s hs f (hsub hf)
    · intro q hq
      rw [← ha'] at hq
      obtain ⟨r, hr, hs, hc⟩ := mem_conCant h.especies hid hq
      have hcant := h.cant r hr
      rw [tiene_cons, hs] at hcant
      rw [(hambos q.species).length_eq, tiene_congr hfichas, hc, ← hcant]
      push_cast
      ring
  · refine ⟨hfichas, ?_, fun s _ => hambos s, hsub⟩
    intro path' hne
    rw [← ha']
    exact Function.update_of_ne hne _ _
  · intro s hs
    rw [hesp] at hs
    rw [← Option.some.inj hs, hbolsa, deEspecie_devolver]

theorem Devuelto.trans {a' a'' : Almacen} (h : Devuelto path a a') (h' : Devuelto path a' a'') :
    Devuelto path a a'' := by
  constructor
  · rw [h'.fichas, h.fichas]
  · intro path' hne
    rw [h'.otros path' hne, h.otros path' hne]
  · intro s hs
    have hs' : s ∈ a'.especies := by rwa [especies_congr h.fichas]
    exact (h'.entreAmbos s hs').trans (h.entreAmbos s hs)
  · exact fun f hf => h.bolsa (h'.bolsa hf)

/-- All of them go back, and none of their files is left to the trainer. -/
theorem Cuadra.reintegrarRecursos (h : a.Cuadra path ids) :
    ∃ a', Mapa.reintegrarRecursos path ids a = (some ⟨⟩, a') ∧ a'.Cuadra path [] ∧
      Devuelto path a a' ∧
      ∀ id ∈ ids, ∀ s, a.especie id = some s → deEspecie s (a'.dirDeBill path) = [] := by
  induction ids generalizing a with
  | nil => exact ⟨a, rfl, h, ⟨rfl, fun _ _ => rfl, fun _ _ => .refl _, fun _ hf => hf⟩, by simp⟩
  | cons id ids ih =>
    obtain ⟨a₁, h₁, hcuadra, hdev, hnada⟩ := h.reintegrar
    obtain ⟨a', h', hfin, hdev', hnada'⟩ := ih hcuadra
    refine ⟨a', ?_, hfin, hdev.trans hdev', ?_⟩
    · rw [Mapa.reintegrarRecursos, Op.bind_some h₁, h']
    · intro id' hid' s hs
      cases List.mem_cons.mp hid' with
      | inl he =>
        subst he
        apply List.filter_eq_nil_iff.mpr
        intro f hf
        exact List.filter_eq_nil_iff.mp (hnada s hs) f (hdev'.bolsa hf)
      | inr hid' =>
        apply hnada' id' hid' s
        rwa [especie_congr hdev.fichas]

end Reintegrar

end Almacen

end TpSo.Mapa
