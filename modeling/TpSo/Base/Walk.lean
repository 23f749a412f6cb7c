import Mathlib.Data.List.Induction

/-!
# Labelled walks in a forest

`Walk R a xs b` goes from `a` to `b` along edges with the labels `xs`. When no two edges from
different points end in the same one, and none ends in the point where a walk starts, the length
of a walk is determined by its end.
-/

namespace TpSo

universe u v
variable {α : Type u} {ν : Type v}

inductive Walk (R : α → ν → α → Prop) : α → List ν → α → Prop where
  | nil (a : α) : Walk R a [] a
  | cons {a b c : α} {x : ν} {xs : List ν} : R a x b → Walk R b xs c → Walk R a (x :: xs) c

namespace Walk

variable {R S : α → ν → α → Prop} {a b c : α} {x : ν} {xs ys : List ν}

theorem append (h : Walk R a xs b) (h' : Walk R b ys c) : Walk R a (xs ++ ys) c := by
  induction h with
  | nil => exact h'
  | cons hr _ ih => exact .cons hr (ih h')

theorem concat (h : Walk R a xs b) (hr : R b x c) : Walk R a (xs ++ [x]) c :=
  h.append (.cons hr (.nil c))

theorem of_append (h : Walk R a (xs ++ ys) c) : ∃ b, Walk R a xs b ∧ Walk R b ys c := by
  induction xs generalizing a with
  | nil => exact ⟨a, .nil a, h⟩
  | cons x xs ih =>
    cases h with
    | cons hr h' =>
      obtain ⟨b, hb, hc⟩ := ih h'
      exact ⟨b, .cons hr hb, hc⟩

theorem of_concat (h : Walk R a (xs ++ [x]) c) : ∃ b, Walk R a xs b ∧ R b x c := by
  obtain ⟨b, hb, hc⟩ := h.of_append
  cases hc with
  | cons hr h' =>
    cases h'
    exact ⟨b, hb, hr⟩

theorem unique (hfun : ∀ {a x b b'}, R a x b → R a x b' → b = b') (h : Walk R a xs b)
    (h' : Walk R a xs c) : b = c := by
  induction h with
  | nil =>
    cases h'
    rfl
  | cons hr _ ih =>
    cases h' with
    | cons hr' h' =>
      obtain rfl := hfun hr hr'
      exact ih h'

/-- A walk whose edges are edges of another relation. Every edge comes with the walk that leads
to it. -/
theorem mono_of (h : Walk R a xs c) (hRS : ∀ ys x b d, ys ++ [x] <+: xs → Walk R a ys b →
    R b x d → S b x d) : Walk S a xs c := by
  induction xs using List.reverseRecOn generalizing c with
  | nil =>
    cases h
    exact .nil a
  | append_singleton xs x ih =>
    obtain ⟨b, hb, hr⟩ := h.of_concat
    refine (ih hb fun ys y d e hpre => hRS ys y d e ?_).concat ?_
    · exact hpre.trans (List.prefix_append xs [x])
    · exact hRS xs x b c (List.prefix_refl _) hb hr

section Forest
variable (huno : ∀ {a b c x y}, R a x c → R b y c → a = b) {r : α} (hraiz : ∀ {a x}, ¬ R a x r)
include huno hraiz

theorem length_eq (h : Walk R r xs b) (h' : Walk R r ys b) : xs.length = ys.length := by
  induction xs using List.reverseRecOn generalizing ys b with
  | nil =>
    cases h
    rcases List.eq_nil_or_concat ys with rfl | ⟨zs, z, rfl⟩
    · rfl
    · rw [List.concat_eq_append] at h'
      obtain ⟨c, _, hr⟩ := h'.of_concat
      exact absurd hr hraiz
  | append_singleton xs x ih =>
    obtain ⟨c, hc, hr⟩ := h.of_concat
    rcases List.eq_nil_or_concat ys with rfl | ⟨zs, z, rfl⟩
    · cases h'
      exact absurd hr hraiz
    · rw [List.concat_eq_append] at h' ⊢
      obtain ⟨c', hc', hr'⟩ := h'.of_concat
      obtain rfl := huno hr hr'
      rw [List.length_append, List.length_append, ih hc hc']
      rfl

/-- What lies on a closed walk is not reached from the root. -/
theorem not_of_closed (h : Walk R b ys b) (hne : ys ≠ []) : ¬ Walk R r xs b := by
  intro h'
  have hlen := length_eq @huno @hraiz h' (h'.append h)
  rw [List.length_append] at hlen
  exact hne (List.eq_nil_of_length_eq_zero (by omega))

end Forest

/-- The edges of a forest with the root `r`: an edge is told by where it starts and its label, and
also by where it ends. -/
structure Forest (R : α → ν → α → Prop) (r : α) : Prop where
  det : ∀ {a x b c}, R a x b → R a x c → b = c
  up : ∀ {a x b y c}, R a x c → R b y c → a = b ∧ x = y
  root : ∀ {a x}, ¬ R a x r

namespace Forest

variable {r p q : α} (h : Forest R r)
include h

theorem end_unique (hw : Walk R a xs b) (hw' : Walk R a xs c) : b = c :=
  Walk.unique (R := R) h.det hw hw'

theorem labels_unique (hw : Walk R r xs b) (hw' : Walk R r ys b) : xs = ys := by
  induction xs using List.reverseRecOn generalizing ys b with
  | nil =>
    cases hw
    exact (List.eq_nil_of_length_eq_zero
      (length_eq (R := R) (fun ha hb => (h.up ha hb).1) h.root (.nil r) hw').symm).symm
  | append_singleton xs x ih =>
    obtain ⟨c, hc, hr⟩ := hw.of_concat
    rcases List.eq_nil_or_concat ys with rfl | ⟨zs, z, rfl⟩
    · cases hw'
      exact absurd hr h.root
    · rw [List.concat_eq_append] at hw' ⊢
      obtain ⟨c', hc', hr'⟩ := hw'.of_concat
      obtain ⟨rfl, rfl⟩ := h.up hr hr'
      rw [ih hc hc']

theorem not_closed (hw : Walk R r xs b) (hne : ys ≠ []) : ¬ Walk R b ys b := fun hc =>
  not_of_closed (R := R) (fun ha hb => (h.up ha hb).1) h.root hc hne hw

/-- A walk that comes by `b` on the way from the root starts as the walk to `b`. -/
theorem through (hb : Walk R r xs b) (hw : Walk R r (xs ++ ys) c) : Walk R b ys c := by
  obtain ⟨b', hb', hrest⟩ := hw.of_append
  rwa [h.end_unique hb hb']

end Forest

/-- Without the edges to `p`, one gets to what no walk by `p` leads to. -/
theorem Forest.unlinked_iff {r p : α} (h : Forest R r)
    (hedge : ∀ {a y b}, S a y b ↔ b ≠ p ∧ R a y b) (hp : p ≠ r) :
    Walk S r xs b ↔ Walk R r xs b ∧ ∀ zs, zs <+: xs → ¬ Walk R r zs p := by
  constructor
  · intro hw
    have hback : ∀ {zs c}, Walk S r zs c → Walk R r zs c := fun hz =>
      hz.mono_of fun _ _ _ _ _ _ hs => (hedge.mp hs).2
    refine ⟨hback hw, fun zs hpre hz => ?_⟩
    obtain ⟨us, rfl⟩ := hpre
    obtain ⟨c, hc, _⟩ := hw.of_append
    obtain rfl := h.end_unique (hback hc) hz
    rcases List.eq_nil_or_concat zs with rfl | ⟨ws, y, rfl⟩
    · cases hc
      exact hp rfl
    · rw [List.concat_eq_append] at hc
      obtain ⟨_, _, hs⟩ := hc.of_concat
      exact (hedge.mp hs).1 rfl
  · rintro ⟨hw, hmiss⟩
    refine hw.mono_of fun zs y c e hpre hc hr => hedge.mpr ⟨?_, hr⟩
    rintro rfl
    exact hmiss _ hpre (hc.concat hr)

/-- `S` has the edges of `R` but those to `p`, and one from `q` to `p`. -/
structure Relinked (R S : α → ν → α → Prop) (p q : α) (x : ν) : Prop where
  edge : ∀ {a y b}, S a y b ↔ b ≠ p ∧ R a y b ∨ b = p ∧ a = q ∧ y = x
  free : ∀ {b}, ¬ R q x b

namespace Relinked

variable {r p q : α} (h : Relinked R S p q x)
include h

theorem forest (hR : Forest R r) (hp : p ≠ r) : Forest S r where
  det := by
    intro a y b c hb hc
    rcases h.edge.mp hb with ⟨_, hb⟩ | ⟨rfl, rfl, rfl⟩
    · rcases h.edge.mp hc with ⟨_, hc⟩ | ⟨rfl, rfl, rfl⟩
      · exact hR.det hb hc
      · exact absurd hb h.free
    · rcases h.edge.mp hc with ⟨_, hc⟩ | ⟨rfl, _, _⟩
      · exact absurd hc h.free
      · rfl
  up := by
    intro a y b z c ha hb
    rcases h.edge.mp ha with ⟨hne, ha⟩ | ⟨rfl, rfl, rfl⟩
    · rcases h.edge.mp hb with ⟨_, hb⟩ | ⟨rfl, _, _⟩
      · exact hR.up ha hb
      · exact absurd rfl hne
    · rcases h.edge.mp hb with ⟨hne, _⟩ | ⟨_, rfl, rfl⟩
      · exact absurd rfl hne
      · exact ⟨rfl, rfl⟩
  root := by
    intro a y hr
    rcases h.edge.mp hr with ⟨_, hr⟩ | ⟨rfl, _, _⟩
    · exact hR.root hr
    · exact hp rfl

theorem keep (hw : Walk R a xs b) (hout : ∀ zs, zs ≠ [] → zs <+: xs → ¬ Walk R a zs p) :
    Walk S a xs b := by
  refine hw.mono_of fun zs y c d hpre hc hr => h.edge.mpr (.inl ⟨?_, hr⟩)
  rintro rfl
  exact hout _ (by simp) hpre (hc.concat hr)

theorem kept (hw : Walk S a xs b) (hout : ∀ zs, zs ≠ [] → zs <+: xs → ¬ Walk S a zs p) :
    Walk R a xs b := by
  refine hw.mono_of fun zs y c d hpre hc hr => ?_
  rcases h.edge.mp hr with ⟨_, hr'⟩ | ⟨rfl, _, _⟩
  · exact hr'
  · exact absurd (hc.concat hr) (hout _ (by simp) hpre)

variable {qs : List ν} (hq : Walk R r qs q) (hout : ∀ zs, zs <+: qs → ¬ Walk R r zs p)
include hq hout

theorem placed : Walk S r (qs ++ [x]) p :=
  (h.keep hq fun zs _ hpre => hout zs hpre).concat (h.edge.mpr (.inr ⟨rfl, rfl, rfl⟩))

variable (hR : Forest R r) (hp : p ≠ r)
include hR hp

theorem below_iff (hback : ∀ zs, zs ≠ [] → ¬ Walk R p zs p) :
    Walk S r (qs ++ [x] ++ ys) b ↔ Walk R p ys b := by
  have hS := h.forest hR hp
  have hplaced := h.placed hq hout
  constructor
  · intro hw
    exact h.kept (hS.through hplaced hw) fun zs hne _ => hS.not_closed hplaced hne
  · intro hw
    exact hplaced.append (h.keep hw fun zs hne _ => hback zs hne)

/-- Elsewhere there is what there was and did not come by `p`. -/
theorem elsewhere_iff (hne : ¬ qs ++ [x] <+: xs) :
    Walk S r xs b ↔ Walk R r xs b ∧ ∀ zs, zs <+: xs → ¬ Walk R r zs p := by
  have hS := h.forest hR hp
  have hplaced := h.placed hq hout
  constructor
  · intro hw
    have hmiss : ∀ zs, zs <+: xs → ¬ Walk S r zs p := by
      intro zs hpre hz
      rw [hS.labels_unique hz hplaced] at hpre
      exact hne hpre
    refine ⟨h.kept hw fun zs _ hpre => hmiss zs hpre, fun zs hpre hz => ?_⟩
    obtain ⟨us, rfl⟩ := hpre
    obtain ⟨c, hc, _⟩ := hw.of_append
    have hc' := h.kept hc fun ws _ hpre => hmiss ws (hpre.trans (List.prefix_append zs us))
    rw [hR.end_unique hc' hz] at hc
    exact hmiss zs (List.prefix_append zs us) hc
  · rintro ⟨hw, hmiss⟩
    exact h.keep hw fun zs _ hpre => hmiss zs hpre

end Relinked

end Walk

end TpSo
