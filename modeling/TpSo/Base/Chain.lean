import Mathlib.Data.List.Nodup
import Mathlib.Logic.Function.Basic

/-!
# Linked chains in a successor table

A table `next` links cells; a chain starts at a cell and ends at the mark `stop`. Several
owners hold one chain each, and no cell is in the chains of two of them (`Fat`). The table
and the starting cell determine a chain, so reaching the mark already excludes cycles.
-/

namespace TpSo

universe u v
variable {α : Type u} {ι : Type v}

/-- `Chain next stop a xs`: following `next` from `a` visits `xs` and then meets `stop`. -/
inductive Chain (next : α → α) (stop : α) : α → List α → Prop where
  | nil : Chain next stop stop []
  | cons {a : α} {xs : List α} : a ≠ stop → Chain next stop (next a) xs →
      Chain next stop a (a :: xs)

namespace Chain

variable {next next' : α → α} {stop a b c : α} {xs ys pre post : List α}

theorem unique (hx : Chain next stop a xs) (hy : Chain next stop a ys) : xs = ys := by
  induction hx generalizing ys with
  | nil =>
    cases hy with
    | nil => rfl
    | cons hne _ => exact absurd rfl hne
  | cons hne _ ih =>
    cases hy with
    | nil => exact absurd rfl hne
    | cons _ hy => rw [ih hy]

theorem eq_nil_iff (h : Chain next stop a xs) : xs = [] ↔ a = stop := by
  cases h with
  | nil => simp
  | cons hne _ => simp [hne]

theorem head_eq (h : Chain next stop a (b :: xs)) : a = b := by
  cases h
  rfl

theorem tail (h : Chain next stop a (b :: xs)) : Chain next stop (next b) xs := by
  cases h with
  | cons _ h => exact h

theorem start_unique (ha : Chain next stop a xs) (hb : Chain next stop b xs) : a = b := by
  cases xs with
  | nil => rw [ha.eq_nil_iff.mp rfl, hb.eq_nil_iff.mp rfl]
  | cons x xs => rw [ha.head_eq, hb.head_eq]

theorem stop_not_mem (h : Chain next stop a xs) : stop ∉ xs := by
  induction h with
  | nil => simp
  | cons hne _ ih => simp [hne.symm, ih]

theorem suffix (h : Chain next stop a (pre ++ b :: post)) : Chain next stop b (b :: post) := by
  induction pre generalizing a with
  | nil =>
    cases h with
    | cons hne h => exact .cons hne h
  | cons _ _ ih =>
    cases h with
    | cons _ h => exact ih h

theorem nodup (h : Chain next stop a xs) : xs.Nodup := by
  induction xs generalizing a with
  | nil => exact List.nodup_nil
  | cons x xs ih =>
    cases h with
    | cons hne h =>
      refine List.nodup_cons.mpr ⟨?_, ih h⟩
      intro hmem
      obtain ⟨s, t, rfl⟩ := List.append_of_mem hmem
      have hlong := Chain.cons hne h
      have hshort := h.suffix
      have heq := congrArg List.length (hlong.unique hshort)
      simp only [List.length_cons, List.length_append] at heq
      omega

theorem congr (h : Chain next stop a xs) (hx : ∀ x ∈ xs, next' x = next x) :
    Chain next' stop a xs := by
  induction h with
  | nil => exact .nil
  | @cons a xs hne _ ih =>
    refine .cons hne ?_
    rw [hx a List.mem_cons_self]
    exact ih fun x hmem => hx x (List.mem_cons_of_mem a hmem)

/-- What follows a cell of a chain starts at the successor of that cell. -/
theorem after (h : Chain next stop a (pre ++ b :: post)) : Chain next stop (next b) post := by
  cases h.suffix with
  | cons _ h => exact h

theorem next_eq_stop_iff (h : Chain next stop a (pre ++ b :: post)) :
    next b = stop ↔ post = [] := (h.after.eq_nil_iff).symm

section Update
variable [DecidableEq α]

theorem update (h : Chain next stop a xs) (hb : b ∉ xs) (v : α) :
    Chain (Function.update next b v) stop a xs :=
  h.congr fun x hx => Function.update_of_ne (fun he : x = b => hb (he ▸ hx)) v next

theorem cut (h : Chain next stop a (pre ++ c :: post)) :
    Chain (Function.update next c stop) stop a (pre ++ [c]) := by
  induction pre generalizing a with
  | nil =>
    cases h with
    | cons hne _ => exact .cons hne (by simpa using Chain.nil)
  | cons p pre ih =>
    have hnd := h.nodup
    cases h with
    | cons hne h =>
      refine .cons hne ?_
      have hpc : p ≠ c := by
        rintro rfl
        simp at hnd
      rw [Function.update_of_ne hpc]
      exact ih h

theorem snoc (h : Chain next stop a (pre ++ [c])) (hb : b ≠ stop) (hmem : b ∉ pre ++ [c]) :
    Chain (Function.update (Function.update next c b) b stop) stop a (pre ++ [c, b]) := by
  induction pre generalizing a with
  | nil =>
    cases h with
    | cons hne _ =>
      have hcb : c ≠ b := fun he => hmem (by simp [he])
      refine .cons hne ?_
      rw [Function.update_of_ne hcb, Function.update_self]
      exact .cons hb (by simpa using Chain.nil)
  | cons p pre ih =>
    have hnd := h.nodup
    cases h with
    | cons hne h =>
      have hpc : p ≠ c := by
        rintro rfl
        simp at hnd
      have hpb : p ≠ b := fun he => hmem (by simp [he])
      refine .cons hne ?_
      rw [Function.update_of_ne hpb, Function.update_of_ne hpc]
      exact ih h fun hb' => hmem (by simp_all)

theorem push (h : Chain next stop a xs) (hb : b ≠ stop) (hmem : b ∉ xs) :
    Chain (Function.update next b a) stop b (b :: xs) := by
  refine .cons hb ?_
  rw [Function.update_self]
  exact h.update hmem a

theorem insert (h : Chain next stop a (pre ++ c :: post)) (hb : b ≠ stop)
    (hmem : b ∉ pre ++ c :: post) :
    Chain (Function.update (Function.update next c b) b (next c)) stop a
      (pre ++ c :: b :: post) := by
  induction pre generalizing a with
  | nil =>
    have hnd := h.nodup
    cases h with
    | cons hne h =>
      have hcb : c ≠ b := fun he => hmem (by simp [he])
      refine .cons hne ?_
      rw [Function.update_of_ne hcb, Function.update_self]
      refine (h.update (List.nodup_cons.mp hnd).1 b).push hb fun hb' => hmem (by simp_all)
  | cons p pre ih =>
    have hnd := h.nodup
    cases h with
    | cons hne h =>
      have hpc : p ≠ c := by
        rintro rfl
        simp at hnd
      have hpb : p ≠ b := fun he => hmem (by simp [he])
      refine .cons hne ?_
      rw [Function.update_of_ne hpb, Function.update_of_ne hpc]
      exact ih h fun hb' => hmem (by simp_all)

theorem erase (h : Chain next stop a (pre ++ c :: b :: post)) :
    Chain (Function.update next c (next b)) stop a (pre ++ c :: post) := by
  induction pre generalizing a with
  | nil =>
    have hnd := h.nodup
    cases h with
    | cons hne h =>
      refine .cons hne ?_
      rw [Function.update_self]
      exact h.tail.update (fun hc => (List.nodup_cons.mp hnd).1 (List.mem_cons_of_mem b hc)) _
  | cons p pre ih =>
    have hnd := h.nodup
    cases h with
    | cons hne h =>
      have hpc : p ≠ c := by
        rintro rfl
        simp at hnd
      refine .cons hne ?_
      rw [Function.update_of_ne hpc]
      exact ih h

theorem single (hb : b ≠ stop) : Chain (Function.update next b stop) stop b [b] :=
  .cons hb (by simpa using Chain.nil)

end Update

end Chain

/-- A successor table shared by several owners: owner `i` holds the chain from `root i`. -/
structure Fat (next : α → α) (stop : α) (root : ι → α) (chains : ι → List α) : Prop where
  chain : ∀ i, Chain next stop (root i) (chains i)
  disjoint : ∀ i j, i ≠ j → ∀ b ∈ chains i, b ∉ chains j

namespace Fat

variable {next : α → α} {stop b c : α} {root : ι → α} {chains : ι → List α}
  {pre post : List α} {i : ι}

theorem owner_unique (h : Fat next stop root chains) {j : ι} (hi : b ∈ chains i)
    (hj : b ∈ chains j) : i = j := by
  by_contra hne
  exact h.disjoint i j hne b hi hj

theorem ne_stop (h : Fat next stop root chains) (hi : b ∈ chains i) : b ≠ stop :=
  fun he => (h.chain i).stop_not_mem (he ▸ hi)

section Update
variable [DecidableEq ι]

theorem disjoint_update (h : Fat next stop root chains) {xs : List α}
    (hxs : ∀ x ∈ xs, x ∈ chains i ∨ ∀ j, x ∉ chains j) :
    ∀ j k, j ≠ k → ∀ x ∈ Function.update chains i xs j, x ∉ Function.update chains i xs k := by
  intro j k hjk x hx hk
  by_cases hji : j = i
  · subst hji
    have hki : k ≠ j := fun he => hjk he.symm
    rw [Function.update_self] at hx
    rw [Function.update_of_ne hki] at hk
    rcases hxs x hx with hown | hfree
    · exact h.disjoint j k hjk x hown hk
    · exact hfree k hk
  · rw [Function.update_of_ne hji] at hx
    by_cases hki : k = i
    · subst hki
      rw [Function.update_self] at hk
      rcases hxs x hk with hown | hfree
      · exact h.disjoint j k hjk x hx hown
      · exact hfree j hx
    · rw [Function.update_of_ne hki] at hk
      exact h.disjoint j k hjk x hx hk

/-- Another chain for an owner, of cells that were its own or nobody's. -/
theorem set (h : Fat next stop root chains) {next' : α → α} {r : α} {xs : List α}
    (hchain : Chain next' stop r xs) (hxs : ∀ x ∈ xs, x ∈ chains i ∨ ∀ j, x ∉ chains j)
    (hnext : ∀ j, j ≠ i → ∀ b ∈ chains j, next' b = next b) :
    Fat next' stop (Function.update root i r) (Function.update chains i xs) where
  chain j := by
    by_cases hji : j = i
    · subst hji
      rwa [Function.update_self, Function.update_self]
    · rw [Function.update_of_ne hji, Function.update_of_ne hji]
      exact (h.chain j).congr (hnext j hji)
  disjoint := h.disjoint_update hxs

theorem pop (h : Fat next stop root chains) (hi : chains i = b :: post) :
    Fat next stop (Function.update root i (next b)) (Function.update chains i post) where
  chain j := by
    by_cases hji : j = i
    · subst hji
      have hc : Chain next stop (root j) ([] ++ b :: post) := hi ▸ h.chain j
      rw [Function.update_self, Function.update_self]
      exact hc.after
    · rw [Function.update_of_ne hji, Function.update_of_ne hji]
      exact h.chain j
  disjoint := h.disjoint_update fun x hx => .inl (by rw [hi]; exact List.mem_cons_of_mem b hx)

variable [DecidableEq α]

theorem push_first (h : Fat next stop root chains) (hb : b ≠ stop)
    (hfree : ∀ j, b ∉ chains j) :
    Fat (Function.update next b stop) stop (Function.update root i b)
      (Function.update chains i [b]) where
  chain j := by
    by_cases hji : j = i
    · subst hji
      simpa only [Function.update_self] using Chain.single hb
    · rw [Function.update_of_ne hji, Function.update_of_ne hji]
      exact (h.chain j).update (hfree j) stop
  disjoint := h.disjoint_update fun x hx => by
    rw [List.mem_singleton] at hx
    subst hx
    exact .inr hfree

theorem push (h : Fat next stop root chains) (hi : chains i = pre ++ [c]) (hb : b ≠ stop)
    (hfree : ∀ j, b ∉ chains j) :
    Fat (Function.update (Function.update next c b) b stop) stop root
      (Function.update chains i (pre ++ [c, b])) where
  chain j := by
    by_cases hji : j = i
    · subst hji
      have hmem := hfree j
      have hc := h.chain j
      rw [hi] at hmem hc
      rw [Function.update_self]
      exact hc.snoc hb hmem
    · rw [Function.update_of_ne hji]
      have hcj : c ∉ chains j := h.disjoint i j (Ne.symm hji) c (by simp [hi])
      exact ((h.chain j).update hcj b).update (hfree j) stop
  disjoint := h.disjoint_update fun x hx => by
    rw [show pre ++ [c, b] = (pre ++ [c]) ++ [b] by simp, List.mem_append, ← hi,
      List.mem_singleton] at hx
    refine hx.imp id fun he => ?_
    subst he
    exact hfree

theorem split (h : Fat next stop root chains) {k : ι} (hk : chains k = []) (hki : k ≠ i)
    (hi : chains i = pre ++ c :: post) :
    Fat (Function.update next c stop) stop (Function.update root k (next c))
      (Function.update (Function.update chains i (pre ++ [c])) k post) where
  chain j := by
    have hc := h.chain i
    rw [hi] at hc
    have hnd := hc.nodup
    by_cases hjk : j = k
    · subst hjk
      rw [Function.update_self, Function.update_self]
      apply Chain.update hc.after
      simp only [List.nodup_append, List.nodup_cons] at hnd
      exact hnd.2.1.1
    rw [Function.update_of_ne hjk, Function.update_of_ne hjk]
    by_cases hji : j = i
    · subst hji
      rw [Function.update_self]
      exact hc.cut
    · rw [Function.update_of_ne hji]
      exact (h.chain j).update (h.disjoint i j (Ne.symm hji) c (by simp [hi])) stop
  disjoint := by
    have hnd := (h.chain i).nodup
    rw [hi] at hnd
    have hpart : ∀ x ∈ post, x ∉ pre ++ [c] := by
      intro x hx hmem
      have hdis : (pre ++ [c]).Disjoint post :=
        List.disjoint_of_nodup_append (by simpa using hnd)
      exact hdis hmem hx
    have howner : ∀ j, j ≠ k → ∀ x ∈ Function.update chains i (pre ++ [c]) j, x ∈ chains j := by
      intro j _ x hx
      by_cases hji : j = i
      · subst hji
        rw [Function.update_self] at hx
        rw [hi]
        simp only [List.mem_append, List.mem_cons, List.not_mem_nil, or_false] at hx ⊢
        exact hx.imp_right Or.inl
      · rwa [Function.update_of_ne hji] at hx
    have hpost : ∀ x ∈ post, ∀ j, j ≠ k →
        x ∉ Function.update chains i (pre ++ [c]) j := by
      intro x hx j hjk hmem
      by_cases hji : j = i
      · subst hji
        rw [Function.update_self] at hmem
        exact hpart x hx hmem
      · rw [Function.update_of_ne hji] at hmem
        exact h.disjoint i j (Ne.symm hji) x (by simp [hi, hx]) hmem
    intro j l hjl x hx hl
    by_cases hjk : j = k
    · subst hjk
      rw [Function.update_self] at hx
      rw [Function.update_of_ne (Ne.symm hjl)] at hl
      exact hpost x hx l (Ne.symm hjl) hl
    rw [Function.update_of_ne hjk] at hx
    by_cases hlk : l = k
    · subst hlk
      rw [Function.update_self] at hl
      exact hpost x hl j hjk hx
    · rw [Function.update_of_ne hlk] at hl
      exact h.disjoint j l hjl x (howner j hjk x hx) (howner l hlk x hl)

end Update

end Fat

end TpSo
