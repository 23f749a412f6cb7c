import Mathlib.Algebra.BigOperators.Group.Finset.Basic
import Mathlib.Algebra.Order.BigOperators.Group.Finset
import Mathlib.Data.Nat.Cast.Order.Basic

/-!
# Deadlock by reduction

Agents hold units of resources, and each waits for a unit of one. An agent whose resource has a
unit can end and give back what it holds. `LeftOver` is what such endings, one at a time and in any
order, leave: the greatest set of agents that wait for each other only.
-/

namespace TpSo

structure Allocation (ι ρ : Type) where
  agents : Finset ι
  waits : ι → ρ
  holds : ι → ρ → ℕ
  free : ρ → ℕ

namespace Allocation

variable {ι ρ : Type} [DecidableEq ι] {a : Allocation ι ρ} {d s t : Finset ι}

/-- The units that are there when only the agents of `s` keep theirs. -/
def available (a : Allocation ι ρ) (s : Finset ι) (r : ρ) : ℕ :=
  a.free r + ∑ i ∈ a.agents \ s, a.holds i r

inductive Reduces (a : Allocation ι ρ) : Finset ι → Finset ι → Prop where
  | refl (s : Finset ι) : Reduces a s s
  | remove {s t : Finset ι} {i : ι} : i ∈ s → 0 < a.available s (a.waits i) →
      Reduces a (s.erase i) t → Reduces a s t

/-- Nobody in the set gets what it waits for. -/
def Stuck (a : Allocation ι ρ) (s : Finset ι) : Prop :=
  ∀ i ∈ s, a.available s (a.waits i) = 0

/-- The agents are in deadlock: a reduction that cannot go on leaves them. -/
structure LeftOver (a : Allocation ι ρ) (s : Finset ι) : Prop where
  reduces : a.Reduces a.agents s
  stuck : a.Stuck s

theorem available_anti (h : d ⊆ s) (r : ρ) : a.available s r ≤ a.available d r :=
  Nat.add_le_add_left (Finset.sum_le_sum_of_subset (Finset.sdiff_subset_sdiff subset_rfl h)) _

theorem free_le_available (s : Finset ι) (r : ρ) : a.free r ≤ a.available s r :=
  Nat.le_add_right ..

theorem Reduces.subset (h : a.Reduces s t) : t ⊆ s := by
  induction h with
  | refl s => exact subset_rfl
  | remove _ _ _ ih => exact ih.trans (Finset.erase_subset ..)

theorem Reduces.keeps (h : a.Reduces s t) (hd : a.Stuck d) (hds : d ⊆ s) : d ⊆ t := by
  induction h with
  | refl s => exact hds
  | @remove s t i _ hi _ ih =>
    refine ih (Finset.subset_erase.mpr ⟨hds, ?_⟩)
    intro hid
    have hle := (available_anti (a := a) hds (a.waits i)).trans_eq (hd i hid)
    omega

theorem LeftOver.subset (h : a.LeftOver s) : s ⊆ a.agents := h.reduces.subset

theorem LeftOver.greatest (h : a.LeftOver s) (hd : a.Stuck d) (hda : d ⊆ a.agents) : d ⊆ s :=
  h.reduces.keeps hd hda

/-- The order of the endings does not matter. -/
theorem LeftOver.unique (hs : a.LeftOver s) (ht : a.LeftOver t) : s = t :=
  (ht.greatest hs.stuck hs.subset).antisymm (hs.greatest ht.stuck ht.subset)

theorem exists_reduces (a : Allocation ι ρ) (s : Finset ι) : ∃ t, a.Reduces s t ∧ a.Stuck t := by
  induction s using Finset.strongInduction with
  | H s ih =>
    by_cases hs : a.Stuck s
    · exact ⟨s, .refl s, hs⟩
    · obtain ⟨i, hi, hpos⟩ : ∃ i ∈ s, a.available s (a.waits i) ≠ 0 := by
        simpa [Stuck] using hs
      obtain ⟨t, ht, hstuck⟩ := ih _ (Finset.erase_ssubset hi)
      exact ⟨t, .remove hi (Nat.pos_of_ne_zero hpos) ht, hstuck⟩

theorem exists_leftOver (a : Allocation ι ρ) : ∃ s, a.LeftOver s :=
  have ⟨s, hs, hstuck⟩ := a.exists_reduces a.agents
  ⟨s, hs, hstuck⟩

/-! ## A test on what the agents hold -/

section Scarce
variable {scarce : ρ → Prop}

/-- Agents that wait for what has no unit are stuck when those outside hold nothing scarce. -/
theorem stuck_of_scarce (hfree : ∀ r, ¬ scarce r → 0 < a.free r)
    (hout : ∀ i ∈ a.agents, i ∉ s → ∀ r, scarce r → a.holds i r = 0)
    (hwait : ∀ i ∈ s, a.free (a.waits i) = 0) : a.Stuck s := by
  intro i hi
  have hscarce : scarce (a.waits i) := by
    by_contra h
    have := hfree _ h
    have := hwait i hi
    omega
  have hsum : ∑ j ∈ a.agents \ s, a.holds j (a.waits i) = 0 := by
    apply Finset.sum_eq_zero
    intro j hj
    obtain ⟨hj, hjs⟩ := Finset.mem_sdiff.mp hj
    exact hout j hj hjs _ hscarce
  rw [available, hwait i hi, hsum]

/-- Those that hold something scarce are those left over exactly when they are those that wait for
something that has no unit from the start. -/
theorem leftOver_iff_of_scarce (hfree : ∀ r, ¬ scarce r → 0 < a.free r) (hs : s ⊆ a.agents)
    (hmem : ∀ i ∈ a.agents, i ∈ s ↔ ∃ r, scarce r ∧ a.holds i r ≠ 0) :
    a.LeftOver s ↔ ∀ i ∈ a.agents, i ∈ s ↔ a.free (a.waits i) = 0 := by
  have hout : ∀ i ∈ a.agents, i ∉ s → ∀ r, scarce r → a.holds i r = 0 := by
    intro i hi his r hr
    by_contra h
    exact his ((hmem i hi).mpr ⟨r, hr, h⟩)
  constructor
  · intro h i hi
    have hwait : ∀ j ∈ s, a.free (a.waits j) = 0 := fun j hj =>
      Nat.eq_zero_of_le_zero ((free_le_available s _).trans_eq (h.stuck j hj))
    refine ⟨hwait i, fun hi₀ => ?_⟩
    -- With one more agent that waits in vain the set would still be stuck.
    have hstuck : a.Stuck (insert i s) := by
      apply stuck_of_scarce hfree
      · intro j hj hjs
        exact hout j hj fun h => hjs (Finset.mem_insert_of_mem h)
      · intro j hj
        obtain rfl | hj := Finset.mem_insert.mp hj
        · exact hi₀
        · exact hwait j hj
    exact h.greatest hstuck (Finset.insert_subset hi hs) (Finset.mem_insert_self ..)
  · intro h
    have hstuck : a.Stuck s :=
      stuck_of_scarce hfree hout fun i hi => (h i (hs hi)).mp hi
    obtain ⟨t, ht⟩ := a.exists_leftOver
    have hts : t ⊆ s := by
      intro i hi
      apply (h i (ht.subset hi)).mpr
      exact Nat.eq_zero_of_le_zero ((free_le_available t _).trans_eq (ht.stuck i hi))
    rwa [(ht.greatest hstuck hs).antisymm hts]

end Scarce

end Allocation

end TpSo
