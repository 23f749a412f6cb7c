import Mathlib.Data.Finset.Card
import Mathlib.Order.Bounds.Basic
import TpSo.Base.Op

/-!
# Pools that hand out their least member

`Takes s bs t` is a run of takings from the pool `s`, the least member each time, with `t` left.
A procedure `HandsOut` the pool of its state when each call on a pool with members is one taking;
its calls in a row are then a run.
-/

namespace TpSo

universe u

section Takes
variable {ι : Type} [LinearOrder ι] {s t : Finset ι} {bs : List ι}

inductive Takes : Finset ι → List ι → Finset ι → Prop where
  | nil (s : Finset ι) : Takes s [] s
  | cons {s t : Finset ι} {b : ι} {bs : List ι} : IsLeast (s : Set ι) b →
      Takes (s.erase b) bs t → Takes s (b :: bs) t

namespace Takes

theorem mem_iff (h : Takes s bs t) {c : ι} : c ∈ s ↔ c ∈ bs ∨ c ∈ t := by
  induction h with
  | nil s => simp
  | @cons s t b bs hb _ ih =>
    rw [List.mem_cons, or_assoc, ← ih, Finset.mem_erase]
    constructor
    · intro hc
      by_cases he : c = b
      · exact Or.inl he
      · exact Or.inr ⟨he, hc⟩
    · rintro (rfl | hc)
      · exact hb.1
      · exact hc.2

theorem nodup (h : Takes s bs t) : bs.Nodup := by
  induction h with
  | nil s => exact List.nodup_nil
  | @cons s t b bs _ h ih =>
    refine List.nodup_cons.mpr ⟨?_, ih⟩
    intro hb
    exact Finset.notMem_erase b s (h.mem_iff.mpr (Or.inl hb))

theorem card (h : Takes s bs t) : s.card = bs.length + t.card := by
  induction h with
  | nil s => simp
  | @cons s t b bs hb _ ih =>
    have hpos := Finset.card_pos.mpr ⟨b, hb.1⟩
    rw [Finset.card_erase_of_mem hb.1] at ih
    rw [List.length_cons]
    omega

theorem empties (h : Takes s bs t) (hlen : bs.length = s.card) : t = ∅ := by
  have hcard := h.card
  exact Finset.card_eq_zero.mp (by omega)

end Takes

end Takes

/-- `n` calls one after the other, and what they answer. -/
def Op.times {σ α : Type u} (x : Op σ α) : ℕ → Op σ (List α)
  | 0 => pure []
  | n + 1 => do
    let a ← x
    let as ← x.times n
    pure (a :: as)

namespace Op
variable {σ α : Type u} {x : Op σ α}

theorem times_succ {s s' t : σ} {a : α} {as : List α} {n : ℕ} (ha : x s = (some a, s'))
    (has : x.times n s' = (some as, t)) : x.times (n + 1) s = (some (a :: as), t) := by
  rw [times, bind_some ha, bind_some has, pure_apply]

theorem times_add {s s' t : σ} {as bs : List α} {n k : ℕ} (has : x.times n s = (some as, s'))
    (hbs : x.times k s' = (some bs, t)) : x.times (n + k) s = (some (as ++ bs), t) := by
  induction n generalizing s as with
  | zero =>
    obtain ⟨rfl, rfl⟩ := some_inj has
    simpa using hbs
  | succ n ih =>
    obtain ⟨a, s₁, ha, hrest⟩ := of_bind (congrArg Prod.fst has)
    obtain ⟨as', s₂, has', hfin⟩ := of_bind hrest
    have hrun := times_succ ha has'
    rw [has] at hrun
    obtain ⟨rfl, rfl⟩ := some_inj hrun
    rw [Nat.succ_add]
    exact times_succ ha (ih has')

/-- A call that changes nothing answers the same every time. -/
theorem times_same {s : σ} {a : α} (ha : x s = (some a, s)) (n : ℕ) :
    x.times n s = (some (List.replicate n a), s) := by
  induction n with
  | zero => rfl
  | succ n ih => exact times_succ ha ih

end Op

/-- Each call hands out the least member of the pool of the state, in the form `val` gives it. -/
structure HandsOut {σ α : Type u} {ι : Type} [LinearOrder ι] (x : Op σ α) (Inv : σ → Prop)
    (pool : σ → Finset ι) (val : ι → α) : Prop where
  takes : ∀ s, Inv s → (pool s).Nonempty → ∃ b s', x s = (some (val b), s') ∧
    IsLeast (pool s : Set ι) b ∧ pool s' = (pool s).erase b ∧ Inv s'

theorem HandsOut.times {σ α : Type u} {ι : Type} [LinearOrder ι] {x : Op σ α} {Inv : σ → Prop}
    {pool : σ → Finset ι} {val : ι → α} (h : HandsOut x Inv pool val) {n : ℕ} {s : σ} (hs : Inv s)
    (hn : n ≤ (pool s).card) : ∃ bs s', x.times n s = (some (bs.map val), s') ∧
      Takes (pool s) bs (pool s') ∧ bs.length = n ∧ Inv s' := by
  induction n generalizing s with
  | zero => exact ⟨[], s, rfl, .nil _, rfl, hs⟩
  | succ n ih =>
    obtain ⟨b, s', hb, hleast, hpool, hs'⟩ := h.takes s hs (Finset.card_pos.mp (by omega))
    have hcard := Finset.card_erase_of_mem hleast.1
    obtain ⟨bs, t, hrun, htakes, hlen, ht⟩ := ih hs' (by rw [hpool]; omega)
    refine ⟨b :: bs, t, Op.times_succ hb hrun, .cons hleast ?_, ?_, ht⟩
    · rwa [hpool] at htakes
    · rw [List.length_cons, hlen]

end TpSo
