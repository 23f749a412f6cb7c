import Mathlib.Logic.Function.Iterate
import Mathlib.Logic.Function.Basic

/-!
# Parent pointers that lead to a root

`Rooted up node root a`: following `up` from `a`, through elements that are nodes, one comes
to `root`. The derivation is the path, so it is finite and no element is above itself.
-/

namespace TpSo

universe u
variable {α : Type u}

inductive Rooted (up : α → α) (node : α → Prop) (root : α) : α → Prop where
  | root : Rooted up node root root
  | step {a : α} : node a → Rooted up node root (up a) → Rooted up node root a

namespace Rooted

variable {up up' : α → α} {node node' : α → Prop} {root a q x : α}

theorem congr (h : Rooted up node root a) (hup : ∀ b, node b → node' b ∧ up' b = up b) :
    Rooted up' node' root a := by
  induction h with
  | root => exact .root
  | step hnode _ ih =>
    obtain ⟨hnode', heq⟩ := hup _ hnode
    exact .step hnode' (heq ▸ ih)

/-- A node that no node hangs from is on no path but its own. -/
theorem avoid (h : Rooted up node root a) (hleaf : ∀ b, node b → up b ≠ x) (hax : a ≠ x) :
    Rooted up (fun b => node b ∧ b ≠ x) root a := by
  induction h with
  | root => exact .root
  | step hnode _ ih => exact .step ⟨hnode, hax⟩ (ih (hleaf _ hnode))

/-- Hanging `x` from a place whose path does not go through `x`. -/
theorem redirect [DecidableEq α] (h : Rooted up node root a)
    (hq : Rooted up (fun b => node b ∧ b ≠ x) root q) :
    Rooted (Function.update up x q) node root a := by
  have hq' : Rooted (Function.update up x q) node root q :=
    hq.congr fun b hb => ⟨hb.1, Function.update_of_ne hb.2 q up⟩
  induction h with
  | root => exact .root
  | @step b hnode _ ih =>
    refine .step hnode ?_
    rcases eq_or_ne b x with rfl | hne
    · rwa [Function.update_self]
    · rwa [Function.update_of_ne hne]

theorem exists_iterate (h : Rooted up node root a) : ∃ k, up^[k] a = root := by
  induction h with
  | root => exact ⟨0, rfl⟩
  | step _ _ ih =>
    obtain ⟨k, hk⟩ := ih
    exact ⟨k + 1, hk⟩

/-- What is above itself never comes to the root. -/
theorem not_of_fixed (hfix : up a = a) (hne : a ≠ root) : ¬ Rooted up node root a := by
  intro h
  obtain ⟨k, hk⟩ := h.exists_iterate
  rw [Function.iterate_fixed hfix] at hk
  exact hne hk

end Rooted

end TpSo
