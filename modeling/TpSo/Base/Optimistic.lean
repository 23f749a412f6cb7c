import Mathlib.Data.Nat.Notation
import Mathlib.Logic.Function.Basic
import TpSo.Base.Run

/-!
# Requests that read first and write later

A request reads the memory in one step and commits in another, with what it read. Other
requests come in between. Where every commit does what it would do had it read just then, the
memory is that of the requests served one at a time in the order of their commits.
-/

namespace TpSo

open Function (update)

universe u v w
variable {σ : Type u} {ρ κ : Type v}

structure Optimistic (σ : Type u) (ρ κ : Type v) where
  read : ρ → σ → κ
  commit : ρ → κ → σ → σ

namespace Optimistic

def serve (P : Optimistic σ ρ κ) (s : σ) (r : ρ) : σ := P.commit r (P.read r s) s

/-- The memory, and what each client holds between its two steps. -/
structure State (σ : Type u) (ρ κ : Type v) where
  memory : σ
  pending : ℕ → Option (ρ × κ)

def start (s : σ) : State σ ρ κ := ⟨s, fun _ => none⟩

inductive Event (ρ : Type v) where
  | read (client : ℕ) (request : ρ)
  | commit (client : ℕ) (request : ρ)
  deriving DecidableEq

def committed (es : List (Event ρ)) : List ρ :=
  es.filterMap fun
    | .read _ _ => none
    | .commit _ r => some r

inductive Step (P : Optimistic σ ρ κ) : State σ ρ κ → Event ρ → State σ ρ κ → Prop where
  | read {c : State σ ρ κ} {i : ℕ} {r : ρ} : c.pending i = none →
      Step P c (.read i r) ⟨c.memory, update c.pending i (some (r, P.read r c.memory))⟩
  | commit {c : State σ ρ κ} {i : ℕ} {r : ρ} {k : κ} : c.pending i = some (r, k) →
      Step P c (.commit i r) ⟨P.commit r k c.memory, update c.pending i none⟩

/-- A step that, if it commits, does so as it would with a new reading. -/
def Current (P : Optimistic σ ρ κ) (c : State σ ρ κ) : Event ρ → Prop
  | .read _ _ => True
  | .commit i r => ∀ k, c.pending i = some (r, k) →
      P.commit r k c.memory = P.commit r (P.read r c.memory) c.memory

theorem serial (P : Optimistic σ ρ κ) {c c' : State σ ρ κ} {es : List (Event ρ)}
    (h : Run (fun c e c' => P.Current c e ∧ P.Step c e c') c es c') :
    c'.memory = (committed es).foldl P.serve c.memory := by
  induction h with
  | nil c => rfl
  | cons hpaso _ ih =>
    obtain ⟨hcurrent, hstep⟩ := hpaso
    cases hstep with
    | read _ => exact ih
    | commit hpending =>
      rw [hcurrent _ hpending] at ih
      exact ih

/-- Two requests that read before any of them commits, the second one to read first to commit. -/
theorem run_crossed (P : Optimistic σ ρ κ) {Q : State σ ρ κ → Event ρ → Prop} (s : σ) (r r' : ρ)
    (hread : ∀ c i q, Q c (.read i q))
    (hfirst : ∀ c : State σ ρ κ, c.memory = s → c.pending 1 = some (r', P.read r' s) →
      Q c (.commit 1 r'))
    (hsecond : ∀ c : State σ ρ κ, c.memory = P.serve s r' → c.pending 0 = some (r, P.read r s) →
      Q c (.commit 0 r)) :
    ∃ c', Run (fun c e c' => Q c e ∧ P.Step c e c') (start s)
        [.read 0 r, .read 1 r', .commit 1 r', .commit 0 r] c' ∧
      c'.memory = P.commit r (P.read r s) (P.serve s r') :=
  ⟨_, .cons ⟨hread _ _ _, .read rfl⟩ (.cons ⟨hread _ _ _, .read rfl⟩
    (.cons ⟨hfirst _ rfl rfl, .commit rfl⟩ (.cons ⟨hsecond _ rfl rfl, .commit rfl⟩ (.nil _)))), rfl⟩

end Optimistic

end TpSo
