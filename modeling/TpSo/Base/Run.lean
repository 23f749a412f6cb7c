import Mathlib.Algebra.GroupWithZero.Nat

/-!
# Runs of a transition system

`Run step s es s'`: from `s` the events `es`, one after another, lead to `s'`. Every prefix of
a run is a run, so what holds at the end of every run holds all along it.
-/

namespace TpSo

universe u v
variable {σ : Type u} {ε : Type v}

inductive Run (step : σ → ε → σ → Prop) : σ → List ε → σ → Prop where
  | nil (s : σ) : Run step s [] s
  | cons {s s' s'' : σ} {e : ε} {es : List ε} : step s e s' → Run step s' es s'' →
      Run step s (e :: es) s''

namespace Run

variable {step : σ → ε → σ → Prop} {s s' s'' : σ} {es es' : List ε}

theorem append (h : Run step s es s') (h' : Run step s' es' s'') :
    Run step s (es ++ es') s'' := by
  induction h with
  | nil s => exact h'
  | cons hstep _ ih => exact .cons hstep (ih h')

theorem det (hdet : ∀ s e s₁ s₂, step s e s₁ → step s e s₂ → s₁ = s₂) (h : Run step s es s')
    (h' : Run step s es s'') : s' = s'' := by
  induction h with
  | nil s =>
    cases h'
    rfl
  | cons hstep _ ih =>
    cases h' with
    | cons hstep' hrest =>
      obtain rfl := hdet _ _ _ _ hstep hstep'
      exact ih hrest

theorem mono {step' : σ → ε → σ → Prop} (h : Run step s es s')
    (hstep : ∀ s e s', step s e s' → step' s e s') : Run step' s es s' := by
  induction h with
  | nil s => exact .nil s
  | cons h _ ih => exact .cons (hstep _ _ _ h) ih

theorem of_append (h : Run step s (es ++ es') s'') :
    ∃ s', Run step s es s' ∧ Run step s' es' s'' := by
  induction es generalizing s with
  | nil => exact ⟨s, .nil s, h⟩
  | cons e es ih =>
    cases h with
    | cons hstep hrest =>
      obtain ⟨s₁, hrun, hlast⟩ := ih hrest
      exact ⟨s₁, .cons hstep hrun, hlast⟩

theorem of_prefix {e : ε} (h : Run step s es s'') (hpre : es' ++ [e] <+: es) :
    ∃ s₁ s₂, Run step s es' s₁ ∧ step s₁ e s₂ := by
  obtain ⟨rest, rfl⟩ := hpre
  obtain ⟨s₂, hrun, _⟩ := h.of_append
  obtain ⟨s₁, hbefore, hlast⟩ := hrun.of_append
  cases hlast with
  | cons hstep hnil => exact ⟨s₁, _, hbefore, hstep⟩

/-- What every step preserves, every run preserves. -/
theorem invariant {I : σ → Prop} (hstep : ∀ s e s', I s → step s e s' → I s') (hs : I s)
    (h : Run step s es s') : I s' := by
  induction h with
  | nil s => exact hs
  | cons h _ ih => exact ih (hstep _ _ _ hs h)

/-- A run seen through `f` is a run of another system whose steps match those of this one where an
invariant holds. -/
theorem simulates {τ : Type*} {step' : τ → ε → τ → Prop} {I : σ → Prop} {f : σ → τ}
    (hstep : ∀ s e s', I s → step s e s' → step' (f s) e (f s') ∧ I s') (hs : I s)
    (h : Run step s es s') : Run step' (f s) es (f s') ∧ I s' := by
  induction h with
  | nil s => exact ⟨.nil (f s), hs⟩
  | cons h _ ih =>
    obtain ⟨hmatch, hi⟩ := hstep _ _ _ hs h
    obtain ⟨hrest, hlast⟩ := ih hi
    exact ⟨.cons hmatch hrest, hlast⟩

/-- The same for what also speaks of the events so far. -/
theorem invariant_events {I : σ → List ε → Prop}
    (hstep : ∀ s e s' es, I s es → step s e s' → I s' (es ++ [e])) (hs : I s es)
    (h : Run step s es' s') : I s' (es ++ es') := by
  induction h generalizing es with
  | nil s => rwa [List.append_nil]
  | cons h _ ih =>
    rw [List.append_cons]
    exact ih (hstep _ _ _ _ hs h)

theorem invariant_history {I : σ → List ε → Prop}
    (hstep : ∀ s e s' es, I s es → step s e s' → I s' (es ++ [e])) (hs : I s [])
    (h : Run step s es s') : I s' es := h.invariant_events hstep hs

/-- `P` of every event of a run, with the events before it and the states around it. -/
def Each (step : σ → ε → σ → Prop) (P : List ε → σ → ε → σ → Prop) (s : σ) (es : List ε) : Prop :=
  ∀ before e s₁ s₂, before ++ [e] <+: es → Run step s before s₁ → step s₁ e s₂ → P before s₁ e s₂

/-- What is preserved by the events with `P` holds after every prefix of a run of them. -/
theorem Each.invariant {P : List ε → σ → ε → σ → Prop} {I : List ε → σ → Prop}
    (h : Each step P s es)
    (hstep : ∀ before s e s', I before s → step s e s' → P before s e s' → I (before ++ [e]) s')
    (hs : I [] s) : ∀ before s', before <+: es → Run step s before s' → I before s' := by
  intro before s' hpre hrun
  -- the run so far goes along, for `P` of the next event is about it
  have hinv : Run step s before s' ∧ (before <+: es → I before s') := by
    refine hrun.invariant_history (I := fun s' before => Run step s before s' ∧
      (before <+: es → I before s')) ?_ ⟨.nil s, fun _ => hs⟩
    rintro s₁ e s₂ before ⟨hbefore, hi⟩ he
    refine ⟨hbefore.append (.cons he (.nil s₂)), fun hpre => ?_⟩
    have hi₁ := hi ((List.prefix_append before [e]).trans hpre)
    exact hstep _ _ _ _ hi₁ he (h _ _ _ _ hpre hbefore he)
  exact hinv.2 hpre

/-- Two properties of the events agree along a run if they do where an invariant holds, which the
events with the second one preserve. -/
theorem each_iff {P Q : List ε → σ → ε → σ → Prop} {I : List ε → σ → Prop}
    (hiff : ∀ before s e s', I before s → step s e s' → (P before s e s' ↔ Q before s e s'))
    (hstep : ∀ before s e s', I before s → step s e s' → Q before s e s' → I (before ++ [e]) s')
    (hs : I [] s) : Each step P s es ↔ Each step Q s es := by
  constructor
  · intro h before e s₁ s₂ hpre hrun he
    have hi := h.invariant (fun before s e s' hi he hp =>
      hstep before s e s' hi he ((hiff before s e s' hi he).mp hp)) hs before s₁
      ((List.prefix_append before [e]).trans hpre) hrun
    exact (hiff before s₁ e s₂ hi he).mp (h before e s₁ s₂ hpre hrun he)
  · intro h before e s₁ s₂ hpre hrun he
    have hi := h.invariant hstep hs before s₁ ((List.prefix_append before [e]).trans hpre) hrun
    exact (hiff before s₁ e s₂ hi he).mpr (h before e s₁ s₂ hpre hrun he)

/-- A potential that pays for every event bounds the cost of a run. -/
theorem potential {I : σ → Prop} {pot : σ → Nat} {cost : ε → Nat}
    (hstep : ∀ s e s', I s → step s e s' → I s' ∧ cost e + pot s' ≤ pot s) (hs : I s)
    (h : Run step s es s') : (es.map cost).sum + pot s' ≤ pot s := by
  induction h with
  | nil s => simp
  | cons h _ ih =>
    obtain ⟨hi, hpot⟩ := hstep _ _ _ hs h
    have hrest := ih hi
    rw [List.map_cons, List.sum_cons]
    omega

/-- Along every path the system comes to `goal`. -/
inductive Inevitable (step : σ → ε → σ → Prop) (goal : σ → Prop) : σ → Prop where
  | here {s : σ} : goal s → Inevitable step goal s
  | next {s : σ} : (∃ e s', step s e s') → (∀ e s', step s e s' → Inevitable step goal s') →
      Inevitable step goal s

/-- Every path has an end, and it is not before the goal. -/
theorem inevitable_of_acc {I goal : σ → Prop} (hacc : Acc (fun s' s => ∃ e, step s e s') s)
    (hs : I s) (hstep : ∀ s e s', I s → ¬ goal s → step s e s' → I s')
    (hnext : ∀ s, I s → ¬ goal s → ∃ e s', step s e s') : Inevitable step goal s := by
  induction hacc with
  | intro s _ ih =>
    by_cases hgoal : goal s
    · exact .here hgoal
    · exact .next (hnext s hs hgoal) fun e s' he => ih s' ⟨e, he⟩ (hstep s e s' hs hgoal he)

theorem of_foldlM {f : σ → ε → Option σ} {P : σ → ε → Prop} [∀ s e, Decidable (P s e)]
    (h : es.foldlM (fun s e => if P s e then f s e else none) s = some s') :
    Run (fun s e s' => f s e = some s' ∧ P s e) s es s' := by
  induction es generalizing s with
  | nil =>
    cases h
    exact .nil _
  | cons e es ih =>
    rw [List.foldlM_cons] at h
    obtain ⟨s₁, h₁, hrest⟩ := Option.bind_eq_some_iff.mp h
    by_cases hP : P s e
    · rw [if_pos hP] at h₁
      exact .cons ⟨h₁, hP⟩ (ih hrest)
    · rw [if_neg hP] at h₁
      cases h₁

end Run

section Respond
variable {ρ : Type*}

/-- The answers to a list of calls, one after another, and the state they leave. -/
def respond (step : σ → ε → ρ × σ) : σ → List ε → List ρ × σ
  | s, [] => ([], s)
  | s, e :: es => ((step s e).1 :: (respond step (step s e).2 es).1, (respond step (step s e).2 es).2)

/-- Two systems whose states are related answer every list of calls alike if they answer each call
alike and the relation goes on. -/
theorem respond_refines {τ : Type*} {step : σ → ε → ρ × σ} {step' : τ → ε → ρ × τ}
    {R : σ → τ → Prop}
    (hstep : ∀ s t e, R s t → (step s e).1 = (step' t e).1 ∧ R (step s e).2 (step' t e).2)
    (es : List ε) {s : σ} {t : τ} (h : R s t) :
    (respond step s es).1 = (respond step' t es).1 ∧
      R (respond step s es).2 (respond step' t es).2 := by
  induction es generalizing s t with
  | nil => exact ⟨rfl, h⟩
  | cons e es ih =>
    obtain ⟨hanswer, hnext⟩ := hstep s t e h
    obtain ⟨hrest, hlast⟩ := ih hnext
    exact ⟨by rw [respond, respond, hanswer, hrest], hlast⟩

end Respond

end TpSo
