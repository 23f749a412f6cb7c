import Mathlib.Logic.Function.Basic
import TpSo.Base.Op
import TpSo.Base.Run

/-!
# Threads over a shared memory

The state of a thread says which command it is about to run and how it goes on with each
answer. A command runs in one piece on the memory; one that does not return is not run, and
its thread waits. The threads take their turns in any order.
-/

namespace TpSo

open Function (update)

/-- Commands, their answers, and the threads that run them. -/
structure Threads (C : Type) (R : C → Type) (σ τ : Type) where
  exec : (c : C) → Op σ (R c)
  next : τ → Option ((c : C) × (R c → τ))

namespace Threads

variable {ι C : Type} {R : C → Type} {σ τ : Type}

structure Config (ι σ τ : Type) where
  memory : σ
  thread : ι → τ

/-- A command that was run. -/
structure Event (ι : Type) {C : Type} (R : C → Type) where
  thread : ι
  command : C
  answer : R command

inductive Step [DecidableEq ι] (T : Threads C R σ τ) :
    Config ι σ τ → Event ι R → Config ι σ τ → Prop where
  | mk {c : Config ι σ τ} {i : ι} {o : C} {k : R o → τ} {r : R o} {s' : σ} :
      T.next (c.thread i) = some ⟨o, k⟩ → T.exec o c.memory = (some r, s') →
      Step T c ⟨i, o, r⟩ ⟨s', update c.thread i (k r)⟩

theorem Step.cases [DecidableEq ι] {T : Threads C R σ τ} {c c' : Config ι σ τ} {e : Event ι R}
    (h : Step T c e c') :
    ∃ k s', T.next (c.thread e.thread) = some ⟨e.command, k⟩ ∧
      T.exec e.command c.memory = (some e.answer, s') ∧
      c' = ⟨s', update c.thread e.thread (k e.answer)⟩ := by
  cases h with
  | mk hnext hexec => exact ⟨_, _, hnext, hexec, rfl⟩

section Alone
variable [DecidableEq ι] {T : Threads C R σ τ} {i : ι} {th : ι → τ}

theorem Step.alone {s s' : σ} {t : τ} {o : C} {k : R o → τ} {r : R o}
    (hnext : T.next t = some ⟨o, k⟩) (hexec : T.exec o s = (some r, s')) :
    Step T ⟨s, update th i t⟩ ⟨i, o, r⟩ ⟨s', update th i (k r)⟩ := by
  have hi : T.next ((update th i t) i) = some ⟨o, k⟩ := by rw [Function.update_self, hnext]
  have hstep : Step T ⟨s, update th i t⟩ ⟨i, o, r⟩ ⟨s', update (update th i t) i (k r)⟩ :=
    .mk hi hexec
  rwa [Function.update_idem] at hstep

end Alone

end Threads

end TpSo
