import Mathlib.Data.Fintype.Basic
import Mathlib.Logic.Hydra
import TpSo.Base.Threads

/-!
# Programs that call commands

A program is a tree: it ends with a value, stops for good, or calls a command and goes on with
its answer. Run in one go it is a procedure; as a thread it runs a command at a time. A
`Protocol` says what a thread may call with what it knows, and what it knows after each answer:
that a program follows it is proved from the program alone, whatever the other threads do.
-/

namespace TpSo

inductive Prog (C : Type) (R : C → Type) (α : Type) where
  | ret (a : α)
  | stop
  | call (c : C) (k : R c → Prog C R α)

namespace Prog

variable {C : Type} {R : C → Type} {σ α β : Type}

def bind : Prog C R α → (α → Prog C R β) → Prog C R β
  | ret a, f => f a
  | stop, _ => stop
  | call c k, f => call c fun r => (k r).bind f

instance : Monad (Prog C R) where
  pure := ret
  bind := bind

theorem bind_assoc {γ : Type} (x : Prog C R α) (f : α → Prog C R β) (g : β → Prog C R γ) :
    x >>= f >>= g = x >>= fun a => f a >>= g := by
  induction x with
  | ret a => rfl
  | stop => rfl
  | call c k ih => exact congrArg (call c) (funext ih)

theorem bind_pure (x : Prog C R α) : x >>= pure = x := by
  induction x with
  | ret a => rfl
  | stop => rfl
  | call c k ih => exact congrArg (call c) (funext ih)

def command (c : C) : Prog C R (R c) := call c ret

/-- `while (cond b) b = body b`, given up after `fuel` rounds. -/
def whileDo (cond : α → Bool) (body : α → Prog C R α) : ℕ → α → Prog C R α
  | 0, b => if cond b then stop else pure b
  | n + 1, b => if cond b then body b >>= whileDo cond body n else pure b

/-- The program with nothing in between its commands. -/
def run (exec : (c : C) → Op σ (R c)) : Prog C R α → Op σ α
  | ret a => Pure.pure a
  | stop => Op.abort
  | call c k => exec c >>= fun r => (k r).run exec

section Run
variable (exec : (c : C) → Op σ (R c))

@[simp] theorem run_pure (a : α) : (pure a : Prog C R α).run exec = pure a := rfl

@[simp] theorem run_stop : (stop : Prog C R α).run exec = Op.abort := rfl

@[simp] theorem run_command (c : C) : (command c : Prog C R (R c)).run exec = exec c := by
  funext s
  change (exec c >>= fun r => pure r) s = exec c s
  rcases he : exec c s with ⟨_ | r, s'⟩
  · rw [Op.bind_none he]
  · rw [Op.bind_some he, Op.pure_apply]

@[simp] theorem run_bind (x : Prog C R α) (f : α → Prog C R β) :
    (x >>= f).run exec = x.run exec >>= fun a => (f a).run exec := by
  induction x with
  | ret a =>
    funext s
    exact (Op.pure_bind' a (fun a => (f a).run exec) s).symm
  | stop => rfl
  | call c k ih =>
    change (exec c >>= fun r => ((k r).bind f).run exec) = _
    rw [show (call c k).run exec = exec c >>= fun r => (k r).run exec from rfl, Op.bind_assoc]
    exact congrArg _ (funext ih)

theorem run_whileDo (cond : α → Bool) (body : α → Prog C R α) (fuel : ℕ) (b : α) :
    (whileDo cond body fuel b).run exec =
      Op.whileDo cond (fun b => (body b).run exec) fuel b := by
  induction fuel generalizing b with
  | zero =>
    unfold whileDo Op.whileDo
    split <;> rfl
  | succ n ih =>
    unfold whileDo Op.whileDo
    split
    · rw [run_bind]
      exact congrArg _ (funext ih)
    · rfl

end Run

def next : Prog C R α → Option ((c : C) × (R c → Prog C R α))
  | ret _ | stop => none
  | call c k => some ⟨c, k⟩

def Rest (x y : Prog C R α) : Prop := ∃ c k r, y = .call c k ∧ x = k r

theorem wellFounded_rest : WellFounded (Rest : Prog C R α → Prog C R α → Prop) := by
  refine ⟨fun y => ?_⟩
  induction y with
  | ret a => exact ⟨_, fun x hx => by obtain ⟨c, k, r, hy, -⟩ := hx; cases hy⟩
  | stop => exact ⟨_, fun x hx => by obtain ⟨c, k, r, hy, -⟩ := hx; cases hy⟩
  | call c k ih =>
    refine ⟨_, fun x hx => ?_⟩
    obtain ⟨c', k', r, hy, rfl⟩ := hx
    cases hy
    exact ih r

theorem cutExpand_update {ι τ : Type} [Fintype ι] [DecidableEq ι] {r : τ → τ → Prop} (f : ι → τ)
    {i : ι} {x : τ} (hx : r x (f i)) :
    Relation.CutExpand r (Finset.univ.val.map (Function.update f i x)) (Finset.univ.val.map f) := by
  have huniv : (Finset.univ : Finset ι).val = i ::ₘ (Finset.univ.erase i).val := by
    rw [Finset.erase_val, Multiset.cons_erase (Finset.mem_univ i)]
  have hrest : (Finset.univ.erase i).val.map (Function.update f i x) =
      (Finset.univ.erase i).val.map f :=
    Multiset.map_congr rfl fun j hj => Function.update_of_ne (Finset.ne_of_mem_erase hj) _ _
  rw [huniv, Multiset.map_cons, Multiset.map_cons, hrest, Function.update_self,
    ← Multiset.singleton_add, ← Multiset.singleton_add]
  exact Relation.cutExpand_single_add hx _

/-- Threads whose state holds a program can run it to its end, the others as they are. -/
theorem run_alone {ι τ : Type} [DecidableEq ι] (T : Threads C R σ τ) (prog : τ → Prog C R α)
    (hnext : ∀ t c k, prog t = call c k →
      ∃ k', T.next t = some ⟨c, k'⟩ ∧ ∀ r, prog (k' r) = k r)
    (i : ι) (th : ι → τ) {t : τ} {s s' : σ} {a : α} (h : (prog t).run T.exec s = (some a, s')) :
    ∃ es t', Run T.Step ⟨s, Function.update th i t⟩ es ⟨s', Function.update th i t'⟩ ∧
      prog t' = pure a := by
  generalize hx : prog t = x at h
  induction x generalizing s t with
  | ret b =>
    obtain ⟨rfl, rfl⟩ := Op.some_inj (show (some b, s) = (some a, s') from h)
    exact ⟨[], t, .nil _, hx⟩
  | stop => simp [run] at h
  | call c k ih =>
    obtain ⟨k', hnext', hk'⟩ := hnext t c k hx
    rw [run] at h
    rcases he : T.exec c s with ⟨_ | r, s₁⟩
    · rw [Op.bind_none he] at h
      simp at h
    · rw [Op.bind_some he] at h
      obtain ⟨es, t', hrun, ht'⟩ := ih r (hk' r) h
      exact ⟨_, t', .cons (.alone hnext' he) hrun, ht'⟩

end Prog

/-- What a thread may call in each state of its knowledge `γ`, and what it knows next. -/
structure Protocol (C : Type) (R : C → Type) (γ : Type) where
  pre : C → γ → Prop
  post : (c : C) → γ → R c → γ → Prop
  stopped : Prop

namespace Protocol

variable {C : Type} {R : C → Type} {γ α β : Type} {P : Protocol C R γ}

/-- The program follows the protocol, and its result satisfies `Q`. -/
def Follows (P : Protocol C R γ) (Q : α → γ → Prop) : Prog C R α → γ → Prop
  | .ret a, g => Q a g
  | .stop, _ => P.stopped
  | .call c k, g => P.pre c g ∧ ∀ r g', P.post c g r g' → Follows P Q (k r) g'

namespace Follows

variable {Q Q' : α → γ → Prop} {g : γ}

theorem pure {a : α} (h : Q a g) : Follows P Q (Pure.pure a) g := h

theorem command {c : C} {Q : R c → γ → Prop} (hpre : P.pre c g)
    (hpost : ∀ r g', P.post c g r g' → Q r g') : Follows P Q (Prog.command c) g :=
  ⟨hpre, hpost⟩

theorem mono {x : Prog C R α} (h : Follows P Q x g) (hq : ∀ a g, Q a g → Q' a g) :
    Follows P Q' x g := by
  induction x generalizing g with
  | ret a => exact hq a g h
  | stop => exact h
  | call c k ih => exact ⟨h.1, fun r g' hpost => ih r (h.2 r g' hpost)⟩

theorem bind {x : Prog C R α} {f : α → Prog C R β} {Q : β → γ → Prop}
    (h : Follows P (fun a g => Follows P Q (f a) g) x g) : Follows P Q (x >>= f) g := by
  induction x generalizing g with
  | ret a => exact h
  | stop => exact h
  | call c k ih => exact ⟨h.1, fun r g' hpost => ih r (h.2 r g' hpost)⟩

/-- The loop rule: an invariant, and a variant that every round decreases. -/
theorem whileDo {cond : α → Bool} {body : α → Prog C R α} (I : α → γ → Prop) (variant : α → ℕ)
    (hpos : ∀ b g, I b g → cond b = true → 0 < variant b)
    (round : ∀ b g, I b g → cond b = true →
      Follows P (fun b' g' => I b' g' ∧ variant b' < variant b) (body b) g) :
    ∀ (fuel : ℕ) (b : α) (g : γ), variant b ≤ fuel → I b g →
      Follows P (fun b' g' => I b' g' ∧ cond b' = false) (Prog.whileDo cond body fuel b) g := by
  intro fuel
  induction fuel with
  | zero =>
    intro b g hv hi
    cases hc : cond b with
    | true => exact absurd (hpos b g hi hc) (by omega)
    | false =>
      simp only [Prog.whileDo, hc, Bool.false_eq_true, if_false]
      exact ⟨hi, hc⟩
  | succ n ih =>
    intro b g hv hi
    cases hc : cond b with
    | true =>
      simp only [Prog.whileDo, hc, if_true]
      exact ((round b g hi hc).mono fun b' g' hb' => ih b' g' (by omega) hb'.1).bind
    | false =>
      simp only [Prog.whileDo, hc, Bool.false_eq_true, if_false]
      exact ⟨hi, hc⟩

end Follows

end Protocol

end TpSo
