import Mathlib.Logic.Function.Basic
import TpSo.Base.Program
import TpSo.Base.Run

/-!
# Threads with locks

Each thread runs its program over and over, a command at a time, on a memory that all of them
share. A lock has an owner, and only the owner can release it. The answer to another command is a
relation, so that a program can also ask its environment; what else changes the memory is a step
of the environment. `Balanced` says that a piece of program takes its locks by increasing rank and
leaves them as it found them: threads that do so only ever wait for the memory.
-/

namespace TpSo

open Function (update)

inductive LockCmd (K C : Type) where
  | acquire (k : K)
  | release (k : K)
  | other (c : C)

abbrev LockCmd.Answer {K C : Type} (R : C → Type) : LockCmd K C → Type
  | acquire _ => PUnit
  | release _ => PUnit
  | other c => R c

abbrev LockProg (K C : Type) (R : C → Type) (α : Type) := Prog (LockCmd K C) (LockCmd.Answer R) α

namespace LockProg
variable {K C : Type} {R : C → Type}

def acquire (k : K) : LockProg K C R PUnit := .call (.acquire k) .ret

def release (k : K) : LockProg K C R PUnit := .call (.release k) .ret

def other (c : C) : LockProg K C R (R c) := .call (.other c) .ret

end LockProg

structure Locking (ι K C : Type) (R : C → Type) (σ : Type) where
  exec : (c : C) → σ → R c → σ → Prop
  loop : ι → LockProg K C R PUnit
  environment : σ → σ → Prop

namespace Locking

variable {ι K C : Type} {R : C → Type} {σ α β : Type}

structure Config (ι K C : Type) (R : C → Type) (σ : Type) where
  memory : σ
  owner : K → Option ι
  thread : ι → LockProg K C R PUnit

inductive Event (ι K C : Type) (R : C → Type) where
  | command (i : ι) (c : LockCmd K C) (r : c.Answer R)
  | again (i : ι)
  | environment

inductive Step [DecidableEq ι] [DecidableEq K] (L : Locking ι K C R σ) :
    Config ι K C R σ → Event ι K C R → Config ι K C R σ → Prop where
  | acquire {c : Config ι K C R σ} {i : ι} {k : K} {next : PUnit → LockProg K C R PUnit} :
      c.thread i = .call (.acquire k) next → c.owner k = none →
      Step L c (.command i (.acquire k) ⟨⟩)
        ⟨c.memory, update c.owner k (some i), update c.thread i (next ⟨⟩)⟩
  | release {c : Config ι K C R σ} {i : ι} {k : K} {next : PUnit → LockProg K C R PUnit} :
      c.thread i = .call (.release k) next → c.owner k = some i →
      Step L c (.command i (.release k) ⟨⟩)
        ⟨c.memory, update c.owner k none, update c.thread i (next ⟨⟩)⟩
  | other {c : Config ι K C R σ} {i : ι} {o : C} {next : R o → LockProg K C R PUnit} {r : R o}
      {m : σ} : c.thread i = .call (.other o) next → L.exec o c.memory r m →
      Step L c (.command i (.other o) r) ⟨m, c.owner, update c.thread i (next r)⟩
  | again {c : Config ι K C R σ} {i : ι} : c.thread i = .ret ⟨⟩ →
      Step L c (.again i) ⟨c.memory, c.owner, update c.thread i (L.loop i)⟩
  | environment {c : Config ι K C R σ} {m : σ} : L.environment c.memory m →
      Step L c .environment ⟨m, c.owner, c.thread⟩

/-! ## Balanced programs -/

section Balanced
variable [DecidableEq K]

/-- What a thread may do with the locks that it holds, when the answers are those of `ok`. -/
def balance (rank : K → ℕ) (ok : (c : C) → R c → Prop) :
    Protocol (LockCmd K C) (LockCmd.Answer R) (K → Bool) where
  pre c g := match c with
    | .acquire k => ∀ k', g k' = true → rank k' < rank k
    | .release k => g k = true
    | .other _ => True
  post c g r g' := match c, r with
    | .acquire k, _ => g' = update g k true
    | .release k, _ => g' = update g k false
    | .other c, r => ok c r ∧ g' = g
  stopped := True

variable {rank : K → ℕ} {ok : (c : C) → R c → Prop} {g : K → Bool}

/-- The program leaves the locks that the thread holds as they were, by every path. -/
def Balanced (rank : K → ℕ) (ok : (c : C) → R c → Prop) (x : LockProg K C R α) (g : K → Bool) :
    Prop :=
  (balance rank ok).Follows (fun _ g' => g' = g) x g

/-- The lock comes after all those that are held. -/
def Above (rank : K → ℕ) (g : K → Bool) (k : K) : Prop := ∀ k', g k' = true → rank k' < rank k

omit [DecidableEq K] in
theorem Above.free {k : K} (h : Above rank g k) : g k = false := by
  rw [← Bool.not_eq_true]
  exact fun hk => lt_irrefl _ (h k hk)

theorem Balanced.pure (a : α) : Balanced rank ok (Pure.pure a : LockProg K C R α) g := rfl

theorem Balanced.stop : Balanced rank ok (.stop : LockProg K C R α) g := trivial

theorem Balanced.other (c : C) :
    Balanced rank ok (LockProg.other c : LockProg K C R (R c)) g :=
  ⟨trivial, fun _ _ h => h.2⟩

/-- What follows a command only matters for the answers that are expected. -/
theorem follows_other {c : C} {f : R c → LockProg K C R β} {Q : β → (K → Bool) → Prop}
    (hf : ∀ r, ok c r → (balance rank ok).Follows Q (f r) g) :
    (balance rank ok).Follows Q (LockProg.other c >>= f) g := by
  refine ⟨trivial, ?_⟩
  intro r g' ⟨hr, hg⟩
  rw [hg]
  exact hf r hr

theorem follows_acquire {k : K} {f : PUnit → LockProg K C R α} {Q : α → (K → Bool) → Prop}
    (hk : Above rank g k) (hf : (balance rank ok).Follows Q (f ⟨⟩) (update g k true)) :
    (balance rank ok).Follows Q (LockProg.acquire k >>= f) g := by
  refine ⟨hk, ?_⟩
  intro _ g' hg
  rw [hg]
  exact hf

theorem follows_release {k : K} {f : PUnit → LockProg K C R α} (hk : Above rank g k)
    (hf : Balanced rank ok (f ⟨⟩) g) :
    (balance rank ok).Follows (fun _ g' => g' = g) (LockProg.release k >>= f) (update g k true) := by
  refine ⟨Function.update_self .., ?_⟩
  intro _ g' hg
  have hback : g' = g := by
    rw [hg, Function.update_idem, ← hk.free, Function.update_eq_self]
  rw [hback]
  exact hf

theorem follows_release_last {k : K} (hk : Above rank g k) :
    (balance rank ok).Follows (fun _ g' => g' = g)
      (LockProg.release k : LockProg K C R PUnit) (update g k true) :=
  follows_release (f := pure) hk (Balanced.pure _)

theorem Balanced.follows {x : LockProg K C R α} {f : α → LockProg K C R β}
    {Q : β → (K → Bool) → Prop} (hx : Balanced rank ok x g)
    (hf : ∀ a, (balance rank ok).Follows Q (f a) g) : (balance rank ok).Follows Q (x >>= f) g := by
  apply Protocol.Follows.bind
  apply Protocol.Follows.mono hx
  intro a g' hg
  rw [hg]
  exact hf a

theorem Balanced.bind {x : LockProg K C R α} {f : α → LockProg K C R β} (hx : Balanced rank ok x g)
    (hf : ∀ a, Balanced rank ok (f a) g) : Balanced rank ok (x >>= f) g := hx.follows hf

end Balanced

/-! ## Runs -/

section Runs
variable [DecidableEq ι] [DecidableEq K] {L : Locking ι K C R σ} {rank : K → ℕ}
  {ok : (c : C) → R c → Prop} {c c' : Config ι K C R σ} {e : Event ι K C R}

/-- The answer is one of those expected. -/
def Event.Ok (ok : (c : C) → R c → Prop) : Event ι K C R → Prop
  | .command _ (.other c) r => ok c r
  | _ => True

/-- `g i` are the locks of thread `i`, and it is to release them all. -/
structure Consistent (rank : K → ℕ) (ok : (c : C) → R c → Prop) (c : Config ι K C R σ)
    (g : ι → K → Bool) : Prop where
  owner : ∀ i k, c.owner k = some i ↔ g i k = true
  thread : ∀ i, (balance rank ok).Follows (fun _ g' => g' = fun _ => false) (c.thread i) (g i)

/-- The other threads go on as they were. -/
theorem Consistent.follows_update {g : ι → K → Bool} {i : ι} {x : LockProg K C R PUnit}
    {g' : K → Bool} (h : Consistent rank ok c g)
    (hx : (balance rank ok).Follows (fun _ g' => g' = fun _ => false) x g') (j : ι) :
    (balance rank ok).Follows (fun _ g' => g' = fun _ => false) (update c.thread i x j)
      (update g i g' j) := by
  by_cases hj : j = i
  · subst hj
    rw [Function.update_self, Function.update_self]
    exact hx
  · rw [Function.update_of_ne hj, Function.update_of_ne hj]
    exact h.thread j

theorem Consistent.step {g : ι → K → Bool} (h : Consistent rank ok c g)
    (hloop : ∀ i, Balanced rank ok (L.loop i) fun _ => false) (hstep : Step L c e c') (he : e.Ok ok) :
    ∃ g', Consistent rank ok c' g' := by
  cases hstep with
  | @acquire i k next ht ho =>
    have hf := h.thread i
    rw [ht] at hf
    refine ⟨update g i (update (g i) k true), ?_, h.follows_update (hf.2 ⟨⟩ _ rfl)⟩
    intro j k'
    by_cases hk : k' = k
    · subst hk
      have hno : ∀ j, g j k' ≠ true := fun j hj => by simp [(h.owner j k').mpr hj] at ho
      by_cases hj : j = i
      · subst hj
        simp
      · simp [hj, hno j, Ne.symm hj]
    · by_cases hj : j = i
      · subst hj
        simp [hk, h.owner j k']
      · simp [hk, hj, h.owner j k']
  | @release i k next ht ho =>
    have hf := h.thread i
    rw [ht] at hf
    refine ⟨update g i (update (g i) k false), ?_, h.follows_update (hf.2 ⟨⟩ _ rfl)⟩
    intro j k'
    by_cases hk : k' = k
    · subst hk
      by_cases hj : j = i
      · subst hj
        simp
      · have hno : g j k' ≠ true := by
          intro hg
          have ho' := (h.owner j k').mpr hg
          rw [ho] at ho'
          exact hj (Option.some.inj ho').symm
        simp [hj, hno]
    · by_cases hj : j = i
      · subst hj
        simp [hk, h.owner j k']
      · simp [hk, hj, h.owner j k']
  | @other i o next r m ht _ =>
    have hf := h.thread i
    rw [ht] at hf
    refine ⟨update g i (g i), ?_, h.follows_update (hf.2 r _ ⟨he, rfl⟩)⟩
    rw [Function.update_eq_self]
    exact h.owner
  | @again i ht =>
    have hf := h.thread i
    rw [ht] at hf
    have hg : g i = fun _ => false := hf
    refine ⟨update g i (g i), ?_, ?_⟩
    · rw [Function.update_eq_self]
      exact h.owner
    · apply h.follows_update
      rw [hg]
      exact hloop i
  | environment _ => exact ⟨g, h.owner, h.thread⟩

omit [DecidableEq ι] in
/-- A thread that has come to its end holds nothing. -/
theorem Consistent.free_of_ret {g : ι → K → Bool} (h : Consistent rank ok c g) {i : ι}
    (ht : c.thread i = .ret ⟨⟩) (k : K) : c.owner k ≠ some i := by
  have hf := h.thread i
  rw [ht] at hf
  have hg : g i = fun _ => false := hf
  intro ho
  have hk := (h.owner i k).mp ho
  rw [hg] at hk
  cases hk

/-- The event is not the start of a round. -/
def Event.GoesOn : Event ι K C R → Prop
  | .again _ => False
  | _ => True

/-- The command that the thread is at has no answer now. -/
def Waits (L : Locking ι K C R σ) (c : Config ι K C R σ) (i : ι) : Prop :=
  ∃ o next, c.thread i = .call (.other o) next ∧ ∀ r m, ¬ L.exec o c.memory r m

/-- Who holds a lock goes on, or waits, or is at the end of a chain of increasing ranks. -/
theorem Consistent.holder_goes_on {g : ι → K → Bool} {n : ℕ} (hrank : ∀ k, rank k ≤ n)
    (h : Consistent rank ok c g) {i : ι} {k : K} {next : PUnit → LockProg K C R PUnit}
    (ht : c.thread i = .call (.acquire k) next) :
    (∃ e c', Step L c e c' ∧ e.GoesOn) ∨ ∃ j, c.thread j = .stop ∨ Waits L c j := by
  generalize hb : n - rank k = b
  induction b using Nat.strong_induction_on generalizing i k next with
  | _ b ih =>
    cases ho : c.owner k with
    | none => exact .inl ⟨_, _, .acquire ht ho, trivial⟩
    | some j =>
      have hheld := (h.owner j k).mp ho
      have hf := h.thread j
      cases hthread : c.thread j with
      | ret a =>
        rw [hthread] at hf
        have hg : g j = fun _ => false := hf
        rw [hg] at hheld
        cases hheld
      | stop => exact .inr ⟨j, .inl hthread⟩
      | call d next' =>
        rw [hthread] at hf
        cases d with
        | acquire k' =>
          have hlt : rank k < rank k' := hf.1 k hheld
          have hle := hrank k'
          exact ih (n - rank k') (by omega) hthread rfl
        | release k' =>
          have ho' := (h.owner j k').mpr hf.1
          exact .inl ⟨_, _, .release hthread ho', trivial⟩
        | other o =>
          by_cases hexec : ∃ r m, L.exec o c.memory r m
          · obtain ⟨r, m, hexec⟩ := hexec
            exact .inl ⟨_, _, .other hthread hexec, trivial⟩
          · exact .inr ⟨j, .inr ⟨o, next', hthread, fun r m hr => hexec ⟨r, m, hr⟩⟩⟩

/-- In the middle of a round somebody goes on, unless one has stopped or waits for the memory. -/
theorem Consistent.goes_on {g : ι → K → Bool} {n : ℕ} (hrank : ∀ k, rank k ≤ n)
    (h : Consistent rank ok c g) {i : ι} (hi : c.thread i ≠ .ret ⟨⟩) :
    (∃ e c', Step L c e c' ∧ e.GoesOn) ∨ ∃ j, c.thread j = .stop ∨ Waits L c j := by
  have hf := h.thread i
  cases hthread : c.thread i with
  | ret a => exact absurd hthread hi
  | stop => exact .inr ⟨i, .inl hthread⟩
  | call d next =>
    rw [hthread] at hf
    cases d with
    | acquire k => exact h.holder_goes_on hrank hthread
    | release k =>
      have ho := (h.owner i k).mpr hf.1
      exact .inl ⟨_, _, .release hthread ho, trivial⟩
    | other o =>
      by_cases hexec : ∃ r m, L.exec o c.memory r m
      · obtain ⟨r, m, hexec⟩ := hexec
        exact .inl ⟨_, _, .other hthread hexec, trivial⟩
      · exact .inr ⟨i, .inr ⟨o, next, hthread, fun r m hr => hexec ⟨r, m, hr⟩⟩⟩

/-- Without new rounds the threads come to an end, if the environment by itself does. -/
theorem acc_of_environment [Fintype ι] (henv : WellFounded fun m' m => L.environment m m')
    (c : Config ι K C R σ) : Acc (fun c' c => ∃ e, Step L c e c' ∧ e.GoesOn) c := by
  generalize hs : Finset.univ.val.map c.thread = ts
  induction ts using Prog.wellFounded_rest.cutExpand.induction generalizing c with
  | _ ts ih =>
    obtain ⟨m, owner, thread⟩ := c
    induction m using henv.induction with
    | _ m ihm =>
      refine ⟨_, ?_⟩
      rintro c' ⟨e, hstep, hgoes⟩
      have hrest : ∀ i x m' owner', Prog.Rest x (thread i) →
          Acc (fun c' c => ∃ e, Step L c e c' ∧ e.GoesOn) ⟨m', owner', update thread i x⟩ :=
        fun i x m' owner' hx => ih _ (hs ▸ Prog.cutExpand_update thread hx) _ rfl
      cases hstep with
      | acquire ht _ => exact hrest _ _ _ _ ⟨_, _, _, ht, rfl⟩
      | release ht _ => exact hrest _ _ _ _ ⟨_, _, _, ht, rfl⟩
      | other ht _ => exact hrest _ _ _ _ ⟨_, _, _, ht, rfl⟩
      | again _ => exact hgoes.elim
      | environment hm => exact ihm _ hm hs

/-- Nobody else can release the lock that a thread holds and waits for. -/
theorem self_locked_forever {i : ι} {k : K} {next : PUnit → LockProg K C R PUnit}
    {es : List (Event ι K C R)} (hrun : Run (Step L) c es c')
    (ht : c.thread i = .call (.acquire k) next) (ho : c.owner k = some i) :
    c'.thread i = .call (.acquire k) next ∧ c'.owner k = some i := by
  apply hrun.invariant _ ⟨ht, ho⟩
  intro c e c' ⟨ht, ho⟩ hstep
  cases hstep with
  | @acquire j k' next' ht' ho' =>
    have hk : k' ≠ k := by
      intro hk
      subst hk
      rw [ho] at ho'
      cases ho'
    have hj : i ≠ j := by
      intro hj
      subst hj
      rw [ht] at ht'
      cases ht'
      exact hk rfl
    exact ⟨(Function.update_of_ne hj _ _).trans ht, (Function.update_of_ne hk.symm _ _).trans ho⟩
  | @release j k' next' ht' ho' =>
    have hj : i ≠ j := by
      intro hj
      subst hj
      rw [ht] at ht'
      cases ht'
    have hk : k ≠ k' := by
      intro hk
      subst hk
      rw [ho] at ho'
      exact hj (Option.some.inj ho')
    exact ⟨(Function.update_of_ne hj _ _).trans ht, (Function.update_of_ne hk _ _).trans ho⟩
  | @other j o next' r m ht' _ =>
    have hj : i ≠ j := by
      intro hj
      subst hj
      rw [ht] at ht'
      cases ht'
    exact ⟨(Function.update_of_ne hj _ _).trans ht, ho⟩
  | @again j ht' =>
    have hj : i ≠ j := by
      intro hj
      subst hj
      rw [ht] at ht'
      cases ht'
    exact ⟨(Function.update_of_ne hj _ _).trans ht, ho⟩
  | environment _ => exact ⟨ht, ho⟩

end Runs

/-! ## Schedules -/

section Schedule
variable [DecidableEq ι] [DecidableEq K] {ν : Type}

/-- Threads whose commands are functions, with an argument for what the environment answers. -/
def ofFunction (answer : (c : C) → ν → σ → Option (R c × σ)) (loop : ι → LockProg K C R PUnit)
    (environment : σ → Option σ) : Locking ι K C R σ where
  exec c m r m' := ∃ n, answer c n m = some (r, m')
  loop := loop
  environment m m' := environment m = some m'

variable (answer : (c : C) → ν → σ → Option (R c × σ)) (loop : ι → LockProg K C R PUnit)
  (environment : σ → Option σ)

/-- The next step of a thread, with an answer, or of the environment. -/
def schedule (c : Config ι K C R σ) :
    Option (ι × ν) → Option (Event ι K C R × Config ι K C R σ)
  | none => (environment c.memory).map fun m => (.environment, ⟨m, c.owner, c.thread⟩)
  | some (i, n) =>
    match c.thread i with
    | .ret _ => some (.again i, ⟨c.memory, c.owner, update c.thread i (loop i)⟩)
    | .stop => none
    | .call (.acquire k) next =>
      if c.owner k = none then
        some (.command i (.acquire k) ⟨⟩,
          ⟨c.memory, update c.owner k (some i), update c.thread i (next ⟨⟩)⟩)
      else none
    | .call (.release k) next =>
      if c.owner k = some i then
        some (.command i (.release k) ⟨⟩,
          ⟨c.memory, update c.owner k none, update c.thread i (next ⟨⟩)⟩)
      else none
    | .call (.other o) next => (answer o n c.memory).map fun (r, m) =>
      (.command i (.other o) r, ⟨m, c.owner, update c.thread i (next r)⟩)

/-- The events of a whole schedule, and where it ends. -/
def scheduleAll (c : Config ι K C R σ) :
    List (Option (ι × ν)) → Option (List (Event ι K C R) × Config ι K C R σ)
  | [] => some ([], c)
  | a :: as => (schedule answer loop environment c a).bind fun (e, c) =>
    (scheduleAll c as).map fun (es, c) => (e :: es, c)

variable {answer loop environment}

theorem step_of_schedule {c c' : Config ι K C R σ} {a : Option (ι × ν)} {e : Event ι K C R}
    (h : schedule answer loop environment c a = some (e, c')) :
    Step (ofFunction answer loop environment) c e c' := by
  cases a with
  | none =>
    obtain ⟨m, hm, heq⟩ := Option.map_eq_some_iff.mp h
    cases heq
    exact .environment hm
  | some a =>
    unfold schedule at h
    dsimp only at h
    split at h
    · next ht =>
      cases h
      exact .again ht
    · cases h
    · next k next ht =>
      split at h
      · next ho =>
        cases h
        exact .acquire ht ho
      · cases h
    · next k next ht =>
      split at h
      · next ho =>
        cases h
        exact .release ht ho
      · cases h
    · next o next ht =>
      obtain ⟨⟨r, m⟩, hr, heq⟩ := Option.map_eq_some_iff.mp h
      cases heq
      exact .other ht ⟨a.2, hr⟩

theorem run_of_schedule {c c' : Config ι K C R σ} {as : List (Option (ι × ν))}
    {es : List (Event ι K C R)} (h : scheduleAll answer loop environment c as = some (es, c')) :
    Run (Step (ofFunction answer loop environment)) c es c' := by
  induction as generalizing c es with
  | nil =>
    cases h
    exact .nil _
  | cons a as ih =>
    obtain ⟨⟨e, c₁⟩, h₁, hrest⟩ := Option.bind_eq_some_iff.mp h
    obtain ⟨⟨es', c₂⟩, h₂, heq⟩ := Option.map_eq_some_iff.mp hrest
    cases heq
    exact .cons (step_of_schedule h₁) (ih h₂)

end Schedule

end Locking

end TpSo
