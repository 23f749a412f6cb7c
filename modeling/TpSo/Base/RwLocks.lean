import Mathlib.Logic.Function.Basic
import TpSo.Base.Program
import TpSo.Base.Run

/-!
# Threads with locks for reading and writing

A lock is held by one thread to write or by any number of threads to read. Each thread answers one
request after another, a command at a time, on a memory that all of them share; a command may be the
call of a procedure, which may call itself. `Orderly` says that a piece of program takes its locks by
increasing rank, leaves them as it found them and calls nothing with one: threads that do so never
block each other.
-/

namespace TpSo

open Function (update)

inductive Mode where
  | read
  | write
  deriving DecidableEq

/-- The lock can be taken beside another thread that holds it so. -/
def Mode.Fits : Mode → Option Mode → Prop
  | _, none => True
  | .read, some .read => True
  | _, _ => False

instance (m : Mode) (o : Option Mode) : Decidable (m.Fits o) := by
  cases m <;> rcases o with - | ⟨_ | _⟩ <;> unfold Mode.Fits <;> infer_instance

theorem Mode.fits_none (m : Mode) : m.Fits none := by cases m <;> trivial

theorem Mode.write_fits {o : Option Mode} (h : Mode.write.Fits o) : o = none := by
  rcases o with - | m
  · rfl
  · cases m <;> exact h.elim

theorem Mode.fits_write {m : Mode} (h : m.Fits (some .write)) : False := by cases m <;> exact h

inductive RwCmd (K C : Type) where
  | lock (m : Mode) (k : K)
  | unlock (k : K)
  | other (c : C)

abbrev RwCmd.Answer {K C : Type} (R : C → Type) : RwCmd K C → Type
  | lock _ _ => PUnit
  | unlock _ => PUnit
  | other c => R c

abbrev RwProg (K C : Type) (R : C → Type) (α : Type) := Prog (RwCmd K C) (RwCmd.Answer R) α

namespace RwProg
variable {K C : Type} {R : C → Type} {σ α β : Type}

def lock (m : Mode) (k : K) : RwProg K C R PUnit := .call (.lock m k) .ret

def unlock (k : K) : RwProg K C R PUnit := .call (.unlock k) .ret

def other (c : C) : RwProg K C R (R c) := .call (.other c) .ret

def guarded (m : Mode) (k : K) (x : RwProg K C R α) : RwProg K C R α := do
  lock m k
  let a ← x
  unlock k
  pure a

/-- What the locks do when nobody else is there. -/
def execAlone (exec : (c : C) → Op σ (R c)) : (c : RwCmd K C) → Op σ (c.Answer R)
  | .lock _ _ => pure ⟨⟩
  | .unlock _ => pure ⟨⟩
  | .other c => exec c

/-- The program with nothing in between its commands. -/
abbrev alone (exec : (c : C) → Op σ (R c)) (x : RwProg K C R α) : Op σ α :=
  x.run (execAlone exec)

section Alone
variable (exec : (c : C) → Op σ (R c))

@[simp] theorem alone_lock (m : Mode) (k : K) :
    (lock m k : RwProg K C R PUnit).alone exec = pure ⟨⟩ := rfl

@[simp] theorem alone_unlock (k : K) : (unlock k : RwProg K C R PUnit).alone exec = pure ⟨⟩ := rfl

@[simp] theorem alone_other (c : C) : (other c : RwProg K C R (R c)).alone exec = exec c :=
  Prog.run_command (execAlone exec) (.other c)

theorem alone_guarded (m : Mode) (k : K) (x : RwProg K C R α) :
    (guarded m k x).alone exec = x.alone exec := by
  funext s
  have hafter : (fun a => ((unlock k : RwProg K C R PUnit) >>= fun _ => pure a).run
      (execAlone exec)) = (pure : α → Op σ α) := rfl
  rw [guarded, alone, Prog.run_bind, ← alone, alone_lock, Op.pure_bind', Prog.run_bind, hafter,
    Op.bind_pure]

end Alone

end RwProg

/-- What the commands do, the procedures that some of them call, and what a thread may be asked. -/
structure RwSystem (K C : Type) (R : C → Type) (σ : Type) where
  exec : (c : C) → σ → R c → σ → Prop
  body : (c : C) → Option (RwProg K C R (R c))
  request : RwProg K C R PUnit → Prop

namespace RwSystem

variable {ι K C : Type} {R : C → Type} {σ α β : Type}

structure Config (ι K C : Type) (R : C → Type) (σ : Type) where
  memory : σ
  held : ι → K → Option Mode
  thread : ι → RwProg K C R PUnit

inductive Event (ι K C : Type) (R : C → Type) where
  | command (i : ι) (c : RwCmd K C) (r : c.Answer R)
  | enter (i : ι) (c : C)
  | request (i : ι)

inductive Step [DecidableEq ι] [DecidableEq K] (L : RwSystem K C R σ) :
    Config ι K C R σ → Event ι K C R → Config ι K C R σ → Prop where
  | lock {c : Config ι K C R σ} {i : ι} {m : Mode} {k : K} {next : PUnit → RwProg K C R PUnit} :
      c.thread i = .call (.lock m k) next → (∀ j, m.Fits (c.held j k)) →
      Step L c (.command i (.lock m k) ⟨⟩)
        ⟨c.memory, update c.held i (update (c.held i) k (some m)), update c.thread i (next ⟨⟩)⟩
  | unlock {c : Config ι K C R σ} {i : ι} {k : K} {next : PUnit → RwProg K C R PUnit} :
      c.thread i = .call (.unlock k) next → c.held i k ≠ none →
      Step L c (.command i (.unlock k) ⟨⟩)
        ⟨c.memory, update c.held i (update (c.held i) k none), update c.thread i (next ⟨⟩)⟩
  | other {c : Config ι K C R σ} {i : ι} {o : C} {next : R o → RwProg K C R PUnit} {r : R o}
      {m : σ} : c.thread i = .call (.other o) next → L.body o = none → L.exec o c.memory r m →
      Step L c (.command i (.other o) r) ⟨m, c.held, update c.thread i (next r)⟩
  | enter {c : Config ι K C R σ} {i : ι} {o : C} {next : R o → RwProg K C R PUnit}
      {x : RwProg K C R (R o)} : c.thread i = .call (.other o) next → L.body o = some x →
      Step L c (.enter i o) ⟨c.memory, c.held, update c.thread i (x >>= next)⟩
  | request {c : Config ι K C R σ} {i : ι} {x : RwProg K C R PUnit} : c.thread i = .ret ⟨⟩ →
      L.request x → Step L c (.request i) ⟨c.memory, c.held, update c.thread i x⟩

/-! ## Programs that keep an order -/

section Orderly
variable [DecidableEq K]

/-- What a thread may do with the locks that it holds, when the answers are those of `ok`. -/
def orderly (rank : K → ℕ) (body : (c : C) → Option (RwProg K C R (R c)))
    (ok : (c : C) → R c → Prop) :
    Protocol (RwCmd K C) (RwCmd.Answer R) (K → Option Mode) where
  pre c g := match c with
    | .lock _ k => ∀ k', g k' ≠ none → rank k' < rank k
    | .unlock k => g k ≠ none
    | .other c => body c ≠ none → g = fun _ => none
  post c g r g' := match c, r with
    | .lock m k, _ => g' = update g k (some m)
    | .unlock k, _ => g' = update g k none
    | .other c, r => ok c r ∧ g' = g
  stopped := True

variable {rank : K → ℕ} {body : (c : C) → Option (RwProg K C R (R c))}
  {ok : (c : C) → R c → Prop} {g : K → Option Mode}

/-- By every path the program leaves the locks that the thread holds as they were. -/
def Orderly (rank : K → ℕ) (body : (c : C) → Option (RwProg K C R (R c)))
    (ok : (c : C) → R c → Prop) (x : RwProg K C R α) (g : K → Option Mode) : Prop :=
  (orderly rank body ok).Follows (fun _ g' => g' = g) x g

/-- The procedures take no lock that they do not give back, and answer as is expected. -/
def OrderlyBodies (rank : K → ℕ) (body : (c : C) → Option (RwProg K C R (R c)))
    (ok : (c : C) → R c → Prop) : Prop :=
  ∀ o x, body o = some x → (orderly rank body ok).Follows
    (fun r g' => ok o r ∧ g' = fun _ => none) x fun _ => none

/-- The lock comes after all those that are held. -/
def Above (rank : K → ℕ) (g : K → Option Mode) (k : K) : Prop :=
  ∀ k', g k' ≠ none → rank k' < rank k

omit [DecidableEq K] in
theorem Above.free {k : K} (h : Above rank g k) : g k = none := by
  by_contra hk
  exact lt_irrefl _ (h k hk)

omit [DecidableEq K] in
theorem above_none (k : K) : Above rank (fun _ => none) k := fun _ h => absurd rfl h

theorem Orderly.pure (a : α) : Orderly rank body ok (Pure.pure a : RwProg K C R α) g := rfl

theorem Orderly.stop : Orderly rank body ok (.stop : RwProg K C R α) g := trivial

theorem Orderly.other {c : C} (hc : body c = none) :
    Orderly rank body ok (RwProg.other c : RwProg K C R (R c)) g :=
  ⟨fun h => absurd hc h, fun _ _ h => h.2⟩

theorem Orderly.call (c : C) :
    Orderly rank body ok (RwProg.other c : RwProg K C R (R c)) fun _ => none :=
  ⟨fun _ => rfl, fun _ _ h => h.2⟩

/-- What follows a command only matters for the answers that are expected. -/
theorem follows_other {c : C} {f : R c → RwProg K C R β} {Q : β → (K → Option Mode) → Prop}
    (hc : body c = none) (hf : ∀ r, ok c r → (orderly rank body ok).Follows Q (f r) g) :
    (orderly rank body ok).Follows Q (RwProg.other c >>= f) g := by
  refine ⟨fun h => absurd hc h, ?_⟩
  intro r g' ⟨hr, hg⟩
  rw [hg]
  exact hf r hr

theorem follows_lock {m : Mode} {k : K} {f : PUnit → RwProg K C R α}
    {Q : α → (K → Option Mode) → Prop} (hk : Above rank g k)
    (hf : (orderly rank body ok).Follows Q (f ⟨⟩) (update g k (some m))) :
    (orderly rank body ok).Follows Q (RwProg.lock m k >>= f) g := by
  refine ⟨hk, ?_⟩
  intro _ g' hg
  rw [hg]
  exact hf

theorem follows_unlock {m : Mode} {k : K} {f : PUnit → RwProg K C R α} (hk : g k = none)
    (hf : Orderly rank body ok (f ⟨⟩) g) : (orderly rank body ok).Follows (fun _ g' => g' = g)
      (RwProg.unlock k >>= f) (update g k (some m)) := by
  have hheld : update g k (some m) k ≠ none := by rw [Function.update_self]; simp
  refine ⟨hheld, ?_⟩
  intro _ g' hg
  have hback : g' = g := by
    rw [hg, Function.update_idem, ← hk, Function.update_eq_self]
  rw [hback]
  exact hf

theorem Orderly.follows {x : RwProg K C R α} {f : α → RwProg K C R β}
    {Q : β → (K → Option Mode) → Prop} (hx : Orderly rank body ok x g)
    (hf : ∀ a, (orderly rank body ok).Follows Q (f a) g) :
    (orderly rank body ok).Follows Q (x >>= f) g := by
  apply Protocol.Follows.bind
  apply Protocol.Follows.mono hx
  intro a g' hg
  rw [hg]
  exact hf a

theorem Orderly.bind {x : RwProg K C R α} {f : α → RwProg K C R β} (hx : Orderly rank body ok x g)
    (hf : ∀ a, Orderly rank body ok (f a) g) : Orderly rank body ok (x >>= f) g := hx.follows hf

theorem Orderly.guarded {m : Mode} {k : K} {x : RwProg K C R α} (hk : Above rank g k)
    (hx : Orderly rank body ok x (update g k (some m))) :
    Orderly rank body ok (RwProg.guarded m k x) g := by
  apply follows_lock hk
  apply hx.follows
  intro a
  exact follows_unlock hk.free (Orderly.pure a)

end Orderly

/-! ## Runs -/

section Runs
variable [DecidableEq ι] [DecidableEq K] {L : RwSystem K C R σ} {rank : K → ℕ}
  {ok : (c : C) → R c → Prop} {c c' : Config ι K C R σ} {e : Event ι K C R} {i : ι}

/-- The answer is one of those expected. -/
def Event.Ok (ok : (c : C) → R c → Prop) : Event ι K C R → Prop
  | .command _ (.other c) r => ok c r
  | _ => True

def Event.IsCommand : Event ι K C R → Prop
  | .request _ => False
  | _ => True

/-- A lock that is held to write is held by nobody else, and every thread is to release its own. -/
structure Consistent (L : RwSystem K C R σ) (rank : K → ℕ) (ok : (c : C) → R c → Prop)
    (c : Config ι K C R σ) : Prop where
  exclusive : ∀ i j k, i ≠ j → c.held i k = some .write → c.held j k = none
  thread : ∀ i, (orderly rank L.body ok).Follows (fun _ g' => g' = fun _ => none) (c.thread i)
    (c.held i)

theorem Consistent.follows_update (h : Consistent L rank ok c) {x : RwProg K C R PUnit}
    {g : K → Option Mode}
    (hx : (orderly rank L.body ok).Follows (fun _ g' => g' = fun _ => none) x g) (j : ι) :
    (orderly rank L.body ok).Follows (fun _ g' => g' = fun _ => none) (update c.thread i x j)
      (update c.held i g j) := by
  by_cases hj : j = i
  · subst hj
    rwa [Function.update_self, Function.update_self]
  · rw [Function.update_of_ne hj, Function.update_of_ne hj]
    exact h.thread j

theorem held_update (held : ι → K → Option Mode) (i j : ι) (k k' : K) (o : Option Mode) :
    update held i (update (held i) k o) j k' = if j = i ∧ k' = k then o else held j k' := by
  by_cases hj : j = i
  · subst hj
    rw [Function.update_self, Function.update_apply]
    simp
  · rw [Function.update_of_ne hj, if_neg fun h => hj h.1]

theorem Consistent.step (h : Consistent L rank ok c) (hbody : OrderlyBodies rank L.body ok)
    (hrequest : ∀ x, L.request x → Orderly rank L.body ok x fun _ => none) (hstep : Step L c e c')
    (he : e.Ok ok) : Consistent L rank ok c' := by
  cases hstep with
  | @lock i m k next ht hfits =>
    have hf := h.thread i
    rw [ht] at hf
    refine ⟨fun a b k' hab ha => ?_, h.follows_update (hf.2 ⟨⟩ _ rfl)⟩
    change update c.held i (update (c.held i) k (some m)) a k' = some .write at ha
    change update c.held i (update (c.held i) k (some m)) b k' = none
    rw [held_update] at ha ⊢
    by_cases ha' : a = i ∧ k' = k
    · rw [if_pos ha'] at ha
      have hb : ¬ (b = i ∧ k' = k) := fun hb => hab (ha'.1.trans hb.1.symm)
      rw [if_neg hb]
      have hw := hfits b
      rw [Option.some.inj ha, ← ha'.2] at hw
      exact Mode.write_fits hw
    · rw [if_neg ha'] at ha
      by_cases hb : b = i ∧ k' = k
      · have hno := hfits a
        rw [← hb.2, ha] at hno
        exact (Mode.fits_write hno).elim
      · rw [if_neg hb]
        exact h.exclusive a b k' hab ha
  | @unlock i k next ht _ =>
    have hf := h.thread i
    rw [ht] at hf
    refine ⟨fun a b k' hab ha => ?_, h.follows_update (hf.2 ⟨⟩ _ rfl)⟩
    change update c.held i (update (c.held i) k none) a k' = some .write at ha
    change update c.held i (update (c.held i) k none) b k' = none
    rw [held_update] at ha ⊢
    by_cases ha' : a = i ∧ k' = k
    · rw [if_pos ha'] at ha
      cases ha
    · rw [if_neg ha'] at ha
      split
      · rfl
      · exact h.exclusive a b k' hab ha
  | @other i o next r m ht _ _ =>
    have hf := h.thread i
    rw [ht] at hf
    refine ⟨h.exclusive, fun j => ?_⟩
    have hthread := h.follows_update (i := i) (hf.2 r _ ⟨he, rfl⟩) j
    rwa [Function.update_eq_self] at hthread
  | @enter i o next x ht hx =>
    have hf := h.thread i
    rw [ht] at hf
    have hg : c.held i = fun _ => none := hf.1 (by rw [hx]; exact Option.some_ne_none x)
    refine ⟨h.exclusive, fun j => ?_⟩
    have hx' : (orderly rank L.body ok).Follows (fun _ g' => g' = fun _ => none) (x >>= next)
        (c.held i) := by
      rw [hg]
      apply Protocol.Follows.bind
      apply (hbody o x hx).mono
      intro r g' ⟨hr, hg'⟩
      exact hf.2 r g' ⟨hr, hg'.trans hg.symm⟩
    have hthread := h.follows_update (i := i) hx' j
    rwa [Function.update_eq_self] at hthread
  | @request i x ht hx =>
    have hf := h.thread i
    rw [ht] at hf
    have hg : c.held i = fun _ => none := hf
    refine ⟨h.exclusive, fun j => ?_⟩
    have hx' := hrequest x hx
    rw [← hg] at hx'
    have hthread := h.follows_update (i := i) (hx'.mono fun _ g' hg' => hg'.trans hg) j
    rwa [Function.update_eq_self] at hthread

def Moves (L : RwSystem K C R σ) (ok : (c : C) → R c → Prop) (c : Config ι K C R σ) (i : ι) : Prop :=
  ∃ d r c', Step L c (.command i d r) c' ∧ (Event.command i d r).Ok ok

/-- The thread has come to a command that does not answer, or not what is expected. -/
def Broken (L : RwSystem K C R σ) (ok : (c : C) → R c → Prop) (c : Config ι K C R σ) (i : ι) :
    Prop :=
  c.thread i = .stop ∨ ∃ o next, c.thread i = .call (.other o) next ∧ L.body o = none ∧
    ∀ r m, L.exec o c.memory r m → ¬ ok o r

def Resting (L : RwSystem K C R σ) (c : Config ι K C R σ) (i : ι) : Prop :=
  c.thread i = .ret ⟨⟩ ∨ ∃ o next, c.thread i = .call (.other o) next ∧ L.body o ≠ none

omit [DecidableEq ι] in
theorem Consistent.free_of_resting (h : Consistent L rank ok c) (hi : Resting L c i) :
    c.held i = fun _ => none := by
  have hf := h.thread i
  rcases hi with ht | ⟨o, next, ht, ho⟩
  · rwa [ht] at hf
  · rw [ht] at hf
    exact hf.1 ho

/-- The command of a thread that is not at a call is done, or does not come back. -/
theorem moves_or_broken {o : C} {next : R o → RwProg K C R PUnit}
    (ht : c.thread i = .call (.other o) next) (ho : L.body o = none) :
    Moves L ok c i ∨ Broken L ok c i := by
  by_cases hans : ∃ r m', L.exec o c.memory r m' ∧ ok o r
  · obtain ⟨r, m', hexec, hok⟩ := hans
    exact .inl ⟨_, _, _, .other ht ho hexec, hok⟩
  · exact .inr (.inr ⟨o, next, ht, ho, fun r m' hexec hok => hans ⟨r, m', hexec, hok⟩⟩)

/-- Whatever a thread waits for, at the end of the chain some thread can go on: the locks along it
have increasing ranks. -/
theorem Consistent.holder_moves {n : ℕ} (hrank : ∀ k, rank k ≤ n) (h : Consistent L rank ok c)
    {m : Mode} {k : K} {next : PUnit → RwProg K C R PUnit}
    (ht : c.thread i = .call (.lock m k) next) :
    (∃ j, Moves L ok c j) ∨ ∃ j, Broken L ok c j := by
  generalize hb : n - rank k = b
  induction b using Nat.strong_induction_on generalizing i m k next with
  | _ b ih =>
    by_cases hfits : ∀ j, m.Fits (c.held j k)
    · exact .inl ⟨i, _, _, _, .lock ht hfits, trivial⟩
    · obtain ⟨j, hj⟩ := not_forall.mp hfits
      have hheld : c.held j k ≠ none := fun hnone => hj (hnone ▸ m.fits_none)
      have hf := h.thread j
      cases hthread : c.thread j with
      | ret a =>
        rw [hthread] at hf
        have hg : c.held j = fun _ => none := hf
        exact absurd (congrFun hg k) hheld
      | stop => exact .inr ⟨j, .inl hthread⟩
      | call d next' =>
        rw [hthread] at hf
        cases d with
        | lock m' k' =>
          have habove : Above rank (c.held j) k' := hf.1
          have hlt := habove k hheld
          have hle := hrank k'
          exact ih (n - rank k') (by omega) hthread rfl
        | unlock k' =>
          have hheld' : c.held j k' ≠ none := hf.1
          exact .inl ⟨j, _, _, _, .unlock hthread hheld', trivial⟩
        | other o =>
          -- nothing is called with a lock held
          have ho : L.body o = none := by
            by_contra hne
            exact hheld (congrFun (hf.1 hne) k)
          exact (moves_or_broken hthread ho).imp (fun hj => ⟨j, hj⟩) fun hj => ⟨j, hj⟩

/-- While a thread is in the middle of a request, and not at a call, one that is can go on. -/
theorem Consistent.progress {n : ℕ} (hrank : ∀ k, rank k ≤ n) (h : Consistent L rank ok c)
    (hi : ¬ Resting L c i) : (∃ j, Moves L ok c j) ∨ ∃ j, Broken L ok c j := by
  have hf := h.thread i
  cases hthread : c.thread i with
  | ret a => exact absurd (.inl hthread) hi
  | stop => exact .inr ⟨i, .inl hthread⟩
  | call d next =>
    rw [hthread] at hf
    cases d with
    | lock m k => exact h.holder_moves hrank hthread
    | unlock k =>
      have hheld : c.held i k ≠ none := hf.1
      exact .inl ⟨i, _, _, _, .unlock hthread hheld, trivial⟩
    | other o =>
      have ho : L.body o = none := by
        by_contra hne
        exact hi (.inr ⟨o, next, hthread, hne⟩)
      exact (moves_or_broken hthread ho).imp (fun hj => ⟨i, hj⟩) fun hj => ⟨i, hj⟩

/-- While a thread is in the middle of a request, one that is can go on. -/
theorem Consistent.goes_on {n : ℕ} (hrank : ∀ k, rank k ≤ n) (h : Consistent L rank ok c)
    (hi : c.thread i ≠ .ret ⟨⟩) : (∃ e c', Step L c e c' ∧ e.IsCommand ∧ e.Ok ok) ∨
      ∃ j, Broken L ok c j := by
  by_cases hrest : Resting L c i
  · rcases hrest with ht | ⟨o, next, ht, ho⟩
    · exact absurd ht hi
    · obtain ⟨x, hx⟩ := Option.ne_none_iff_exists'.mp ho
      exact .inl ⟨_, _, .enter ht hx, trivial, trivial⟩
  · rcases h.progress hrank hrest with ⟨j, d, r, c', hstep, hok⟩ | hbroken
    · exact .inl ⟨_, _, hstep, trivial, hok⟩
    · exact .inr hbroken

/-! ## To the end of the requests -/

theorem Step.rest {d : RwCmd K C} {r : d.Answer R} (h : Step L c (.command i d r) c') :
    ∃ x, Prog.Rest x (c.thread i) ∧ c'.thread = update c.thread i x := by
  cases h with
  | lock ht _ => exact ⟨_, ⟨_, _, _, ht, rfl⟩, rfl⟩
  | unlock ht _ => exact ⟨_, ⟨_, _, _, ht, rfl⟩, rfl⟩
  | other ht _ _ => exact ⟨_, ⟨_, _, _, ht, rfl⟩, rfl⟩

/-- Without new requests the threads can go on until all have answered or are at a call. -/
theorem Consistent.finishes [Fintype ι] {n : ℕ} (hrank : ∀ k, rank k ≤ n)
    (hbody : OrderlyBodies rank L.body ok)
    (hrequest : ∀ x, L.request x → Orderly rank L.body ok x fun _ => none)
    (h : Consistent L rank ok c) :
    ∃ es c', Run (Step L) c es c' ∧ (∀ e ∈ es, e.IsCommand ∧ e.Ok ok) ∧ Consistent L rank ok c' ∧
      ((∀ i, Resting L c' i) ∨ ∃ i, Broken L ok c' i) := by
  generalize hs : Finset.univ.val.map c.thread = ts
  induction ts using Prog.wellFounded_rest.cutExpand.induction generalizing c with
  | _ ts ih =>
    by_cases hall : ∀ i, Resting L c i
    · exact ⟨[], c, .nil c, fun e he => absurd he List.not_mem_nil, h, .inl hall⟩
    · obtain ⟨i, hi⟩ := not_forall.mp hall
      rcases h.progress hrank hi with ⟨j, d, r, c₁, hstep, hok⟩ | hbroken
      · obtain ⟨x, hx, hthread⟩ := hstep.rest
        have hcut := Prog.cutExpand_update c.thread hx
        rw [← hthread, hs] at hcut
        obtain ⟨es, c', hrun, hes, hc', hend⟩ := ih _ hcut (h.step hbody hrequest hstep hok) rfl
        refine ⟨_, c', .cons hstep hrun, fun e he => ?_, hc', hend⟩
        rcases List.mem_cons.mp he with rfl | he
        · exact ⟨trivial, hok⟩
        · exact hes e he
      · exact ⟨[], c, .nil c, fun e he => absurd he List.not_mem_nil, h, .inr hbroken⟩

def start (s : σ) : Config ι K C R σ := ⟨s, fun _ _ => none, fun _ => .ret ⟨⟩⟩

omit [DecidableEq ι] in
theorem consistent_start (s : σ) : Consistent L rank ok (start s : Config ι K C R σ) :=
  ⟨fun _ _ _ _ _ => rfl, fun _ => rfl⟩

theorem consistent_run {s : σ} (hbody : OrderlyBodies rank L.body ok)
    (hrequest : ∀ x, L.request x → Orderly rank L.body ok x fun _ => none)
    {es : List (Event ι K C R)} (hrun : Run (Step L) (start s) es c) (hok : ∀ e ∈ es, e.Ok ok) :
    Consistent L rank ok c := by
  have hinv : (∀ e ∈ es, e.Ok ok) → Consistent L rank ok c := by
    refine hrun.invariant_history (I := fun c es => (∀ e ∈ es, e.Ok ok) → Consistent L rank ok c) ?_
      fun _ => consistent_start s
    intro c₁ e c₂ es hi hstep hok
    have hlast := hok e (List.mem_append_right _ (List.mem_singleton_self e))
    exact (hi fun e he => hok e (List.mem_append_left _ he)).step hbody hrequest hstep hlast
  exact hinv hok

end Runs

end RwSystem

end TpSo
