import Mathlib.Algebra.BigOperators.Group.Finset.Basic
import Mathlib.Algebra.GroupWithZero.Nat
import TpSo.Base.Locks

/-!
# Requests that are waited for

A thread that asks for a service waits at once for the answer, and takes nobody else's unless it
has asked. A request is a token and so is an answer: the service turns one into the other, or
loses it. What is then known of every run is an account: the tokens, and those lost, against the
threads that wait.
-/

namespace TpSo.Locking

open Function (update)

variable {ι K C : Type} {R : C → Type} {σ α β : Type}

/-! ## Programs -/

/-- The commands that ask and those that wait, among the ones that are used. -/
structure Handshake (C : Type) where
  used : C → Prop
  ask : C → Bool
  await : C → Bool

section Paired
variable {H : Handshake C} {w : Bool}

/-- After each request comes its wait, and no other. The thread has just asked if `w`. -/
def Paired (H : Handshake C) (w : Bool) : LockProg K C R α → Prop
  | .ret _ | .stop => w = false
  | .call (.acquire _) next | .call (.release _) next => w = false ∧ ∀ r, Paired H false (next r)
  | .call (.other c) next => H.await c = w ∧ H.used c ∧ ∀ r, Paired H (H.ask c) (next r)

def awaiting (H : Handshake C) : LockProg K C R α → Bool
  | .call (.other c) _ => H.await c
  | _ => false

theorem Paired.awaiting_eq {x : LockProg K C R α} (h : Paired H w x) : awaiting H x = w := by
  cases x with
  | ret a => exact (show w = false from h).symm
  | stop => exact (show w = false from h).symm
  | call c next =>
    cases c with
    | acquire k => exact h.1.symm
    | release k => exact h.1.symm
    | other c => exact h.1

theorem Paired.pure (a : α) : Paired H false (Pure.pure a : LockProg K C R α) := rfl

theorem Paired.stop : Paired H false (.stop : LockProg K C R α) := rfl

theorem Paired.acquire (k : K) : Paired H false (LockProg.acquire k : LockProg K C R PUnit) :=
  ⟨rfl, fun _ => rfl⟩

theorem Paired.release (k : K) : Paired H false (LockProg.release k : LockProg K C R PUnit) :=
  ⟨rfl, fun _ => rfl⟩

theorem Paired.other {c : C} (hused : H.used c) (hask : H.ask c = false)
    (hawait : H.await c = false) : Paired H false (LockProg.other c : LockProg K C R (R c)) :=
  ⟨hawait, hused, fun _ => hask⟩

theorem Paired.bind {x : LockProg K C R α} {f : α → LockProg K C R β} (hx : Paired H w x)
    (hf : ∀ a, Paired H false (f a)) : Paired H w (x >>= f) := by
  induction x generalizing w with
  | ret a =>
    obtain rfl := (show w = false from hx)
    exact hf a
  | stop => exact hx
  | call c next ih =>
    cases c with
    | acquire k => exact ⟨hx.1, fun r => ih r (hx.2 r)⟩
    | release k => exact ⟨hx.1, fun r => ih r (hx.2 r)⟩
    | other c => exact ⟨hx.1, hx.2.1, fun r => ih r (hx.2.2 r)⟩

theorem Paired.ask_await {c d : C} (hc : H.used c) (hd : H.used d) (hask : H.ask c = true)
    (hnot : H.await c = false) (hawait : H.await d = true) (hlast : H.ask d = false) :
    Paired H false (LockProg.other c >>= fun _ => LockProg.other d : LockProg K C R (R d)) := by
  refine ⟨hnot, hc, ?_⟩
  intro r
  rw [hask]
  exact ⟨hawait, hd, fun _ => hlast⟩

end Paired

/-! ## The account -/

/-- A service: the commands that ask for it and wait for it, its tokens, and those that a step of
the environment loses. -/
structure Service (L : Locking ι K C R σ) extends Handshake C where
  tokens : σ → ℕ
  lost : σ → ℕ
  tokens_exec : ∀ {c m r m'}, used c → L.exec c m r m' →
    tokens m' + (await c).toNat = tokens m + (ask c).toNat
  tokens_environment : ∀ {m m'}, L.environment m m' → tokens m' + lost m = tokens m

namespace Service
variable {L : Locking ι K C R σ} (S : Service L) {c c' : Config ι K C R σ} {e : Event ι K C R}

def waiting [Fintype ι] (c : Config ι K C R σ) : ℕ :=
  ∑ i, (awaiting S.toHandshake (c.thread i)).toNat

/-- The tokens that a step loses. -/
def lostBy (c : Config ι K C R σ) : Event ι K C R → ℕ
  | .environment => S.lost c.memory
  | _ => 0

def asksIn : Event ι K C R → ℕ
  | .command _ (.other c) _ => (S.ask c).toNat
  | _ => 0

def answersIn : Event ι K C R → ℕ
  | .command _ (.other c) _ => (S.await c).toNat
  | _ => 0

def asks (es : List (Event ι K C R)) : ℕ := (es.map S.asksIn).sum

def answers (es : List (Event ι K C R)) : ℕ := (es.map S.answersIn).sum

def Ready (c : Config ι K C R σ) : Prop :=
  ∀ i, Paired S.toHandshake (awaiting S.toHandshake (c.thread i)) (c.thread i)

variable {S}

theorem Ready.goes_on [DecidableEq ι] (h : S.Ready c) {i : ι} {w : Bool}
    {x : LockProg K C R PUnit} (hx : Paired S.toHandshake w x) (m : σ) (o : K → Option ι) :
    S.Ready ⟨m, o, update c.thread i x⟩ := by
  intro j
  dsimp only
  by_cases hj : j = i
  · subst hj
    rw [Function.update_self, hx.awaiting_eq]
    exact hx
  · rw [Function.update_of_ne hj]
    exact h j

variable [Fintype ι] [DecidableEq ι]

theorem waiting_update (c : Config ι K C R σ) (i : ι) (x : LockProg K C R PUnit) (m : σ)
    (o : K → Option ι) :
    S.waiting ⟨m, o, update c.thread i x⟩ + (awaiting S.toHandshake (c.thread i)).toNat =
      S.waiting c + (awaiting S.toHandshake x).toNat := by
  have hrest : ∑ j ∈ Finset.univ.erase i, (awaiting S.toHandshake (update c.thread i x j)).toNat =
      ∑ j ∈ Finset.univ.erase i, (awaiting S.toHandshake (c.thread j)).toNat := by
    apply Finset.sum_congr rfl
    intro j hj
    rw [Function.update_of_ne (Finset.ne_of_mem_erase hj)]
  unfold waiting
  dsimp only
  rw [← Finset.add_sum_erase _ _ (Finset.mem_univ i), hrest, Function.update_self,
    ← Finset.add_sum_erase _ (fun j => (awaiting S.toHandshake (c.thread j)).toNat)
      (Finset.mem_univ i)]
  omega

theorem waiting_pos {i : ι} (h : awaiting S.toHandshake (c.thread i) = true) : 0 < S.waiting c := by
  unfold waiting
  rw [← Finset.add_sum_erase _ _ (Finset.mem_univ i), h]
  exact Nat.add_pos_left Nat.one_pos _

/-- A thread that takes a step, from what it was to what it is now. -/
theorem Ready.waiting_step (h : S.Ready c) {i : ι} {w : Bool} {x y : LockProg K C R PUnit}
    (ht : c.thread i = x) (hy : Paired S.toHandshake w y) (m : σ) (o : K → Option ι) :
    S.Ready ⟨m, o, update c.thread i y⟩ ∧
      S.waiting ⟨m, o, update c.thread i y⟩ + (awaiting S.toHandshake x).toNat =
        S.waiting c + w.toNat := by
  refine ⟨h.goes_on hy m o, ?_⟩
  rw [← hy.awaiting_eq, ← ht]
  exact waiting_update c i y m o

variable [DecidableEq K]

theorem Ready.step (h : S.Ready c) (hloop : ∀ i, Paired S.toHandshake false (L.loop i))
    (hstep : Step L c e c') :
    S.Ready c' ∧
    S.tokens c'.memory + S.lostBy c e + S.waiting c = S.tokens c.memory + S.waiting c' ∧
    S.waiting c' + S.answersIn e = S.waiting c + S.asksIn e := by
  cases hstep with
  | @acquire i k next ht ho =>
    have hi := h i
    rw [ht] at hi
    obtain ⟨hready, hw⟩ := h.waiting_step ht (hi.2 ⟨⟩) c.memory (update c.owner k (some i))
    have hw' : S.waiting _ = S.waiting c := hw
    exact ⟨hready, by rw [hw']; rfl, by rw [hw']; rfl⟩
  | @release i k next ht ho =>
    have hi := h i
    rw [ht] at hi
    obtain ⟨hready, hw⟩ := h.waiting_step ht (hi.2 ⟨⟩) c.memory (update c.owner k none)
    have hw' : S.waiting _ = S.waiting c := hw
    exact ⟨hready, by rw [hw']; rfl, by rw [hw']; rfl⟩
  | @other i o next r m ht hexec =>
    have hi := h i
    rw [ht] at hi
    obtain ⟨hready, hw⟩ := h.waiting_step ht (hi.2.2 r) m c.owner
    have htokens := S.tokens_exec hi.2.1 hexec
    have hw' : S.waiting _ + (S.await o).toNat = S.waiting c + (S.ask o).toNat := hw
    refine ⟨hready, ?_, hw'⟩
    simp only [lostBy]
    omega
  | @again i ht =>
    obtain ⟨hready, hw⟩ := h.waiting_step ht (hloop i) c.memory c.owner
    have hw' : S.waiting _ = S.waiting c := hw
    exact ⟨hready, by rw [hw']; rfl, by rw [hw']; rfl⟩
  | @environment m hm =>
    have htokens := S.tokens_environment hm
    refine ⟨h, ?_, rfl⟩
    change S.tokens m + S.lost c.memory + S.waiting c = S.tokens c.memory + S.waiting c
    omega

variable (S) in
/-- A step, with the tokens lost so far. -/
def Accounted (s : Config ι K C R σ × ℕ) (e : Event ι K C R) (s' : Config ι K C R σ × ℕ) : Prop :=
  Step L s.1 e s'.1 ∧ s'.2 = s.2 + S.lostBy s.1 e

omit [Fintype ι] in
theorem accounted_of_run {es : List (Event ι K C R)} (h : Run (Step L) c es c') (n : ℕ) :
    ∃ n', Run S.Accounted (c, n) es (c', n') := by
  induction h generalizing n with
  | nil c => exact ⟨n, .nil _⟩
  | @cons c c₁ c' e es hstep _ ih =>
    obtain ⟨n', hrun⟩ := ih (n + S.lostBy c e)
    exact ⟨n', .cons ⟨hstep, rfl⟩ hrun⟩

/-- The account of a run: the tokens that are left, and those lost, for the threads that wait; and
a request for each answer taken and for each thread that waits. -/
theorem Ready.account {es : List (Event ι K C R)} {n n' : ℕ} (h : S.Ready c)
    (hloop : ∀ i, Paired S.toHandshake false (L.loop i))
    (hrun : Run S.Accounted (c, n) es (c', n')) :
    S.Ready c' ∧
    S.tokens c'.memory + n' + S.waiting c = S.tokens c.memory + n + S.waiting c' ∧
    S.waiting c' + S.answers es = S.waiting c + S.asks es := by
  have hinv := hrun.invariant_history
    (I := fun s es => S.Ready s.1 ∧
      S.tokens s.1.memory + s.2 + S.waiting c = S.tokens c.memory + n + S.waiting s.1 ∧
      S.waiting s.1 + S.answers es = S.waiting c + S.asks es) ?_ ⟨h, rfl, rfl⟩
  · exact hinv
  intro s e s' es ⟨hready, htokens, hasks⟩ ⟨hstep, hn⟩
  obtain ⟨hready', htokens', hasks'⟩ := hready.step hloop hstep
  have hsplit : S.asks (es ++ [e]) = S.asks es + S.asksIn e := by simp [asks]
  have hsplit' : S.answers (es ++ [e]) = S.answers es + S.answersIn e := by simp [answers]
  exact ⟨hready', by omega, by omega⟩

end Service

end TpSo.Locking
