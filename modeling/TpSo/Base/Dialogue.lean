import Mathlib.Logic.Function.Basic
import Mathlib.Order.GameAdd
import TpSo.Base.Program
import TpSo.Base.Run

/-!
# Dialogues over a byte stream

Two parties talk over a connection. A `send` takes some of its bytes and a `recv` gives some of
those that are on their way: how many is up to the network. A script says who says what. If each
party, for its part, keeps to the same script, then the parties understand each other: no bytes
are left over and nobody waits in vain. A party may rely on every `recv` to give as many bytes as
it was asked for, or not.
-/

namespace TpSo.Dialogue

open Function (update)

inductive Party where
  | here
  | there
  deriving DecidableEq

namespace Party

def other : Party → Party
  | here => there
  | there => here

@[simp] theorem other_other (p : Party) : p.other.other = p := by cases p <;> rfl

@[simp] theorem other_ne (p : Party) : p.other ≠ p := by cases p <;> decide

@[simp] theorem ne_other (p : Party) : p ≠ p.other := by cases p <;> decide

theorem eq_or_other (p q : Party) : q = p ∨ q = p.other := by cases p <;> cases q <;> decide

end Party

inductive Net where
  | send (bytes : List UInt8)
  | recv (size : ℕ)

/-- The number of bytes that were sent, and the bytes that were received. -/
abbrev Net.Answer : Net → Type
  | send _ => ℕ
  | recv _ => List UInt8

abbrev Talker (α : Type) := Prog Net Net.Answer α

def send (bytes : List UInt8) : Talker ℕ := Prog.command (Net.send bytes)

def recv (size : ℕ) : Talker (List UInt8) := Prog.command (Net.recv size)

/-- The parties, and the bytes on their way to each of them. -/
@[ext] structure Config (α : Party → Type) where
  party : (p : Party) → Talker (α p)
  wire : Party → List UInt8

structure Event where
  party : Party
  command : Net
  answer : command.Answer

variable {α : Party → Type} {β γ : Type}

inductive Step : Config α → Event → Config α → Prop where
  | send {c : Config α} {p : Party} {d : List UInt8} {next : ℕ → Talker (α p)} {n : ℕ} :
      c.party p = .call (.send d) next → 0 < n → n ≤ d.length →
      Step c ⟨p, .send d, n⟩
        ⟨update c.party p (next n), update c.wire p.other (c.wire p.other ++ d.take n)⟩
  | recv {c : Config α} {p : Party} {size : ℕ} {next : List UInt8 → Talker (α p)}
      {bs rest : List UInt8} :
      c.party p = .call (.recv size) next → bs ≠ [] → bs.length ≤ size → c.wire p = bs ++ rest →
      Step c ⟨p, .recv size, bs⟩ ⟨update c.party p (next bs), update c.wire p rest⟩

/-- If the network is one that gives whole fields, a `recv` has given all that it was asked for. -/
def Event.Allowed (whole : Bool) : Event → Prop
  | ⟨_, .recv size, bs⟩ => whole = true → bs.length = size
  | _ => True

theorem Event.allowed_false (e : Event) : e.Allowed false := by
  obtain ⟨p, _ | size, answer⟩ := e
  · trivial
  · intro h
    cases h

/-! ## Scripts -/

abbrev Script := List (Party × List UInt8)

/-- What is left when `n` bytes of the field `d` have passed. -/
def after (p : Party) (d : List UInt8) (n : ℕ) (s : Script) : Script :=
  if n < d.length then (p, d.drop n) :: s else s

theorem after_all {p : Party} {d : List UInt8} {n : ℕ} {s : Script} (h : d.length ≤ n) :
    after p d n s = s := if_neg (Nat.not_lt.mpr h)

theorem after_append (p : Party) (d : List UInt8) (n : ℕ) (s s' : Script) :
    after p d n (s ++ s') = after p d n s ++ s' := by
  unfold after
  split <;> rfl

/-- Party `p` keeps to the script. -/
def Talks (whole : Bool) (p : Party) (Q : β → Prop) : Talker β → Script → Prop
  | .ret a, s => s = [] ∧ Q a
  | .stop, _ => False
  | .call (.send d) next, s =>
    ∃ s', s = (p, d) :: s' ∧ d ≠ [] ∧
      ∀ n, 0 < n → n ≤ d.length → Talks whole p Q (next n) (after p d n s')
  | .call (.recv size) next, s =>
    ∃ d s', s = (p.other, d) :: s' ∧ d ≠ [] ∧ d.length = size ∧
      ∀ n, 0 < n → n ≤ d.length → (whole = true → n = d.length) →
        Talks whole p Q (next (d.take n)) (after p.other d n s')

namespace Talks
variable {whole : Bool} {p : Party} {Q : β → Prop} {R : γ → Prop} {d : List UInt8} {s s' : Script}

theorem pure {a : β} (h : Q a) : Talks whole p Q (Pure.pure a) [] := ⟨rfl, h⟩

theorem mono {Q' : β → Prop} {x : Talker β} (hx : Talks whole p Q x s) (hq : ∀ a, Q a → Q' a) :
    Talks whole p Q' x s := by
  induction x generalizing s with
  | ret a => exact ⟨hx.1, hq a hx.2⟩
  | stop => exact hx
  | call c next ih =>
    cases c with
    | send d =>
      obtain ⟨s₁, hs, hd, hnext⟩ := hx
      exact ⟨s₁, hs, hd, fun n hn hle => ih n (hnext n hn hle)⟩
    | recv size =>
      obtain ⟨d, s₁, hs, hd, hsize, hnext⟩ := hx
      exact ⟨d, s₁, hs, hd, hsize, fun n hn hle hw => ih _ (hnext n hn hle hw)⟩

theorem bind {x : Talker β} {f : β → Talker γ} (hx : Talks whole p Q x s)
    (hf : ∀ a, Q a → Talks whole p R (f a) s') : Talks whole p R (x >>= f) (s ++ s') := by
  induction x generalizing s with
  | ret a =>
    obtain ⟨rfl, ha⟩ := hx
    exact hf a ha
  | stop => exact hx.elim
  | call c next ih =>
    cases c with
    | send d =>
      obtain ⟨s₁, rfl, hd, hnext⟩ := hx
      refine ⟨s₁ ++ s', rfl, hd, ?_⟩
      intro n hn hle
      rw [after_append]
      exact ih n (hnext n hn hle)
    | recv size =>
      obtain ⟨d, s₁, rfl, hd, hsize, hnext⟩ := hx
      refine ⟨d, s₁ ++ s', rfl, hd, hsize, ?_⟩
      intro n hn hle hw
      rw [after_append]
      exact ih _ (hnext n hn hle hw)

theorem bind_cons {e : Party × List UInt8} {x : Talker β} {f : β → Talker γ}
    (hx : Talks whole p Q x [e]) (hf : ∀ a, Q a → Talks whole p R (f a) s) :
    Talks whole p R (x >>= f) (e :: s) := hx.bind hf

theorem bind_last {x : Talker β} {f : β → Talker γ} (hx : Talks whole p Q x s)
    (hf : ∀ a, Q a → Talks whole p R (f a) []) : Talks whole p R (x >>= f) s := by
  have h := hx.bind hf
  rwa [List.append_nil] at h

/-- What the other party says is received, if it comes in one piece. -/
theorem recv (hd : d ≠ []) :
    Talks true p (fun bs => bs = d) (Dialogue.recv d.length) [(p.other, d)] := by
  refine ⟨d, [], rfl, hd, rfl, ?_⟩
  intro n _ _ hw
  rw [hw rfl, List.take_length, after_all (Nat.le_refl _)]
  exact ⟨rfl, rfl⟩

end Talks

def Silent (x : Talker β) : Prop := ∀ d next, x ≠ .call (.send d) next

theorem Silent.pure (a : β) : Silent (Pure.pure a : Talker β) := by
  intro d next heq
  cases heq

theorem Silent.bind {x : Talker β} {f : β → Talker γ} (hx : Silent x) (hf : ∀ a, Silent (f a)) :
    Silent (x >>= f) := by
  cases x with
  | ret a => exact hf a
  | stop =>
    intro d next heq
    cases heq
  | call c next =>
    intro d next' heq
    cases heq
    exact hx d next rfl

def Listening (x : Talker β) : Prop := ∃ size next, x = .call (.recv size) next

/-- Party `p` keeps to the script, and what is left of it then is as `K` says. -/
inductive Reaches (whole : Bool) (p : Party) (K : Talker β → Prop) : Talker β → Script → Prop where
  | ends {x : Talker β} : K x → Reaches whole p K x []
  | send {d : List UInt8} {s : Script} {next : ℕ → Talker β} : d ≠ [] →
      (∀ n, 0 < n → n ≤ d.length → Reaches whole p K (next n) (after p d n s)) →
      Reaches whole p K (.call (.send d) next) ((p, d) :: s)
  | recv {d : List UInt8} {s : Script} {next : List UInt8 → Talker β} : d ≠ [] →
      (∀ n, 0 < n → n ≤ d.length → (whole = true → n = d.length) →
        Reaches whole p K (next (d.take n)) (after p.other d n s)) →
      Reaches whole p K (.call (.recv d.length) next) ((p.other, d) :: s)

/-- It has ended, with a value as `Q` says. -/
def Ended (Q : β → Prop) (x : Talker β) : Prop := ∃ a, x = .ret a ∧ Q a

theorem Ended.silent {Q : β → Prop} {x : Talker β} (h : Ended Q x) : Silent x := by
  obtain ⟨a, rfl, _⟩ := h
  exact Silent.pure a

theorem Listening.silent {x : Talker β} (h : Listening x) : Silent x := by
  obtain ⟨size, next, rfl⟩ := h
  intro d next' heq
  cases heq

theorem Listening.bind {x : Talker β} (h : Listening x) (f : β → Talker γ) :
    Listening (x >>= f) := by
  obtain ⟨size, next, rfl⟩ := h
  exact ⟨size, _, rfl⟩

section Reaches
variable {whole : Bool} {p : Party} {Q : β → Prop} {K : Talker β → Prop} {K' : Talker γ → Prop}
  {s s' : Script}

theorem Reaches.bind {x : Talker β} {f : β → Talker γ} (hx : Reaches whole p K x s)
    (hf : ∀ y, K y → Reaches whole p K' (y >>= f) s') :
    Reaches whole p K' (x >>= f) (s ++ s') := by
  induction hx with
  | ends hk => exact hf _ hk
  | send hd _ ih =>
    apply Reaches.send hd
    intro n hn hle
    have hnext := ih n hn hle
    rwa [← after_append] at hnext
  | recv hd _ ih =>
    apply Reaches.recv hd
    intro n hn hle hw
    have hnext := ih n hn hle hw
    rwa [← after_append] at hnext

/-- In a script that somebody can keep to, every field has some bytes. -/
theorem Reaches.ne_nil {x : Talker β} (h : Reaches whole p K x s) : ∀ e ∈ s, e.2 ≠ [] := by
  induction h with
  | ends _ => simp
  | @send d s _ hd _ ih =>
    have hs := ih d.length (List.length_pos_iff.mpr hd) (Nat.le_refl _)
    rw [after_all (Nat.le_refl _)] at hs
    exact List.forall_mem_cons.mpr ⟨hd, hs⟩
  | @recv d s _ hd _ ih =>
    have hs := ih d.length (List.length_pos_iff.mpr hd) (Nat.le_refl _) fun _ => rfl
    rw [after_all (Nat.le_refl _)] at hs
    exact List.forall_mem_cons.mpr ⟨hd, hs⟩

theorem Reaches.bind_last {x : Talker β} {f : β → Talker γ} (hx : Reaches whole p K x s)
    (hf : ∀ y, K y → Reaches whole p K' (y >>= f) []) : Reaches whole p K' (x >>= f) s := by
  have h := hx.bind hf
  rwa [List.append_nil] at h

theorem talks_iff {x : Talker β} : Talks whole p Q x s ↔ Reaches whole p (Ended Q) x s := by
  constructor
  · intro hx
    induction x generalizing s with
    | ret a =>
      obtain ⟨rfl, ha⟩ := hx
      exact .ends ⟨a, rfl, ha⟩
    | stop => exact hx.elim
    | call c next ih =>
      cases c with
      | send d =>
        obtain ⟨s₁, rfl, hd, hnext⟩ := hx
        exact .send hd fun n hn hle => ih n (hnext n hn hle)
      | recv size =>
        obtain ⟨d, s₁, rfl, hd, rfl, hnext⟩ := hx
        exact .recv hd fun n hn hle hw => ih _ (hnext n hn hle hw)
  · intro hx
    induction hx with
    | ends hk =>
      obtain ⟨a, rfl, ha⟩ := hk
      exact ⟨rfl, ha⟩
    | send hd _ ih => exact ⟨_, rfl, hd, ih⟩
    | recv hd _ ih => exact ⟨_, _, rfl, hd, rfl, ih⟩

theorem Talks.reaches {x : Talker β} {f : β → Talker γ} (hx : Talks whole p Q x s)
    (hf : ∀ a, Q a → Reaches whole p K' (f a) s') : Reaches whole p K' (x >>= f) (s ++ s') := by
  apply (talks_iff.mp hx).bind
  rintro y ⟨a, rfl, ha⟩
  exact hf a ha

theorem Reaches.of_send {d : List UInt8} {next : ℕ → Talker β} (hK : ∀ x, K x → Silent x)
    (h : Reaches whole p K (.call (.send d) next) s) :
    ∃ s₁, s = (p, d) :: s₁ ∧ d ≠ [] ∧
      ∀ n, 0 < n → n ≤ d.length → Reaches whole p K (next n) (after p d n s₁) := by
  cases h with
  | ends hk => exact absurd rfl (hK _ hk d next)
  | send hd hnext => exact ⟨_, rfl, hd, hnext⟩

end Reaches

/-! ## The bytes on their way -/

/-- The bytes on their way are what the sender has said and the receiver has not heard: the receiver
is at the script `s`, the sender at `s'`. -/
inductive Flight (p : Party) : List UInt8 → Script → Script → Prop where
  | level (s : Script) : Flight p [] s s
  | part {d d' : List UInt8} {s : Script} : d ≠ [] → d' ≠ [] →
      Flight p d ((p, d ++ d') :: s) ((p, d') :: s)
  | whole {w d : List UInt8} {s s' : Script} : Flight p w s s' → Flight p (d ++ w) ((p, d) :: s) s'

namespace Flight
variable {p : Party} {w d : List UInt8} {s s' : Script} {n : ℕ}

theorem said (p : Party) (d₀ : List UInt8) (s : Script) (hn : 0 < n) (hle : n ≤ d.length) :
    Flight p (d₀ ++ d.take n) ((p, d₀ ++ d) :: s) (after p d n s) := by
  by_cases hlast : n < d.length
  · have hsplit : d₀ ++ d = (d₀ ++ d.take n) ++ d.drop n := by
      rw [List.append_assoc, List.take_append_drop]
    rw [after, if_pos hlast, hsplit]
    apply Flight.part
    · rw [← List.length_pos_iff]
      simp
      omega
    · rw [← List.length_pos_iff]
      simp
      omega
  · have hall := Flight.whole (d := d₀ ++ d) (Flight.level (p := p) s)
    rw [after_all (by omega), List.take_of_length_le (by omega)]
    rwa [List.append_nil] at hall

theorem send (h : Flight p w s ((p, d) :: s')) (hn : 0 < n) (hle : n ≤ d.length) :
    Flight p (w ++ d.take n) s (after p d n s') := by
  generalize hs : (p, d) :: s' = s₀ at h
  induction h with
  | level s =>
    subst hs
    exact said p [] s' hn hle
  | @part d₁ d₂ s _ _ =>
    obtain ⟨hd, rfl⟩ := List.cons.inj hs
    obtain rfl := (Prod.mk.inj hd).2
    exact said p d₁ s' hn hle
  | whole _ ih =>
    rw [List.append_assoc]
    exact (ih hs).whole

theorem recv (h : Flight p w ((p, d) :: s) s') {bs w' : List UInt8} (hbs : bs ≠ [])
    (hle : bs.length ≤ d.length) (hw : w = bs ++ w') :
    bs = d.take bs.length ∧ Flight p w' (after p d bs.length s) s' := by
  cases h with
  | level => exact absurd (List.append_eq_nil_iff.mp hw.symm).1 hbs
  | @part _ d' _ _ hd' =>
    subst hw
    have hpos := List.length_pos_iff.mpr hd'
    refine ⟨by simp, ?_⟩
    have hlt : bs.length < (bs ++ w' ++ d').length := by
      simp only [List.length_append]
      omega
    rw [after, if_pos hlt, List.append_assoc, List.drop_left]
    by_cases hw' : w' = []
    · rw [hw']
      exact .level _
    · exact .part hw' hd'
  | @whole w₁ _ _ _ hrest =>
    obtain ⟨d', rfl⟩ : bs <+: d :=
      List.prefix_of_prefix_length_le ⟨w', hw.symm⟩ (List.prefix_append d w₁) hle
    rw [List.append_assoc] at hw
    obtain rfl := List.append_cancel_left hw
    refine ⟨by simp, ?_⟩
    unfold after
    split
    · rw [List.drop_left]
      exact hrest.whole
    · next hlast =>
      have hd' : d' = [] := by
        rw [List.length_append] at hlast
        rw [← List.length_eq_zero_iff]
        omega
      rw [hd']
      exact hrest

/-- The receiver is not to hear anything: it has heard all. -/
theorem level_of_ne (h : Flight p w s s') (hs : ∀ d s₁, s ≠ (p, d) :: s₁) : w = [] ∧ s' = s := by
  cases h with
  | level => exact ⟨rfl, rfl⟩
  | part => exact absurd rfl (hs _ _)
  | whole => exact absurd rfl (hs _ _)

/-- The sender is not saying anything: the whole field is on its way. -/
theorem arrives (h : Flight p w ((p, d) :: s) s') (hs : ∀ d s₁, s' ≠ (p, d) :: s₁) :
    ∃ w', w = d ++ w' := by
  cases h with
  | level => exact absurd rfl (hs _ _)
  | part => exact absurd rfl (hs _ _)
  | whole => exact ⟨_, rfl⟩

end Flight

/-! ## The parties together -/

/-- One party is ahead of the other in the script, by the bytes on their way. -/
def Abreast (whole : Bool) (K : (p : Party) → Talker (α p) → Prop) (c : Config α) : Prop :=
  ∃ p s s', c.wire p = [] ∧ Flight p (c.wire p.other) s s' ∧
    Reaches whole p (K p) (c.party p) s' ∧ Reaches whole p.other (K p.other) (c.party p.other) s

/-- Both parties are where the script leaves them, with nothing left on the wire. -/
def Settled (K : (p : Party) → Talker (α p) → Prop) (c : Config α) : Prop :=
  ∀ p, c.wire p = [] ∧ K p (c.party p)

section Abreast
variable {whole : Bool} {K : (p : Party) → Talker (α p) → Prop} {c c' : Config α} {e : Event}

theorem abreast_start {s : Script} (hwire : ∀ p, c.wire p = [])
    (h : ∀ p, Reaches whole p (K p) (c.party p) s) : Abreast whole K c := by
  refine ⟨.here, s, s, hwire _, ?_, h _, h _⟩
  rw [hwire]
  exact .level s

theorem Abreast.step (hK : ∀ p x, K p x → Silent x) (h : Abreast whole K c)
    (hstep : Step c e c') (he : e.Allowed whole) : Abreast whole K c' := by
  obtain ⟨p, s, s', hwire, hflight, hahead, hbehind⟩ := h
  cases hstep with
  | @send q d next n ht hn hle =>
    rcases p.eq_or_other q with rfl | rfl
    · rw [ht] at hahead
      obtain ⟨s₁, rfl, hd, hnext⟩ := hahead.of_send (hK q)
      refine ⟨q, s, after q d n s₁, ?_, ?_, ?_, ?_⟩ <;> dsimp only
      · rw [Function.update_of_ne (Party.ne_other q)]
        exact hwire
      · rw [Function.update_self]
        exact hflight.send hn hle
      · rw [Function.update_self]
        exact hnext n hn hle
      · rw [Function.update_of_ne (Party.other_ne q)]
        exact hbehind
    · -- the one that was behind has heard all, and goes ahead
      rw [ht] at hbehind
      obtain ⟨s₁, rfl, hd, hnext⟩ := hbehind.of_send (hK p.other)
      obtain ⟨hempty, rfl⟩ := hflight.level_of_ne (by simp)
      refine ⟨p.other, (p.other, d) :: s₁, after p.other d n s₁, ?_, ?_, ?_, ?_⟩ <;> dsimp only
      · rw [Function.update_of_ne (Party.ne_other p.other)]
        exact hempty
      · rw [Function.update_self, Party.other_other, hwire]
        exact Flight.said p.other [] s₁ hn hle
      · rw [Function.update_self]
        exact hnext n hn hle
      · rw [Function.update_of_ne (Party.other_ne p.other), Party.other_other]
        exact hahead
  | @recv q size next bs w ht hbs hle hw =>
    rcases p.eq_or_other q with rfl | rfl
    · rw [hwire] at hw
      exact absurd (List.append_eq_nil_iff.mp hw.symm).1 hbs
    · rw [ht] at hbehind
      cases hbehind with
      | ends _ =>
        obtain ⟨hempty, _⟩ := hflight.level_of_ne (by simp)
        rw [hempty] at hw
        exact absurd (List.append_eq_nil_iff.mp hw.symm).1 hbs
      | @recv d s₁ _ hd hnext =>
        rw [Party.other_other] at hflight hnext
        obtain ⟨htake, hflight'⟩ := hflight.recv hbs hle hw
        have hnext' := hnext bs.length (List.length_pos_iff.mpr hbs) hle he
        rw [← htake] at hnext'
        refine ⟨p, after p d bs.length s₁, s', ?_, ?_, ?_, ?_⟩ <;> dsimp only
        · rw [Function.update_of_ne (Party.ne_other p)]
          exact hwire
        · rw [Function.update_self]
          exact hflight'
        · rw [Function.update_of_ne (Party.ne_other p)]
          exact hahead
        · rw [Function.update_self]
          exact hnext'

/-- What one step preserves, a run preserves. -/
theorem Abreast.run (hK : ∀ p x, K p x → Silent x) {es : List Event} (h : Abreast whole K c)
    (hrun : Run (fun c e c' => Step c e c' ∧ e.Allowed whole) c es c') : Abreast whole K c' :=
  hrun.invariant (fun _ _ _ hi hstep => hi.step hK hstep.1 hstep.2) h

theorem step_of_send {p : Party} {d : List UInt8} {next : ℕ → Talker (α p)}
    (ht : c.party p = .call (.send d) next) (hd : d ≠ []) :
    ∃ e c', Step c e c' ∧ e.Allowed whole :=
  ⟨_, _, .send ht (List.length_pos_iff.mpr hd) (Nat.le_refl _), trivial⟩

/-- A party that listens can take a step when all that it waits for is there. -/
theorem step_of_recv {p : Party} {d w : List UInt8} {next : List UInt8 → Talker (α p)}
    (ht : c.party p = .call (.recv d.length) next) (hd : d ≠ []) (hw : c.wire p = d ++ w) :
    ∃ e c', Step c e c' ∧ e.Allowed whole :=
  ⟨_, _, .recv ht hd (Nat.le_refl _) hw, fun _ => rfl⟩

/-- Nobody waits in vain before the script ends. -/
theorem Abreast.settled_or_step (h : Abreast whole K c) :
    Settled K c ∨ ∃ e c', Step c e c' ∧ e.Allowed whole := by
  obtain ⟨p, s, s', hwire, hflight, hahead, hbehind⟩ := h
  -- the one behind, when the one ahead is not speaking
  have hother : (∀ d s₁, s' ≠ (p, d) :: s₁) →
      (s = [] ∧ K p.other (c.party p.other)) ∨ ∃ e c', Step c e c' ∧ e.Allowed whole := by
    intro hs
    generalize ht : c.party p.other = x at hbehind
    cases hbehind with
    | ends hk => exact .inl ⟨rfl, hk⟩
    | send hd _ => exact .inr (step_of_send ht hd)
    | recv hd _ =>
      rw [Party.other_other] at hflight
      obtain ⟨w, hw⟩ := hflight.arrives hs
      exact .inr (step_of_recv ht hd hw)
  generalize ht : c.party p = x at hahead
  cases hahead with
  | ends hk =>
    rcases hother (by simp) with ⟨rfl, hk'⟩ | hstep
    · obtain ⟨hempty, _⟩ := hflight.level_of_ne (by simp)
      left
      intro q
      rcases p.eq_or_other q with rfl | rfl
      · rw [ht]
        exact ⟨hwire, hk⟩
      · exact ⟨hempty, hk'⟩
    · exact .inr hstep
  | send hd _ => exact .inr (step_of_send ht hd)
  | recv hd _ =>
    rcases hother (by simp) with ⟨rfl, _⟩ | hstep
    · obtain ⟨_, hlevel⟩ := hflight.level_of_ne (by simp)
      cases hlevel
    · exact .inr hstep

/-- Silent parties take no step when nothing is on its way. -/
theorem Settled.no_step (hK : ∀ p x, K p x → Silent x) (h : Settled K c) :
    ¬ ∃ e c', Step c e c' := by
  rintro ⟨e, c', hstep⟩
  cases hstep with
  | send ht _ _ => exact hK _ _ (h _).2 _ _ ht
  | recv ht hbs _ hw =>
    rw [(h _).1] at hw
    exact hbs (List.append_eq_nil_iff.mp hw.symm).1

end Abreast

/-- The parties are abreast, and keep to the script to the end. -/
def InStep (whole : Bool) (Q : (p : Party) → α p → Prop) (c : Config α) : Prop :=
  ∃ p s s', c.wire p = [] ∧ Flight p (c.wire p.other) s s' ∧
    Talks whole p (Q p) (c.party p) s' ∧ Talks whole p.other (Q p.other) (c.party p.other) s

/-- Both parties have come to their ends, with nothing left on the wire. -/
def Finished (Q : (p : Party) → α p → Prop) (c : Config α) : Prop :=
  ∀ p, c.wire p = [] ∧ ∃ a, c.party p = .ret a ∧ Q p a

section InStep
variable {whole : Bool} {Q : (p : Party) → α p → Prop} {c c' : Config α} {e : Event}

theorem inStep_iff : InStep whole Q c ↔ Abreast whole (fun p => Ended (Q p)) c := by
  simp only [InStep, Abreast, talks_iff]

theorem inStep_start {s : Script} (hwire : ∀ p, c.wire p = [])
    (h : ∀ p, Talks whole p (Q p) (c.party p) s) : InStep whole Q c :=
  inStep_iff.mpr (abreast_start hwire fun p => talks_iff.mp (h p))

theorem InStep.run {es : List Event} (h : InStep whole Q c)
    (hrun : Run (fun c e c' => Step c e c' ∧ e.Allowed whole) c es c') : InStep whole Q c' :=
  inStep_iff.mpr ((inStep_iff.mp h).run (fun _ _ => Ended.silent) hrun)

theorem InStep.finished_or_step (h : InStep whole Q c) :
    Finished Q c ∨ ∃ e c', Step c e c' ∧ e.Allowed whole :=
  (inStep_iff.mp h).settled_or_step

end InStep

/-- All that can speak have ended, and the others wait for bytes that nobody sends. -/
theorem no_step {c : Config α} (h : ∀ p, (∃ a, c.party p = .ret a) ∨
    (∃ size next, c.party p = .call (.recv size) next) ∧ c.wire p = []) :
    ¬ ∃ e c', Step c e c' := by
  rintro ⟨e, c', hstep⟩
  cases hstep with
  | @send p d next n ht _ _ =>
    rcases h p with ⟨a, ha⟩ | ⟨⟨size, next, hr⟩, _⟩
    · rw [ha] at ht
      cases ht
    · rw [hr] at ht
      cases ht
  | @recv p size next bs rest ht hbs _ hw =>
    rcases h p with ⟨a, ha⟩ | ⟨_, hempty⟩
    · rw [ha] at ht
      cases ht
    · rw [hempty] at hw
      exact hbs (List.append_eq_nil_iff.mp hw.symm).1

/-- The next step of a party, in which so many bytes pass. -/
def play (c : Config α) (move : Party × ℕ) : Option (Config α) :=
  match c.party move.1 with
  | .call (.send d) next =>
    if 0 < move.2 ∧ move.2 ≤ d.length then
      some ⟨update c.party move.1 (next move.2),
        update c.wire move.1.other (c.wire move.1.other ++ d.take move.2)⟩
    else none
  | .call (.recv size) next =>
    if 0 < move.2 ∧ move.2 ≤ size ∧ move.2 ≤ (c.wire move.1).length then
      some ⟨update c.party move.1 (next ((c.wire move.1).take move.2)),
        update c.wire move.1 ((c.wire move.1).drop move.2)⟩
    else none
  | _ => none

theorem step_of_play {c c' : Config α} {move : Party × ℕ} (h : play c move = some c') :
    ∃ e, Step c e c' := by
  unfold play at h
  split at h
  · next d next ht =>
    split at h
    · next hn =>
      cases h
      exact ⟨_, .send ht hn.1 hn.2⟩
    · cases h
  · next size next ht =>
    split at h
    · next hn =>
      obtain ⟨hpos, hsize, hlen⟩ := hn
      cases h
      have htake : ((c.wire move.1).take move.2).length = move.2 := by
        rw [List.length_take, Nat.min_eq_left hlen]
      refine ⟨_, .recv ht ?_ ?_ (List.take_append_drop _ _).symm⟩
      · rw [← List.length_pos_iff, htake]
        exact hpos
      · rw [htake]
        exact hsize
    · cases h
  · cases h

theorem run_of_play {c c' : Config α} {moves : List (Party × ℕ)}
    (h : moves.foldlM play c = some c') : ∃ es, Run Step c es c' := by
  induction moves generalizing c with
  | nil =>
    cases h
    exact ⟨[], .nil _⟩
  | cons move moves ih =>
    rw [List.foldlM_cons] at h
    obtain ⟨c₁, h₁, hrest⟩ := Option.bind_eq_some_iff.mp h
    obtain ⟨e, he⟩ := step_of_play h₁
    obtain ⟨es, hes⟩ := ih hrest
    exact ⟨e :: es, .cons he hes⟩

/-! ## Every dialogue ends -/

def Next (y x : Talker β) : Prop := ∃ o next r, x = .call o next ∧ y = next r

theorem acc_next (x : Talker β) : Acc Next x := by
  induction x with
  | ret a =>
    constructor
    intro y ⟨_, _, _, hx, _⟩
    cases hx
  | stop =>
    constructor
    intro y ⟨_, _, _, hx, _⟩
    cases hx
  | call o next ih =>
    constructor
    intro y ⟨_, _, r, hx, hy⟩
    cases hx
    rw [hy]
    exact ih r

/-- No run goes on for ever. -/
theorem acc_step (c : Config α) : Acc (fun c' c => ∃ e, Step c e c') c := by
  have hacc : Acc (InvImage (Prod.GameAdd Next Next)
      fun c : Config α => (c.party .here, c.party .there)) c :=
    InvImage.accessible _ ((acc_next _).prod_gameAdd (acc_next _))
  apply Subrelation.accessible _ hacc
  intro c' c ⟨e, hstep⟩
  have hgoes : ∀ p o next r, c.party p = .call o next → c'.party = update c.party p (next r) →
      Prod.GameAdd Next Next (c'.party .here, c'.party .there)
        (c.party .here, c.party .there) := by
    intro p o next r ht hp
    have hnext : Next (next r) (c.party p) := ⟨o, next, r, ht, rfl⟩
    cases p with
    | here =>
      rw [hp, Function.update_self, Function.update_of_ne (by decide)]
      exact .fst hnext
    | there =>
      rw [hp, Function.update_self, Function.update_of_ne (by decide)]
      exact .snd hnext
  cases hstep with
  | send ht _ _ => exact hgoes _ _ _ _ ht rfl
  | recv ht _ _ _ => exact hgoes _ _ _ _ ht rfl

/-- The parties can go on to where the script leaves them. -/
theorem Abreast.exists_run {whole : Bool} {K : (p : Party) → Talker (α p) → Prop} {c : Config α}
    (hK : ∀ p x, K p x → Silent x) (h : Abreast whole K c) :
    ∃ es c', Run Step c es c' ∧ Settled K c' := by
  induction acc_step c with
  | intro c _ ih =>
    rcases h.settled_or_step with hend | ⟨e, c₁, hstep, he⟩
    · exact ⟨[], c, .nil _, hend⟩
    · obtain ⟨es, c', hrun, hend⟩ := ih c₁ ⟨e, hstep⟩ (h.step hK hstep he)
      exact ⟨e :: es, c', .cons hstep hrun, hend⟩

/-! ## A party that dies -/

theorem Step.of_stop {c c' : Config α} {e : Event} {p : Party} (h : Step c e c')
    (hp : c.party p = .stop) : c'.party p = .stop := by
  have hmoves : ∀ {q : Party} {o : Net} {next : o.Answer → Talker (α q)} {r : o.Answer},
      c.party q = .call o next → update c.party q (next r) p = .stop := by
    intro q o next r ht
    rcases eq_or_ne p q with rfl | hne
    · rw [hp] at ht
      cases ht
    · rw [Function.update_of_ne hne, hp]
  cases h with
  | send ht _ _ => exact hmoves ht
  | recv ht _ _ _ => exact hmoves ht

/-- Once a party has died the dialogue comes to where nobody goes on and it has not ended. -/
theorem exists_unfinished {c : Config α} {p : Party} (hp : c.party p = .stop)
    (Q : (p : Party) → α p → Prop) :
    ∃ es c', Run Step c es c' ∧ ¬ (Finished Q c' ∨ ∃ e c'', Step c' e c'') := by
  induction acc_step c with
  | intro c _ ih =>
    by_cases hstep : ∃ e c', Step c e c'
    · obtain ⟨e, c₁, hstep⟩ := hstep
      obtain ⟨es, c', hrun, hend⟩ := ih c₁ ⟨e, hstep⟩ (hstep.of_stop hp)
      exact ⟨e :: es, c', .cons hstep hrun, hend⟩
    · refine ⟨[], c, .nil _, ?_⟩
      rintro (hfin | hgoes)
      · obtain ⟨_, a, ha, _⟩ := hfin p
        rw [hp] at ha
        cases ha
      · exact hstep hgoes

/-- What each party does when it has come to its end. -/
def Config.andThen {α' : Party → Type} (c : Config α) (f : (p : Party) → α p → Talker (α' p)) :
    Config α' where
  party p := c.party p >>= f p
  wire := c.wire

theorem Step.andThen {α' : Party → Type} {c c' : Config α} {e : Event} (h : Step c e c')
    (f : (p : Party) → α p → Talker (α' p)) : Step (c.andThen f) e (c'.andThen f) := by
  have hgoes : ∀ (p : Party) (x : Talker (α p)),
      update (c.andThen f).party p (x >>= f p) = fun q => update c.party p x q >>= f q := by
    intro p x
    funext q
    rcases eq_or_ne q p with rfl | hne
    · rw [Function.update_self, Function.update_self]
    · rw [Function.update_of_ne hne, Function.update_of_ne hne]
      rfl
  have hcall : ∀ {p : Party} {o : Net} {next : o.Answer → Talker (α p)},
      c.party p = .call o next → (c.andThen f).party p = .call o fun r => next r >>= f p := by
    intro p o next ht
    change c.party p >>= f p = _
    rw [ht]
    rfl
  cases h with
  | send ht hn hle =>
    have hstep := Step.send (hcall ht) hn hle
    rwa [hgoes] at hstep
  | recv ht hbs hle hw =>
    have hstep := Step.recv (c := c.andThen f) (hcall ht) hbs hle hw
    rwa [hgoes] at hstep

theorem run_andThen {α' : Party → Type} {c c' : Config α} {es : List Event} (h : Run Step c es c')
    (f : (p : Party) → α p → Talker (α' p)) : Run Step (c.andThen f) es (c'.andThen f) := by
  induction h with
  | nil c => exact .nil _
  | cons hstep _ ih => exact .cons (hstep.andThen f) ih

end TpSo.Dialogue
