import Mathlib.Data.Nat.Basic

/-!
# Sequential operations on a state

`Op σ α` is a procedure over a state `σ`. It returns a value or never returns (it is
killed, or loops), and the state it had reached is kept in both cases. `Returns` is total
correctness, `Keeps` a relation between the two states that holds however the run ends.
-/

namespace TpSo

universe u

/-- A procedure: `none` means that it never returns. -/
def Op (σ : Type u) (α : Type u) : Type u := σ → Option α × σ

namespace Op

variable {σ α β : Type u}

def bind (x : Op σ α) (f : α → Op σ β) : Op σ β := fun s =>
  match x s with
  | (some a, s') => f a s'
  | (none, s') => (none, s')

instance : Monad (Op σ) where
  pure a := fun s => (some a, s)
  bind := bind

/-- The procedure does not go on past this point. -/
def abort : Op σ α := fun s => (none, s)

def get (f : σ → α) : Op σ α := fun s => (some (f s), s)

def modify (f : σ → σ) : Op σ PUnit := fun s => (some ⟨⟩, f s)

def zoom {τ : Type u} (part : σ → τ) (put : σ → τ → σ) (x : Op τ α) : Op σ α := fun s =>
  ((x (part s)).1, put s (x (part s)).2)

@[simp] theorem pure_apply (a : α) (s : σ) : (pure a : Op σ α) s = (some a, s) := rfl

@[simp] theorem abort_apply (s : σ) : (abort : Op σ α) s = (none, s) := rfl

@[simp] theorem get_apply (f : σ → α) (s : σ) : get f s = (some (f s), s) := rfl

theorem some_inj {a b : α} {s s' : σ} (h : (some a, s) = (some b, s')) : a = b ∧ s = s' :=
  ⟨Option.some.inj (Prod.mk.inj h).1, (Prod.mk.inj h).2⟩

theorem of_fst {x : Op σ α} {s : σ} {a : α} (h : (x s).1 = some a) : ∃ s', x s = (some a, s') :=
  ⟨(x s).2, Prod.ext h rfl⟩

theorem bind_some {x : Op σ α} {f : α → Op σ β} {s s' : σ} {a : α}
    (h : x s = (some a, s')) : (x >>= f) s = f a s' := by
  change (match x s with
    | (some a, s') => f a s'
    | (none, s') => (none, s')) = f a s'
  rw [h]

theorem bind_none {x : Op σ α} {f : α → Op σ β} {s s' : σ}
    (h : x s = (none, s')) : (x >>= f) s = (none, s') := by
  change (match x s with
    | (some a, s') => f a s'
    | (none, s') => (none, s')) = (none, s')
  rw [h]

theorem bind_fst_none {x : Op σ α} {f : α → Op σ β} {s : σ} (h : (x s).1 = none) :
    ((x >>= f) s).1 = none := by
  have hx : x s = (none, (x s).2) := Prod.ext h rfl
  rw [bind_none hx]

/-- A sequence that returns went through both of its parts. -/
theorem of_bind {x : Op σ α} {f : α → Op σ β} {s : σ} {b : β} (h : ((x >>= f) s).1 = some b) :
    ∃ a s', x s = (some a, s') ∧ (f a s').1 = some b := by
  rcases he : x s with ⟨_ | a, s'⟩
  · rw [bind_none he] at h
    simp at h
  · rw [bind_some he] at h
    exact ⟨a, s', rfl, h⟩

@[simp] theorem get_bind (f : σ → α) (g : α → Op σ β) (s : σ) :
    (get f >>= g) s = g (f s) s := bind_some (get_apply f s)

@[simp] theorem modify_bind (f : σ → σ) (g : PUnit → Op σ β) (s : σ) :
    (modify f >>= g) s = g ⟨⟩ (f s) := bind_some rfl

theorem zoom_eq {τ : Type u} {part : σ → τ} {put : σ → τ → σ} {x : Op τ α} {s : σ} {o : Option α}
    {t : τ} (h : x (part s) = (o, t)) : zoom part put x s = (o, put s t) := by
  unfold zoom
  rw [h]

@[simp] theorem pure_bind' (a : α) (g : α → Op σ β) (s : σ) :
    ((pure a : Op σ α) >>= g) s = g a s := bind_some (pure_apply a s)

@[simp] theorem abort_bind (g : α → Op σ β) (s : σ) :
    ((abort : Op σ α) >>= g) s = (none, s) := bind_none (abort_apply s)

theorem bind_pure (x : Op σ α) (s : σ) : (x >>= pure) s = x s := by
  rcases he : x s with ⟨_ | a, s'⟩
  · rw [bind_none he]
  · rw [bind_some he, pure_apply]

theorem of_bind_pure {x : Op σ α} {g : α → β} {s s' : σ} {b : β}
    (h : (x >>= fun a => pure (g a)) s = (some b, s')) : ∃ a, x s = (some a, s') ∧ g a = b := by
  obtain ⟨a, s₁, hx, -⟩ := of_bind (congrArg Prod.fst h)
  rw [bind_some hx] at h
  obtain ⟨hb, rfl⟩ := some_inj h
  exact ⟨a, hx, hb⟩

theorem bind_assoc {γ : Type u} (x : Op σ α) (f : α → Op σ β) (g : β → Op σ γ) :
    (x >>= f) >>= g = x >>= fun a => f a >>= g := by
  funext s
  rcases he : x s with ⟨_ | a, s'⟩
  · rw [bind_none (bind_none he), bind_none he]
  · rw [bind_some he]
    rcases hf : f a s' with ⟨_ | b, s''⟩
    · rw [bind_none ((bind_some he).trans hf), bind_none hf]
    · rw [bind_some ((bind_some he).trans hf), bind_some hf]

/-- The value and the state of a procedure that comes back. -/
def outcome (x : Op σ α) (s : σ) : Option (α × σ) := (x s).1.map fun a => (a, (x s).2)

theorem outcome_eq_some {x : Op σ α} {s s' : σ} {a : α} :
    outcome x s = some (a, s') ↔ x s = (some a, s') := by
  rcases he : x s with ⟨_ | b, t⟩ <;> simp [outcome, he]

/-- Total correctness from one state. -/
def Returns (x : Op σ α) (s : σ) (Q : α → σ → Prop) : Prop :=
  ∃ a s', x s = (some a, s') ∧ Q a s'

theorem Returns.intro {x : Op σ α} {s s' : σ} {a : α} {Q : α → σ → Prop}
    (h : x s = (some a, s')) (hq : Q a s') : Returns x s Q := ⟨a, s', h, hq⟩

theorem Returns.mono {x : Op σ α} {s : σ} {P Q : α → σ → Prop}
    (h : Returns x s P) (hpq : ∀ a s', P a s' → Q a s') : Returns x s Q := by
  obtain ⟨a, s', he, hp⟩ := h
  exact ⟨a, s', he, hpq a s' hp⟩

theorem Returns.bind {x : Op σ α} {f : α → Op σ β} {s : σ} {P : α → σ → Prop}
    {Q : β → σ → Prop} (hx : Returns x s P)
    (hf : ∀ a s', P a s' → Returns (f a) s' Q) : Returns (x >>= f) s Q := by
  obtain ⟨a, s', he, hp⟩ := hx
  obtain ⟨b, s'', he', hq⟩ := hf a s' hp
  exact ⟨b, s'', (bind_some he).trans he', hq⟩

/-- The postcondition of a run that is known to return. -/
theorem Returns.post {x : Op σ α} {s s' : σ} {a : α} {Q : α → σ → Prop}
    (h : Returns x s Q) (he : x s = (some a, s')) : Q a s' := by
  obtain ⟨b, s'', he', hq⟩ := h
  rw [he] at he'
  cases he'
  exact hq

/-- `R` relates the states before and after, also when the run is cut short. -/
def Keeps (R : σ → σ → Prop) (x : Op σ α) : Prop := ∀ s, R s (x s).2

section Keeps
variable {R : σ → σ → Prop}

theorem Keeps.pure (hrefl : ∀ s, R s s) (a : α) : Keeps R (Pure.pure a : Op σ α) :=
  fun s => hrefl s

theorem Keeps.get (hrefl : ∀ s, R s s) (f : σ → α) : Keeps R (Op.get f) :=
  fun s => hrefl s

theorem Keeps.abort (hrefl : ∀ s, R s s) : Keeps R (Op.abort : Op σ α) :=
  fun s => hrefl s

theorem Keeps.bind (htrans : ∀ a b c, R a b → R b c → R a c) {x : Op σ α}
    {f : α → Op σ β} (hx : Keeps R x) (hf : ∀ a, Keeps R (f a)) : Keeps R (x >>= f) := by
  intro s
  have h1 := hx s
  rcases he : x s with ⟨_ | a, s'⟩
  · rw [bind_none he]
    simpa only [he] using h1
  · rw [bind_some he]
    exact htrans _ _ _ (by simpa only [he] using h1) (hf a s')

theorem Keeps.outcome {x : Op σ α} (hx : Keeps R x) {s s' : σ} {a : α}
    (h : outcome x s = some (a, s')) : R s s' := by
  have hs := hx s
  rwa [outcome_eq_some.mp h] at hs

theorem Keeps.zoom {τ : Type u} {part : σ → τ} {put : σ → τ → σ} {S : τ → τ → Prop}
    {x : Op τ α} (hx : Keeps S x) (hput : ∀ s t, S (part s) t → R s (put s t)) :
    Keeps R (Op.zoom part put x) := fun s => hput s _ (hx (part s))

end Keeps

/-- `while (cond b) b = body b`, given up (never returns) after `fuel` rounds. -/
def whileDo (cond : α → Bool) (body : α → Op σ α) : ℕ → α → Op σ α
  | 0, b => if cond b then abort else pure b
  | n + 1, b => if cond b then body b >>= whileDo cond body n else pure b

/-- A loop that comes back does so because its condition failed. -/
theorem whileDo_cond {cond : α → Bool} {body : α → Op σ α} :
    ∀ (fuel : ℕ) {b b' : α} {s s' : σ}, whileDo cond body fuel b s = (some b', s') →
      cond b' = false := by
  intro fuel
  induction fuel with
  | zero =>
    intro b b' s s' h
    cases hc : cond b with
    | true => simp [whileDo, hc] at h
    | false =>
      simp only [whileDo, hc, Bool.false_eq_true, if_false, pure_apply, Prod.mk.injEq,
        Option.some.injEq] at h
      rw [← h.1, hc]
  | succ n ih =>
    intro b b' s s' h
    cases hc : cond b with
    | true =>
      rw [whileDo, if_pos hc] at h
      rcases he : body b s with ⟨_ | b₁, s₁⟩
      · simp [bind_none he] at h
      · rw [bind_some he] at h
        exact ih h
    | false =>
      simp only [whileDo, hc, Bool.false_eq_true, if_false, pure_apply, Prod.mk.injEq,
        Option.some.injEq] at h
      rw [← h.1, hc]

/-- With more rounds the loop comes back to the same. -/
theorem whileDo_succ {cond : α → Bool} {body : α → Op σ α} :
    ∀ (fuel : ℕ) {b b' : α} {s s' : σ}, whileDo cond body fuel b s = (some b', s') →
      whileDo cond body (fuel + 1) b s = (some b', s') := by
  intro fuel
  induction fuel with
  | zero =>
    intro b b' s s' h
    cases hc : cond b with
    | true => simp [whileDo, hc] at h
    | false =>
      simp only [whileDo, hc, Bool.false_eq_true, if_false] at h ⊢
      exact h
  | succ n ih =>
    intro b b' s s' h
    cases hc : cond b with
    | true =>
      rw [whileDo, if_pos hc] at h ⊢
      rcases he : body b s with ⟨_ | b₁, s₁⟩
      · simp [bind_none he] at h
      · rw [bind_some he] at h ⊢
        exact ih h
    | false =>
      simp only [whileDo, hc, Bool.false_eq_true, if_false] at h ⊢
      exact h

theorem Keeps.whileDo {R : σ → σ → Prop} (hrefl : ∀ s, R s s)
    (htrans : ∀ a b c, R a b → R b c → R a c) {cond : α → Bool} {body : α → Op σ α}
    (hbody : ∀ b, Keeps R (body b)) :
    ∀ (fuel : ℕ) (b : α), Keeps R (Op.whileDo cond body fuel b) := by
  intro fuel
  induction fuel with
  | zero =>
    intro b
    unfold Op.whileDo
    split
    · exact Keeps.abort hrefl
    · exact Keeps.pure hrefl b
  | succ n ih =>
    intro b
    unfold Op.whileDo
    split
    · exact Keeps.bind htrans (hbody b) ih
    · exact Keeps.pure hrefl b

end Op

end TpSo
