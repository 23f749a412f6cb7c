import Mathlib.Data.List.Infix
import Mathlib.Logic.Function.Basic

/-!
# Trees of directories and files

A `FileTree` says what stands at every path. The root is a directory, and what stands anywhere else
stands in a directory; the operations take the proofs of what they need for that.
-/

namespace TpSo

universe u v

inductive Node (β : Type v) where
  | dir
  | file (content : β)
  deriving DecidableEq

/-- A directory has no content to replace. -/
def Node.write {β : Type v} (content : β) : Node β → Node β
  | dir => dir
  | file _ => file content

structure FileTree (ν : Type u) (β : Type v) where
  node : List ν → Option (Node β)
  root : node [] = some .dir
  closed : ∀ p, (node p).isSome = true → node p.dropLast = some .dir

namespace FileTree

variable {ν : Type u} {β : Type v} {t t' : FileTree ν β} {p q r : List ν} {x : ν} {n : Node β}

@[ext] theorem ext (h : ∀ p, t.node p = t'.node p) : t = t' := by
  obtain ⟨node, _, _⟩ := t
  obtain ⟨node', _, _⟩ := t'
  obtain rfl : node = node' := funext h
  rfl

def bare : FileTree ν β where
  node p := if p.isEmpty then some .dir else none
  root := rfl
  closed p h := by
    cases p with
    | nil => rfl
    | cons x p => cases h

/-- Nothing stands at `p`, and there is a directory for it. -/
structure Vacant (t : FileTree ν β) (p : List ν) : Prop where
  empty : t.node p = none
  parent : t.node p.dropLast = some .dir

/-- Nothing stands in `p`. -/
def Childless (t : FileTree ν β) (p : List ν) : Prop := ∀ x, t.node (p ++ [x]) = none

theorem dir_of_child (h : (t.node (p ++ [x])).isSome = true) : t.node p = some .dir := by
  have hdir := t.closed _ h
  rwa [List.dropLast_concat] at hdir

theorem ne_nil_of_none (h : t.node p = none) : p ≠ [] := by
  rintro rfl
  rw [t.root] at h
  cases h

theorem Vacant.ne_nil (h : t.Vacant p) : p ≠ [] := ne_nil_of_none h.empty

theorem none_of_none (h : t.node p = none) (hpr : p <+: r) : t.node r = none := by
  obtain ⟨s, rfl⟩ := hpr
  induction s using List.reverseRecOn with
  | nil => rwa [List.append_nil]
  | append_singleton s x ih =>
    rcases hx : t.node (p ++ (s ++ [x])) with _ | m
    · rfl
    · rw [← List.append_assoc] at hx
      have hdir := t.dir_of_child (x := x) (by rw [hx]; rfl)
      rw [ih] at hdir
      cases hdir

theorem isSome_of_isSome (h : (t.node r).isSome = true) (hpr : p <+: r) :
    (t.node p).isSome = true := by
  rcases hp : t.node p with _ | m
  · rw [none_of_none hp hpr] at h
    exact h
  · rfl

theorem Childless.eq_of_isSome (h : t.Childless p) (hr : (t.node r).isSome = true) (hpr : p <+: r) :
    r = p := by
  obtain ⟨s, rfl⟩ := hpr
  rcases s with _ | ⟨x, s⟩
  · rw [List.append_nil]
  · have hx := isSome_of_isSome (p := p ++ [x]) hr ⟨s, by simp⟩
    rw [h x] at hx
    cases hx

theorem childless_of_vacant (h : t.Vacant p) : t.Childless p := fun x =>
  none_of_none h.empty (List.prefix_append p [x])

theorem dropLast_ne (h : p ≠ []) : p.dropLast ≠ p := by
  intro he
  have hlen := congrArg List.length he
  rw [List.length_dropLast] at hlen
  have hpos := List.length_pos_iff.mpr h
  omega

/-- What stands at `p` and below comes to stand at `q`. -/
structure Movable (t : FileTree ν β) (p q : List ν) : Prop where
  source : (t.node p).isSome = true
  target : t.Vacant q
  outside : ¬ p <+: q

theorem Movable.ne_nil (h : t.Movable p q) : p ≠ [] := by
  rintro rfl
  exact h.outside List.nil_prefix

/-- Nothing stands above an empty place but what is not below it. -/
theorem Movable.not_above (h : t.Movable p q) : ¬ q <+: p := fun hqp => by
  have hsome := h.source
  rw [none_of_none h.target.empty hqp] at hsome
  cases hsome

section Operations
variable [DecidableEq ν]

def insert (t : FileTree ν β) (p : List ν) (n : Node β) (h : t.Vacant p) :
    FileTree ν β where
  node := Function.update t.node p (some n)
  root := (Function.update_of_ne h.ne_nil.symm _ _).trans t.root
  closed q hq := by
    rcases eq_or_ne q p with rfl | hne
    · rw [Function.update_of_ne (dropLast_ne h.ne_nil)]
      exact h.parent
    · rw [Function.update_of_ne hne] at hq
      have hdir := t.closed q hq
      have hother : q.dropLast ≠ p := by
        rintro rfl
        rw [h.empty] at hdir
        cases hdir
      rwa [Function.update_of_ne hother]

def write (t : FileTree ν β) (p : List ν) (content : β) : FileTree ν β where
  node := Function.update t.node p ((t.node p).map (·.write content))
  root := by
    rcases eq_or_ne p [] with rfl | hne
    · rw [Function.update_self, t.root]
      rfl
    · rw [Function.update_of_ne hne.symm, t.root]
  closed q hq := by
    have hsome : (t.node q).isSome = true := by
      rcases eq_or_ne q p with rfl | hne
      · rwa [Function.update_self, Option.isSome_map] at hq
      · rwa [Function.update_of_ne hne] at hq
    have hdir := t.closed q hsome
    rcases eq_or_ne q.dropLast p with rfl | hne
    · rw [Function.update_self, hdir]
      rfl
    · rwa [Function.update_of_ne hne]

def remove (t : FileTree ν β) (p : List ν) (hp : p ≠ []) (h : t.Childless p) :
    FileTree ν β where
  node := Function.update t.node p none
  root := (Function.update_of_ne hp.symm _ _).trans t.root
  closed q hq := by
    have hne : q ≠ p := by
      rintro rfl
      rw [Function.update_self] at hq
      cases hq
    rw [Function.update_of_ne hne] at hq
    have hother : q.dropLast ≠ p := by
      rintro rfl
      rcases List.eq_nil_or_concat q with rfl | ⟨s, x, rfl⟩
      · exact hp rfl
      · rw [List.concat_eq_append, List.dropLast_concat] at h
        rw [List.concat_eq_append, h x] at hq
        cases hq
    rw [Function.update_of_ne hother]
    exact t.closed q hq

/-- The node at `r` after what was at `p` has come to `q`. -/
def movedNode (t : FileTree ν β) (p q r : List ν) : Option (Node β) :=
  if q <+: r then t.node (p ++ r.drop q.length)
  else if p <+: r then none
  else t.node r

theorem movedNode_below (s : List ν) : t.movedNode p q (q ++ s) = t.node (p ++ s) := by
  rw [movedNode, if_pos (List.prefix_append q s), List.drop_left]

theorem movedNode_target : t.movedNode p q q = t.node p := by
  have h := t.movedNode_below (p := p) (q := q) []
  rwa [List.append_nil, List.append_nil] at h

theorem movedNode_source (hqr : ¬ q <+: r) (hpr : p <+: r) : t.movedNode p q r = none := by
  rw [movedNode, if_neg hqr, if_pos hpr]

theorem movedNode_other (hqr : ¬ q <+: r) (hpr : ¬ p <+: r) : t.movedNode p q r = t.node r := by
  rw [movedNode, if_neg hqr, if_neg hpr]

def move (t : FileTree ν β) (p q : List ν) (h : t.Movable p q) : FileTree ν β where
  node := t.movedNode p q
  root := by
    rw [movedNode_other (fun hq => h.target.ne_nil (List.prefix_nil.mp hq))
      fun hp => h.ne_nil (List.prefix_nil.mp hp), t.root]
  closed r hr := by
    by_cases hqr : q <+: r
    · obtain ⟨s, rfl⟩ := hqr
      rw [movedNode_below] at hr
      rcases eq_or_ne s [] with rfl | hs
      · have hlen := List.length_pos_iff.mpr h.target.ne_nil
        rw [List.append_nil, movedNode_other, h.target.parent]
        · intro hq
          have hle := hq.length_le
          rw [List.length_dropLast] at hle
          omega
        · exact fun hp => h.outside (hp.trans (List.dropLast_prefix q))
      · have hdir := t.closed _ hr
        rw [List.dropLast_append_of_ne_nil hs] at hdir
        rwa [List.dropLast_append_of_ne_nil hs, movedNode_below]
    · by_cases hpr : p <+: r
      · rw [movedNode_source hqr hpr] at hr
        cases hr
      · rw [movedNode_other hqr hpr] at hr
        rw [movedNode_other (fun hq => hqr (hq.trans (List.dropLast_prefix r)))
          fun hp => hpr (hp.trans (List.dropLast_prefix r))]
        exact t.closed r hr

end Operations

section Laws
variable [DecidableEq ν]

@[simp] theorem insert_node_self (h : t.Vacant p) : (t.insert p n h).node p = some n :=
  Function.update_self p _ _

theorem insert_node_of_ne (h : t.Vacant p) (hr : r ≠ p) : (t.insert p n h).node r = t.node r :=
  Function.update_of_ne hr _ _

theorem write_node_of_ne {c : β} (hr : r ≠ p) : (t.write p c).node r = t.node r :=
  Function.update_of_ne hr _ _

@[simp] theorem write_node_self {c : β} : (t.write p c).node p = (t.node p).map (·.write c) :=
  Function.update_self p _ _

@[simp] theorem remove_node_self (hp : p ≠ []) (h : t.Childless p) : (t.remove p hp h).node p = none :=
  Function.update_self p _ _

theorem remove_node_of_ne (hp : p ≠ []) (h : t.Childless p) (hr : r ≠ p) :
    (t.remove p hp h).node r = t.node r := Function.update_of_ne hr _ _

@[simp] theorem move_node (h : t.Movable p q) : (t.move p q h).node r = t.movedNode p q r := rfl

theorem childless_insert (h : t.Vacant p) : (t.insert p n h).Childless p := by
  intro x
  rw [insert_node_of_ne h (by simp)]
  exact childless_of_vacant h x

theorem remove_insert (h : t.Vacant p) (hp : p ≠ []) (h' : (t.insert p n h).Childless p) :
    (t.insert p n h).remove p hp h' = t := by
  ext r
  rcases eq_or_ne r p with rfl | hne
  · rw [remove_node_self, h.empty]
  · rw [remove_node_of_ne _ _ hne, insert_node_of_ne h hne]

theorem movable_back (h : t.Movable p q) (hqp : ¬ q <+: p) : (t.move p q h).Movable q p where
  source := by
    rw [move_node, movedNode_target]
    exact h.source
  target := by
    refine ⟨movedNode_source hqp (List.prefix_refl p), ?_⟩
    rw [move_node, movedNode_other (fun hq => hqp (hq.trans (List.dropLast_prefix p)))]
    · exact t.closed p h.source
    · intro hp
      have hle := hp.length_le
      rw [List.length_dropLast] at hle
      have hlen := List.length_pos_iff.mpr h.ne_nil
      omega
  outside := hqp

theorem move_move (h : t.Movable p q) (h' : (t.move p q h).Movable q p) :
    (t.move p q h).move q p h' = t := by
  ext r
  rw [move_node]
  by_cases hpr : p <+: r
  · obtain ⟨s, rfl⟩ := hpr
    rw [movedNode_below, move_node, movedNode_below]
  · by_cases hqr : q <+: r
    · rw [movedNode_source hpr hqr, none_of_none h.target.empty hqr]
    · rw [movedNode_other hpr hqr, move_node, movedNode_other hqr hpr]

end Laws

end FileTree

end TpSo
