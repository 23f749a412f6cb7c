import Mathlib.Data.Nat.Basic

/-!
# Overwriting a range of a list

`overwrite xs i ys` has `ys` in the place of the elements of `xs` from position `i` on. Two
writes, one after the other, are one write, and a write that stays within a part of the list
leaves the other parts alone.
-/

namespace TpSo

universe u
variable {α : Type u}

def overwrite (xs : List α) (i : ℕ) (ys : List α) : List α :=
  xs.take i ++ ys ++ xs.drop (i + ys.length)

section Overwrite
variable {xs ys zs as bs : List α} {i j : ℕ}

@[simp] theorem overwrite_nil (xs : List α) (i : ℕ) : overwrite xs i [] = xs := by
  simp [overwrite]

theorem length_overwrite (h : i + ys.length ≤ xs.length) :
    (overwrite xs i ys).length = xs.length := by
  simp only [overwrite, List.length_append, List.length_take, List.length_drop]
  omega

theorem length_overwrite_max (h : i ≤ xs.length) :
    (overwrite xs i ys).length = max xs.length (i + ys.length) := by
  simp only [overwrite, List.length_append, List.length_take, List.length_drop]
  omega

theorem overwrite_append (h : i + ys.length ≤ xs.length) :
    overwrite (overwrite xs i ys) (i + ys.length) zs = overwrite xs i (ys ++ zs) := by
  have hpre : (xs.take i ++ ys).length = i + ys.length := by
    rw [List.length_append, List.length_take, Nat.min_eq_left (by omega)]
  have htake : (overwrite xs i ys).take (i + ys.length) = xs.take i ++ ys := by
    rw [overwrite, ← hpre, List.take_left]
  have hdrop : (overwrite xs i ys).drop (i + ys.length + zs.length) =
      xs.drop (i + ys.length + zs.length) := by
    rw [overwrite, ← hpre, List.drop_append, List.drop_of_length_le (by omega), hpre,
      List.nil_append, List.drop_drop, Nat.add_sub_cancel_left]
  rw [overwrite, htake, hdrop, overwrite, List.length_append, ← Nat.add_assoc,
    List.append_assoc (xs.take i) ys zs]

theorem overwrite_append_right (as bs ys : List α) (i : ℕ) :
    overwrite (as ++ bs) (as.length + i) ys = as ++ overwrite bs i ys := by
  simp only [overwrite, List.take_length_add_append, Nat.add_assoc, List.drop_length_add_append,
    List.append_assoc]

theorem overwrite_append_left (h : i + ys.length ≤ as.length) :
    overwrite (as ++ bs) i ys = overwrite as i ys ++ bs := by
  rw [overwrite, overwrite, List.take_append_of_le_length (by omega),
    List.drop_append_of_le_length h, ← List.append_assoc]

/-- A write that starts within the first `j` elements, seen from them. -/
theorem take_overwrite_max (h : i + ys.length ≤ xs.length) (hi : i ≤ j) :
    (overwrite xs i ys).take (max j (i + ys.length)) = overwrite (xs.take j) i ys := by
  have hpre : (xs.take i ++ ys).length = i + ys.length := by
    rw [List.length_append, List.length_take, Nat.min_eq_left (by omega)]
  rw [overwrite, List.take_append, List.take_of_length_le (by omega), overwrite, List.take_take,
    Nat.min_eq_left hi, List.drop_take, hpre]
  congr 2
  omega

theorem take_drop_overwrite (h : i ≤ xs.length) :
    ((overwrite xs i ys).drop i).take ys.length = ys := by
  have hlen : (xs.take i).length = i := by
    rw [List.length_take, Nat.min_eq_left h]
  have hdrop : (overwrite xs i ys).drop i = ys ++ xs.drop (i + ys.length) := by
    rw [overwrite, List.append_assoc]
    exact List.drop_left' hlen
  rw [hdrop, List.take_left]

end Overwrite

end TpSo
