import Mathlib.Data.Nat.Basic
import Mathlib.Tactic.Ring

/-!
# Machine integers as `ℕ` and `ℤ`

`u32`, `u16`, `i32` and `i16` are the conversions of C on values of a mathematical type: a sum or
a difference is taken in `ℤ` and then brought back into the range of the machine type.
-/

namespace TpSo

def u32 (x : ℤ) : ℕ := (x % 4294967296).toNat

def i32 (x : ℤ) : ℤ :=
  if x % 4294967296 < 2147483648 then x % 4294967296 else x % 4294967296 - 4294967296

def u16 (x : ℤ) : ℕ := (x % 65536).toNat

def i16 (x : ℤ) : ℤ := if x % 65536 < 32768 then x % 65536 else x % 65536 - 65536

theorem u32_lt (x : ℤ) : u32 x < 4294967296 := by unfold u32; omega

theorem u32_of_lt {x : ℤ} (h0 : 0 ≤ x) (h : x < 4294967296) : (u32 x : ℤ) = x := by
  unfold u32; omega

@[simp] theorem u32_natCast_of_lt {n : ℕ} (h : n < 4294967296) : u32 (n : ℤ) = n := by
  unfold u32; omega

theorem u16_natCast_of_lt {n : ℕ} (h : n < 65536) : u16 (n : ℤ) = n := by
  unfold u16; omega

theorem i16_natCast_of_lt {n : ℕ} (h : n < 32768) : i16 (n : ℤ) = n := by
  unfold i16; split <;> omega

theorem u32_neg_one : u32 (-1) = 4294967295 := by decide

theorem u32_i32 (x : ℤ) : u32 (i32 x) = u32 x := by
  unfold u32 i32; split <;> omega

theorem u32_add (x y : ℤ) : u32 (u32 x + y) = u32 (x + y) := by
  unfold u32; omega

theorem u32_sub_i32 (x y : ℤ) : u32 (x - i32 x + y) = u32 y := by
  unfold u32 i32; split <;> omega

theorem i32_u32 (x : ℤ) : i32 (u32 x) = i32 x := by
  unfold u32 i32; split <;> split <;> omega

theorem i32_of_range {x : ℤ} (h0 : -2147483648 ≤ x) (h : x < 2147483648) : i32 x = x := by
  unfold i32; split <;> omega

theorem i32_range (x : ℤ) : -2147483648 ≤ i32 x ∧ i32 x < 2147483648 := by
  unfold i32; split <;> omega

theorem i32_natCast_of_lt {n : ℕ} (h : n < 2147483648) : i32 (n : ℤ) = n :=
  i32_of_range (by omega) (by omega)

end TpSo
