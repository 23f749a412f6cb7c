import Mathlib.Tactic.Ring
import Mathlib.Tactic.Linarith

/-!
# Machine integers as bytes

The least significant byte comes first. A signed integer is written in two's complement.
-/

namespace TpSo

/-- The `n` bytes of a number, modulo `256 ^ n`. -/
def bytesOfNat : ℕ → ℕ → List UInt8
  | 0, _ => []
  | n + 1, x => UInt8.ofNat x :: bytesOfNat n (x / 256)

def natOfBytes : List UInt8 → ℕ
  | [] => 0
  | b :: bs => b.toNat + 256 * natOfBytes bs

@[simp] theorem length_bytesOfNat (n x : ℕ) : (bytesOfNat n x).length = n := by
  induction n generalizing x with
  | zero => rfl
  | succ n ih => simp [bytesOfNat, ih]

theorem natOfBytes_bytesOfNat (n x : ℕ) : natOfBytes (bytesOfNat n x) = x % 256 ^ n := by
  induction n generalizing x with
  | zero => simp [bytesOfNat, natOfBytes, Nat.mod_one]
  | succ n ih =>
    rw [bytesOfNat, natOfBytes, ih, Nat.pow_succ, Nat.mul_comm (256 ^ n) 256, Nat.mod_mul]
    have hb : (UInt8.ofNat x).toNat = x % 256 := UInt8.toNat_ofNat'
    omega

/-- A signed integer of `n` bytes. -/
def bytesOfInt (n : ℕ) (x : ℤ) : List UInt8 := bytesOfNat n (x % 256 ^ n).toNat

def intOfBytes (bs : List UInt8) : ℤ :=
  if 2 * natOfBytes bs < 256 ^ bs.length then natOfBytes bs
  else natOfBytes bs - 256 ^ bs.length

@[simp] theorem length_bytesOfInt (n : ℕ) (x : ℤ) : (bytesOfInt n x).length = n :=
  length_bytesOfNat n _

theorem natOfBytes_bytesOfInt (n : ℕ) (x : ℤ) :
    (natOfBytes (bytesOfInt n x) : ℤ) = x % 256 ^ n := by
  have hpos : (0 : ℤ) < 256 ^ n := by positivity
  have hmod : 0 ≤ x % 256 ^ n := Int.emod_nonneg _ hpos.ne'
  have hlt : x % 256 ^ n < 256 ^ n := Int.emod_lt_of_pos _ hpos
  rw [bytesOfInt, natOfBytes_bytesOfNat, Nat.mod_eq_of_lt (by zify; omega)]
  omega

theorem intOfBytes_bytesOfInt {n : ℕ} {x : ℤ} (hlow : -(256 ^ n) ≤ 2 * x) (hhigh : 2 * x < 256 ^ n) :
    intOfBytes (bytesOfInt n x) = x := by
  have hpos : (0 : ℤ) < 256 ^ n := by positivity
  have hmod : 0 ≤ x % 256 ^ n := Int.emod_nonneg _ hpos.ne'
  have hlt : x % 256 ^ n < 256 ^ n := Int.emod_lt_of_pos _ hpos
  have hread := natOfBytes_bytesOfInt n x
  unfold intOfBytes
  rw [length_bytesOfInt]
  by_cases hx : 0 ≤ x
  · have hself : x % 256 ^ n = x := Int.emod_eq_of_lt hx (by omega)
    rw [hself] at hread
    rw [if_pos (by zify; omega), hread]
  · have hself : x % 256 ^ n = x + 256 ^ n := by
      rw [← Int.add_emod_right]
      exact Int.emod_eq_of_lt (by omega) (by omega)
    rw [hself] at hread
    rw [if_neg (by zify; omega), hread]
    ring

end TpSo
