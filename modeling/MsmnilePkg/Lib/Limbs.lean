/-
  MsmnilePkg.Lib.Limbs

  Numbers of many limbs, the least significant one first.

  `num a n` is the number of the first `n` limbs of `a`.  A loop over the limbs carries an
  equation between such numbers from `n` to `n + 1`.
-/

import Mathlib.Data.BitVec
import Mathlib.Logic.Function.Basic
import Mathlib.Tactic.Ring

namespace Limbs

variable {w : Nat}

/-- The cells of an array of words. -/
abbrev Words (w : Nat) := Nat → BitVec w

/-- The number of the first `n` limbs. -/
def num (a : Words w) : Nat → Nat
  | 0 => 0
  | n + 1 => num a n + (a n).toNat * 2 ^ (w * n)

@[simp] theorem num_zero (a : Words w) : num a 0 = 0 := rfl

theorem num_succ (a : Words w) (n : Nat) :
    num a (n + 1) = num a n + (a n).toNat * 2 ^ (w * n) := rfl

theorem pow_succ_limb (w n : Nat) : 2 ^ (w * (n + 1)) = 2 ^ w * 2 ^ (w * n) := by
  rw [Nat.mul_succ, Nat.pow_add, Nat.mul_comm]

theorem num_lt (a : Words w) (n : Nat) : num a n < 2 ^ (w * n) := by
  induction n with
  | zero => exact Nat.one_pos
  | succ n ih =>
      rw [num_succ, pow_succ_limb]
      calc num a n + (a n).toNat * 2 ^ (w * n)
          < 2 ^ (w * n) + (a n).toNat * 2 ^ (w * n) := Nat.add_lt_add_right ih _
        _ = ((a n).toNat + 1) * 2 ^ (w * n) := by ring
        _ ≤ 2 ^ w * 2 ^ (w * n) := Nat.mul_le_mul_right _ (a n).isLt

theorem num_congr {a b : Words w} {n : Nat} (h : ∀ i < n, a i = b i) : num a n = num b n := by
  induction n with
  | zero => rfl
  | succ n ih =>
      rw [num_succ, num_succ, ih fun i hi => h i (Nat.lt_succ_of_lt hi), h n (Nat.lt_succ_self n)]

theorem num_const_zero (n : Nat) : num (fun _ => 0#w) n = 0 := by
  induction n with
  | zero => rfl
  | succ n ih => rw [num_succ, ih, BitVec.toNat_ofNat, Nat.zero_mod, Nat.zero_mul]

/-- A limb that is stored behind the others. -/
theorem num_update (a : Words w) (n : Nat) (v : BitVec w) :
    num (Function.update a n v) n = num a n :=
  num_congr fun _ hi => Function.update_of_ne (Nat.ne_of_lt hi) ..

theorem num_update_succ (a : Words w) (n : Nat) (v : BitVec w) :
    num (Function.update a n v) (n + 1) = num a n + v.toNat * 2 ^ (w * n) := by
  rw [num_succ, num_update, Function.update_self]

/-- The first limb is what is left modulo the base. -/
theorem num_mod (a : Words w) {n : Nat} (hn : 0 < n) : num a n % 2 ^ w = (a 0).toNat := by
  induction n with
  | zero => exact absurd hn (Nat.lt_irrefl 0)
  | succ n ih =>
      cases n with
      | zero =>
          rw [num_succ, num_zero, Nat.zero_add, Nat.mul_zero, Nat.pow_zero, Nat.mul_one]
          exact Nat.mod_eq_of_lt (a 0).isLt
      | succ n =>
          rw [num_succ, pow_succ_limb, Nat.mul_left_comm, Nat.add_mul_mod_self_left]
          exact ih (Nat.succ_pos n)

/-! ## Comparing -/

/-- Where the limbs above are equal, the first difference from above decides. -/
theorem num_lt_num {a b : Words w} {i n : Nat} (hi : i < n)
    (habove : ∀ j, i < j → j < n → a j = b j) (hlt : (a i).toNat < (b i).toNat) :
    num a n < num b n := by
  induction n with
  | zero => exact absurd hi (Nat.not_lt_zero i)
  | succ n ih =>
      rw [num_succ, num_succ]
      rcases Nat.lt_succ_iff_lt_or_eq.mp hi with hin | rfl
      · rw [habove n hin (Nat.lt_succ_self n)]
        exact Nat.add_lt_add_right (ih hin fun j hj hjn => habove j hj (Nat.lt_succ_of_lt hjn)) _
      · calc num a i + (a i).toNat * 2 ^ (w * i)
            < 2 ^ (w * i) + (a i).toNat * 2 ^ (w * i) := Nat.add_lt_add_right (num_lt a i) _
          _ = ((a i).toNat + 1) * 2 ^ (w * i) := by ring
          _ ≤ (b i).toNat * 2 ^ (w * i) := Nat.mul_le_mul_right _ hlt
          _ ≤ num b i + (b i).toNat * 2 ^ (w * i) := Nat.le_add_left ..

end Limbs
