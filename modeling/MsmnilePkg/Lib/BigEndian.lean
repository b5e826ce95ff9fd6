/-
  MsmnilePkg.Lib.BigEndian

  Numbers as bytes, the most significant one first.

  `bigEndian` is the number of a list of bytes.  A word whose bytes are shifted to their
  places and joined has this number, and so has an array of words that is filled from its
  end.
-/

import MsmnilePkg.Lib.LittleEndian
import MsmnilePkg.Lib.Limbs
import Mathlib.Data.Nat.Digits.Lemmas

namespace BigEndian

open ByteMem LittleEndian Limbs

/-- The number of a list of bytes. -/
def bigEndian (bs : List Byte) : Nat := Nat.ofDigits 256 (bs.reverse.map BitVec.toNat)

theorem bigEndian_append (xs ys : List Byte) :
    bigEndian (xs ++ ys) = bigEndian xs * 256 ^ ys.length + bigEndian ys := by
  rw [bigEndian, List.reverse_append, List.map_append, Nat.ofDigits_append, List.length_map,
    List.length_reverse, Nat.add_comm, Nat.mul_comm]
  rfl

theorem bigEndian_cons (x : Byte) (xs : List Byte) :
    bigEndian (x :: xs) = x.toNat * 256 ^ xs.length + bigEndian xs := by
  have happend := bigEndian_append [x] xs
  rwa [show bigEndian [x] = x.toNat from Nat.ofDigits_singleton ..] at happend

/-- Every digit is a byte. -/
theorem digit_lt {bs : List Byte} : ∀ x ∈ bs.reverse.map BitVec.toNat, x < 256 := by
  intro x hx
  obtain ⟨b, -, rfl⟩ := List.mem_map.mp hx
  exact b.isLt

theorem bigEndian_lt (bs : List Byte) : bigEndian bs < 256 ^ bs.length := by
  have hdigits : ∀ x ∈ bs.reverse.map BitVec.toNat, x < 256 := digit_lt
  have hlt := Nat.ofDigits_lt_base_pow_length (by decide) hdigits
  rwa [List.length_map, List.length_reverse] at hlt

/-- The bytes are known from the number and their count. -/
theorem bigEndian_inj {xs ys : List Byte} (hlen : xs.length = ys.length)
    (h : bigEndian xs = bigEndian ys) : xs = ys := by
  have hdigits : xs.reverse.map BitVec.toNat = ys.reverse.map BitVec.toNat := by
    refine Nat.ofDigits_inj_of_len_eq (b := 256) (by decide) ?_ digit_lt digit_lt h
    rw [List.length_map, List.length_map, List.length_reverse, List.length_reverse, hlen]
  have hbytes := List.map_injective_iff.mpr (fun _ _ => BitVec.eq_of_toNat_eq) hdigits
  exact List.reverse_injective hbytes

/-! ## Words -/

/-- The bytes, each shifted to its place. -/
def orBytes (w : Nat) : List Byte → BitVec w
  | [] => 0
  | x :: xs => x.setWidth w <<< (8 * xs.length) ||| orBytes w xs

theorem toNat_shift_or {w k : Nat} (x : Byte) {y : BitVec w} (hk : k + 8 ≤ w)
    (hy : y.toNat < 2 ^ k) : (x.setWidth w <<< k ||| y).toNat = x.toNat * 2 ^ k + y.toNat := by
  have hx : x.toNat * 2 ^ k < 2 ^ w := by
    calc x.toNat * 2 ^ k < 2 ^ 8 * 2 ^ k := Nat.mul_lt_mul_of_pos_right x.isLt (Nat.two_pow_pos k)
      _ = 2 ^ (k + 8) := by rw [Nat.pow_add, Nat.mul_comm]
      _ ≤ 2 ^ w := Nat.pow_le_pow_right (by decide) hk
  have hwidth : x.toNat % 2 ^ w = x.toNat :=
    Nat.mod_eq_of_lt (Nat.lt_of_le_of_lt (Nat.le_mul_of_pos_right _ (Nat.two_pow_pos k)) hx)
  rw [BitVec.toNat_or, BitVec.toNat_shiftLeft, BitVec.toNat_setWidth, hwidth, Nat.shiftLeft_eq,
    Nat.mod_eq_of_lt hx, ← Nat.shiftLeft_eq, ← Nat.shiftLeft_add_eq_or_of_lt hy]

theorem pow_eight (n : Nat) : 2 ^ (8 * n) = 256 ^ n := Nat.pow_mul 2 8 n

theorem toNat_orBytes {w : Nat} : ∀ {bs : List Byte}, 8 * bs.length ≤ w →
    (orBytes w bs).toNat = bigEndian bs := by
  intro bs
  induction bs with
  | nil => intro _; exact BitVec.toNat_ofNat .. |>.trans (Nat.zero_mod _)
  | cons x xs ih =>
      intro hw
      rw [List.length_cons] at hw
      have hrest := ih (by omega)
      have hlt : (orBytes w xs).toNat < 2 ^ (8 * xs.length) := by
        rw [hrest, pow_eight]
        exact bigEndian_lt xs
      rw [orBytes, toNat_shift_or x (by omega) hlt, hrest, bigEndian_cons, pow_eight]

/-! ## Arrays of words -/

/-- Words that are read from their end. -/
theorem num_orBytes (b : Buffer) (offset len : Nat) : ∀ {k : Nat}, k ≤ len →
    num (fun i => orBytes 32 (slice b (offset + 4 * (len - i - 1)) 4)) k
      = bigEndian (slice b (offset + 4 * (len - k)) (4 * k)) := by
  intro k
  induction k with
  | zero => intro _; rfl
  | succ k ih =>
      intro hk
      have hsplit : slice b (offset + 4 * (len - (k + 1))) (4 * (k + 1))
          = slice b (offset + 4 * (len - k - 1)) 4
            ++ slice b (offset + 4 * (len - k)) (4 * k) := by
        rw [Nat.mul_succ, Nat.add_comm (4 * k), slice_add]
        exact congrArg₂ (fun i j => slice b (offset + i) 4 ++ slice b j (4 * k)) (by omega)
          (by omega)
      have hpow : (256 : Nat) ^ (4 * k) = 2 ^ (32 * k) := by rw [Nat.pow_mul, Nat.pow_mul]
      rw [num_succ, ih (by omega), toNat_orBytes (by rw [slice_length]), hsplit, bigEndian_append,
        slice_length, hpow, Nat.add_comm]

end BigEndian
