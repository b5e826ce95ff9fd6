/-
  MsmnilePkg.Lib.Montgomery

  Products modulo an odd number, without a division.

  A product is taken one limb at a time: `m` times the modulus makes the lowest limb zero,
  and then it is dropped.  What comes out is the product divided by `R`.  A number `v` is
  kept as `v * R`, for which such products are products again.
-/

import Mathlib.Data.Nat.ModEq
import Mathlib.Data.Int.GCD
import Mathlib.Tactic.Ring

namespace Montgomery

/-! ## One limb -/

section Limb

variable {B n inv : Nat}

/-- The multiple of the modulus that makes the lowest limb zero. -/
theorem dvd_add_mul (hinv : B ∣ n * inv + 1) (x : Nat) : B ∣ x + x * inv % B * n := by
  have hzero : x + x * inv % B * n ≡ 0 [MOD B] := by
    calc x + x * inv % B * n ≡ x + x * inv * n [MOD B] :=
          ((Nat.mod_modEq _ B).mul_right n).add_left x
      _ = x * (n * inv + 1) := by ring
      _ ≡ 0 [MOD B] := (Nat.modEq_zero_iff_dvd.mpr (hinv.mul_left x))
  exact Nat.modEq_zero_iff_dvd.mp hzero

/-- A modulus with an inverse has no factor in common with the base. -/
theorem coprime_of_inv (hinv : B ∣ n * inv + 1) : Nat.Coprime B n := by
  have hsum : Nat.gcd B n ∣ n * inv + 1 := (Nat.gcd_dvd_left B n).trans hinv
  have hproduct : Nat.gcd B n ∣ n * inv := (Nat.gcd_dvd_right B n).mul_right inv
  exact Nat.dvd_one.mp ((Nat.dvd_add_right hproduct).mp hsum)

end Limb

/-! ## Products -/

/-- `c` is the product of `a` and `b`, divided by `R`. -/
def IsProduct (R n a b c : Nat) : Prop := R * c ≡ a * b [MOD n]

/-- `x` stands for `v`. -/
def Stands (R n v x : Nat) : Prop := x ≡ v * R [MOD n]

section Products

variable {R n a b c v v' x x' : Nat}

/-- One more limb of the first factor. -/
theorem isProduct_add {B c' limb : Nat} (hc : IsProduct R n a b c)
    (h : B * c' ≡ c + limb * b [MOD n]) : IsProduct (B * R) n (a + limb * R) b c' := by
  calc B * R * c' = R * (B * c') := by ring
    _ ≡ R * (c + limb * b) [MOD n] := h.mul_left R
    _ = R * c + limb * R * b := by ring
    _ ≡ a * b + limb * R * b [MOD n] := Nat.ModEq.add_right _ hc
    _ = (a + limb * R) * b := by ring

/-- A product with `R ^ 2` makes a number stand for itself. -/
theorem IsProduct.stands (hcop : Nat.Coprime R n) {rr : Nat} (hrr : rr ≡ R ^ 2 [MOD n])
    (h : IsProduct R n v rr x) : Stands R n v x := by
  refine Nat.ModEq.cancel_left_of_coprime hcop.symm (c := R) ?_
  calc R * x ≡ v * rr [MOD n] := h
    _ ≡ v * R ^ 2 [MOD n] := hrr.mul_left v
    _ = R * (v * R) := by ring

theorem Stands.mul (hcop : Nat.Coprime R n) (h : Stands R n v x) (h' : Stands R n v' x')
    (hc : IsProduct R n x x' c) : Stands R n (v * v') c := by
  refine Nat.ModEq.cancel_left_of_coprime hcop.symm (c := R) ?_
  calc R * c ≡ x * x' [MOD n] := hc
    _ ≡ v * R * (v' * R) [MOD n] := Nat.ModEq.mul h h'
    _ = R * (v * v' * R) := by ring

/-- A product with a number that stands for nothing leaves the form. -/
theorem Stands.leave (hcop : Nat.Coprime R n) (h : Stands R n v x)
    (hc : IsProduct R n x a c) : c ≡ v * a [MOD n] := by
  refine Nat.ModEq.cancel_left_of_coprime hcop.symm (c := R) ?_
  calc R * c ≡ x * a [MOD n] := hc
    _ ≡ v * R * a [MOD n] := Nat.ModEq.mul_right a h
    _ = R * (v * a) := by ring

end Products

end Montgomery
