/-
  MsmnilePkg.Lib.Places

  A quantity split by units, the largest first: days, hours, minutes, seconds.

  `split [u₀, u₁, …] n` divides by the first unit and goes on with the rest.
  Nothing is asked of the units: the places always add up to the quantity, and
  they are ordered, the first place first, as the quantities are.
-/

import Mathlib.Data.List.Lex

namespace Places

/-- The places of `n`; the last one is what no unit has taken. -/
def split : List Nat → Nat → List Nat
  | [], n => [n]
  | u :: us, n => n / u :: split us (n % u)

/-- The quantity that places stand for. -/
def total : List Nat → List Nat → Nat
  | _, [] => 0
  | [], d :: _ => d
  | u :: us, d :: ds => u * d + total us ds

@[simp] theorem total_cons (u d : Nat) (us ds : List Nat) :
    total (u :: us) (d :: ds) = u * d + total us ds := rfl

@[simp] theorem total_nil (d : Nat) (ds : List Nat) : total [] (d :: ds) = d := rfl

theorem total_split (us : List Nat) (n : Nat) : total us (split us n) = n := by
  induction us generalizing n with
  | nil => rfl
  | cons u us ih => rw [split, total_cons, ih, Nat.div_add_mod]

theorem lt_iff_div_mod (u m n : Nat) :
    m < n ↔ m / u < n / u ∨ m / u = n / u ∧ m % u < n % u := by
  have hm := Nat.div_add_mod m u
  have hn := Nat.div_add_mod n u
  rcases Nat.lt_trichotomy (m / u) (n / u) with h | h | h
  · have hlt : m < n := Nat.lt_of_div_lt_div h
    simp [h, hlt]
  · rw [h] at hm
    simp only [h, lt_irrefl, true_and, false_or]
    omega
  · have hlt : n < m := Nat.lt_of_div_lt_div h
    simp only [Nat.not_lt_of_lt h, Nat.ne_of_gt h, false_and, or_self, iff_false]
    omega

/-- The places are in order exactly when the quantities are. -/
theorem split_lt_split (us : List Nat) (m n : Nat) : split us m < split us n ↔ m < n := by
  induction us generalizing m n with
  | nil => simp [split, List.cons_lt_cons_iff]
  | cons u us ih => rw [split, split, List.cons_lt_cons_iff, ih, ← lt_iff_div_mod]

end Places
