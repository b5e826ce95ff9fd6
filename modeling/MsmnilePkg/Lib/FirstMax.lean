/-
  MsmnilePkg.Lib.FirstMax

  The first candidate with the largest key.

  Candidates come one after the other, and some have no key.  A loop that
  keeps the best one so far, and replaces it by a candidate whose key is
  larger, ends with the first of those whose key is the largest.
-/

import Mathlib.Order.Lattice
import MsmnilePkg.Lib.Loop

namespace FirstMax

variable {α : Type*} [LinearOrder α]

/-- The best candidate so far and its key, after candidate `k`. -/
def offer (key : Nat → Option α) (k : Nat) (best : Nat × α) : Nat × α :=
  match key k with
  | none => best
  | some a => if best.2 < a then (k, a) else best

/-- Candidate `k` is the first of the `n` candidates whose key is the largest. -/
structure IsFirstMax (key : Nat → Option α) (n k : Nat) (a : α) : Prop where
  lt : k < n
  key_eq : key k = some a
  earlier : ∀ j < k, ∀ b, key j = some b → b < a
  bound : ∀ j < n, ∀ b, key j = some b → b ≤ a

variable {key : Nat → Option α} {n : Nat} {init : Nat × α}

theorem offer_none {k : Nat} {best : Nat × α} (h : key k = none) : offer key k best = best := by
  simp [offer, h]

theorem offer_larger {k : Nat} {best : Nat × α} {a : α} (h : key k = some a) (hlt : best.2 < a) :
    offer key k best = (k, a) := by
  simp [offer, h, hlt]

theorem offer_not_larger {k : Nat} {best : Nat × α} {a : α} (h : key k = some a)
    (hle : a ≤ best.2) : offer key k best = best := by
  simp [offer, h, not_lt.mpr hle]

/-- Nothing so far was larger than the key at the start, or the first maximum is kept. -/
def Kept (key : Nat → Option α) (init : Nat × α) (n : Nat) (best : Nat × α) : Prop :=
  (best = init ∧ ∀ j < n, ∀ b, key j = some b → b ≤ init.2) ∨
    (init.2 < best.2 ∧ IsFirstMax key n best.1 best.2)

theorem Kept.key_le {best : Nat × α} (h : Kept key init n best) :
    ∀ j < n, ∀ b, key j = some b → b ≤ best.2 := by
  rcases h with ⟨rfl, hle⟩ | ⟨-, hmax⟩
  · exact hle
  · exact hmax.bound

theorem Kept.init_le {best : Nat × α} (h : Kept key init n best) : init.2 ≤ best.2 := by
  rcases h with ⟨rfl, -⟩ | ⟨hlt, -⟩
  · exact le_rfl
  · exact le_of_lt hlt

/-- A candidate that does not replace the best one leaves it the best. -/
theorem Kept.skip {best : Nat × α} (h : Kept key init n best)
    (hle : ∀ b, key n = some b → b ≤ best.2) : Kept key init (n + 1) best := by
  have hall : ∀ j < n + 1, ∀ b, key j = some b → b ≤ best.2 := by
    intro j hj b hb
    rcases Nat.lt_succ_iff_lt_or_eq.mp hj with hlt | rfl
    · exact h.key_le j hlt b hb
    · exact hle b hb
  rcases h with ⟨rfl, -⟩ | ⟨hlt, hmax⟩
  · exact Or.inl ⟨rfl, hall⟩
  · exact Or.inr ⟨hlt, Nat.lt_succ_of_lt hmax.lt, hmax.key_eq, hmax.earlier, hall⟩

/-- One candidate more. -/
theorem Kept.offer {best : Nat × α} (h : Kept key init n best) :
    Kept key init (n + 1) (offer key n best) := by
  cases hkey : key n with
  | none =>
      rw [offer_none hkey]
      exact h.skip (by simp [hkey])
  | some a =>
      by_cases hlt : best.2 < a
      · rw [offer_larger hkey hlt]
        refine Or.inr ⟨lt_of_le_of_lt h.init_le hlt, Nat.lt_succ_self n, hkey, ?_, ?_⟩
        · intro j hj b hb
          exact lt_of_le_of_lt (h.key_le j hj b hb) hlt
        · intro j hj b hb
          rcases Nat.lt_succ_iff_lt_or_eq.mp hj with hj | rfl
          · exact le_of_lt (lt_of_le_of_lt (h.key_le j hj b hb) hlt)
          · exact le_of_eq (Option.some.inj (hb.symm.trans hkey))
      · rw [offer_not_larger hkey (not_lt.mp hlt)]
        apply h.skip
        intro b hb
        rw [← Option.some.inj (hkey.symm.trans hb)]
        exact not_lt.mp hlt

/-- All candidates. -/
theorem kept_forTurns (key : Nat → Option α) (init : Nat × α) (n : Nat) :
    Kept key init n (Loop.forTurns (offer key) n init) := by
  apply Loop.forTurns_invariant (I := fun k best => Kept key init k best)
  · exact Or.inl ⟨rfl, fun j hj => absurd hj (Nat.not_lt_zero j)⟩
  · intro k _ best h
    exact h.offer

/-- When some candidate is larger than the key at the start, the first maximum is found. -/
theorem isFirstMax_of_larger {j : Nat} (hj : j < n) {b : α} (hb : key j = some b)
    (hlt : init.2 < b) :
    IsFirstMax key n (Loop.forTurns (offer key) n init).1
      (Loop.forTurns (offer key) n init).2 := by
  rcases kept_forTurns key init n with ⟨-, hle⟩ | ⟨-, hmax⟩
  · exact absurd (hle j hj b hb) (not_le.mpr hlt)
  · exact hmax

end FirstMax
