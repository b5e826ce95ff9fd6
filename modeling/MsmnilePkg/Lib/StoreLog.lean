/-
  MsmnilePkg.Lib.StoreLog

  What a store should answer: the value that was stored last.

  The log of a store lists its puts, the last one first.
-/

import Mathlib.Init

namespace StoreLog

variable {α : Type*}

/-- `size` values, stored from `offset` on. -/
structure Put (α : Type*) where
  offset : Nat
  size : Nat
  value : Nat → α

/-- The put stores a value at `o`. -/
def Put.Covers (p : Put α) (o : Nat) : Prop := p.offset ≤ o ∧ o < p.offset + p.size

instance (p : Put α) (o : Nat) : Decidable (p.Covers o) := inferInstanceAs (Decidable (_ ∧ _))

/-- The value that was stored last at `o`; the initial one if none was. -/
def lastStored (initial : Nat → α) : List (Put α) → Nat → α
  | [], o => initial o
  | p :: log, o => if p.Covers o then p.value (o - p.offset) else lastStored initial log o

/-- The cells of a store hold what was stored last in each of them. -/
def Holds (initial : Nat → α) (log : List (Put α)) (size : Nat) (cell : Nat → α) : Prop :=
  ∀ o < size, cell o = lastStored initial log o

theorem Holds.initial {cell : Nat → α} {size : Nat} : Holds cell [] size cell :=
  fun _ _ => rfl

/-- A put that changes its own cells, and no others, is recorded in front. -/
theorem Holds.put {initial : Nat → α} {log : List (Put α)} {size : Nat} {cell cell' : Nat → α}
    (h : Holds initial log size cell) (p : Put α)
    (hcell : ∀ o < size, cell' o = if p.Covers o then p.value (o - p.offset) else cell o) :
    Holds initial (p :: log) size cell' := by
  intro o ho
  rw [hcell o ho, lastStored]
  by_cases hcov : p.Covers o
  · rw [if_pos hcov, if_pos hcov]
  · rw [if_neg hcov, if_neg hcov, h o ho]

theorem Holds.congr {initial : Nat → α} {log : List (Put α)} {size : Nat} {cell cell' : Nat → α}
    (h : Holds initial log size cell) (hcell : ∀ o < size, cell' o = cell o) :
    Holds initial log size cell' := by
  intro o ho
  rw [hcell o ho, h o ho]

end StoreLog
