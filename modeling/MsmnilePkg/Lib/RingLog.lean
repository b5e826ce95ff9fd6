/-
  MsmnilePkg.Lib.RingLog

  A log that overwrites its oldest entries.

  The log has `size` cells and a position.  An entry goes to the cell at the
  position modulo `size`, and the position moves on by one.  The position a
  log begins with may be anything: it is reduced when it is first used.
-/

import Mathlib.Data.List.Induction
import Mathlib.Data.Nat.ModEq

namespace RingLog

variable {α : Type*}

structure Log (α : Type*) where
  position : Nat
  cell : Nat → α

/-- Store one entry. -/
def Log.push (size : Nat) (r : Log α) (x : α) : Log α where
  position := (r.position % size + 1) % size
  cell := fun j => if j = r.position % size then x else r.cell j

/-- Store the entries of a stream, the first one first. -/
def Log.pushAll (size : Nat) (r : Log α) (stream : List α) : Log α :=
  stream.foldl (Log.push size) r

/-- Entry `i` of a stream of `n` has not been overwritten by a later one. -/
def Kept (size n i : Nat) : Prop := i < n ∧ n ≤ i + size

section Push

variable {size : Nat} {r : Log α}

theorem Log.pushAll_append (xs : List α) (x : α) :
    r.pushAll size (xs ++ [x]) = (r.pushAll size xs).push size x := by
  rw [Log.pushAll, List.foldl_append]
  rfl

theorem Log.pushAll_position_mod (xs : List α) :
    (r.pushAll size xs).position % size = (r.position + xs.length) % size := by
  induction xs using List.reverseRecOn with
  | nil => rfl
  | append_singleton xs x ih =>
      have hnext : ((r.pushAll size (xs ++ [x])).position) % size
          = ((r.pushAll size xs).position % size + 1) % size := by
        rw [Log.pushAll_append, Log.push, Nat.mod_mod]
      rw [hnext, ih, Nat.mod_add_mod, List.length_append, List.length_singleton, Nat.add_assoc]

/-- The position after a stream that is not empty. -/
theorem Log.pushAll_position {xs : List α} (hxs : 0 < xs.length) :
    (r.pushAll size xs).position = (r.position + xs.length) % size := by
  induction xs using List.reverseRecOn with
  | nil => exact absurd hxs (Nat.lt_irrefl 0)
  | append_singleton xs x _ =>
      rw [Log.pushAll_append, Log.push]
      show ((r.pushAll size xs).position % size + 1) % size = _
      rw [Log.pushAll_position_mod xs, Nat.mod_add_mod, List.length_append, List.length_singleton,
        Nat.add_assoc]

/-- Two entries go to one cell only when a whole number of turns lies between them. -/
theorem cells_ne {o i j : Nat} (hij : i < j) (hnear : j < i + size) :
    (o + i) % size ≠ (o + j) % size := by
  intro heq
  have hmod : (o + i) ≡ (o + j) [MOD size] := heq
  have hdvd := (Nat.modEq_iff_dvd' (by omega)).mp hmod
  have hle := Nat.le_of_dvd (by omega) hdvd
  omega

/-- The entries that are kept are found at their cells. -/
theorem Log.pushAll_kept (xs : List α) : ∀ i (hi : i < xs.length), xs.length ≤ i + size →
    (r.pushAll size xs).cell ((r.position + i) % size) = xs[i] := by
  induction xs using List.reverseRecOn with
  | nil => intro i hi; exact absurd hi (Nat.not_lt_zero i)
  | append_singleton xs x ih =>
      intro i hi hkept
      rw [List.length_append, List.length_singleton] at hi hkept
      have hcell : (r.pushAll size (xs ++ [x])).cell ((r.position + i) % size)
          = if (r.position + i) % size = (r.position + xs.length) % size then x
            else (r.pushAll size xs).cell ((r.position + i) % size) := by
        rw [Log.pushAll_append, Log.push, Log.pushAll_position_mod]
      rw [hcell]
      by_cases hlast : i = xs.length
      · subst hlast
        rw [if_pos rfl]
        simp
      · have hlt : i < xs.length := by omega
        rw [if_neg (cells_ne hlt (by omega)), ih i hlt (by omega), List.getElem_append_left hlt]

/-- A cell of no entry that is kept is as it was. -/
theorem Log.pushAll_other (hsize : 0 < size) (xs : List α) {j : Nat}
    (h : ∀ i, Kept size xs.length i → (r.position + i) % size ≠ j) :
    (r.pushAll size xs).cell j = r.cell j := by
  induction xs using List.reverseRecOn with
  | nil => rfl
  | append_singleton xs x ih =>
      rw [List.length_append, List.length_singleton] at h
      have hlast : (r.position + xs.length) % size ≠ j := h xs.length ⟨by omega, by omega⟩
      have hcell : (r.pushAll size (xs ++ [x])).cell j = (r.pushAll size xs).cell j := by
        rw [Log.pushAll_append, Log.push]
        show (if j = (r.pushAll size xs).position % size then x else _) = _
        rw [Log.pushAll_position_mod, if_neg (Ne.symm hlast)]
      rw [hcell]
      refine ih fun i hi => ?_
      obtain ⟨hlt, hkept⟩ := hi
      by_cases hoverwritten : xs.length = i + size
      · -- The last entry goes to the cell of the entry one turn before it.
        rwa [hoverwritten, ← Nat.add_assoc, Nat.add_mod_right] at hlast
      · exact h i ⟨by omega, by omega⟩

end Push

end RingLog
