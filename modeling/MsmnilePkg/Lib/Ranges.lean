/-
  MsmnilePkg.Lib.Ranges

  Address ranges: what a list of them covers, and lists whose ranges have no
  address in common.

  A range that is cut into chunks of one size and a rest is covered by them
  exactly, and the chunks are disjoint.
-/

import Mathlib.Algebra.GroupWithZero.Nat
import Mathlib.Data.List.Basic

namespace Ranges

structure Range where
  base : Nat
  length : Nat
  deriving DecidableEq, Repr

def Range.Covers (r : Range) (a : Nat) : Prop := r.base ≤ a ∧ a < r.base + r.length

instance (r : Range) (a : Nat) : Decidable (r.Covers a) := inferInstanceAs (Decidable (_ ∧ _))

/-- One of the ranges covers the address. -/
def Covered (l : List Range) (a : Nat) : Prop := ∃ r ∈ l, r.Covers a

/-- No address lies in both ranges. -/
def Apart (r r' : Range) : Prop := ∀ a, r.Covers a → ¬ r'.Covers a

theorem Apart.symm {r r' : Range} (h : Apart r r') : Apart r' r :=
  fun a ha ha' => h a ha' ha

theorem apart_of_le {r r' : Range} (h : r.base + r.length ≤ r'.base) : Apart r r' := by
  rintro a ⟨_, hlt⟩ ⟨hle, _⟩
  omega

theorem covered_nil (a : Nat) : ¬ Covered [] a := by
  rintro ⟨r, hr, _⟩
  cases hr

theorem covered_cons {r : Range} {l : List Range} {a : Nat} :
    Covered (r :: l) a ↔ r.Covers a ∨ Covered l a := by
  unfold Covered
  constructor
  · rintro ⟨r', hr', hcov⟩
    rcases List.mem_cons.mp hr' with rfl | hmem
    · exact Or.inl hcov
    · exact Or.inr ⟨r', hmem, hcov⟩
  · rintro (hcov | ⟨r', hmem, hcov⟩)
    · exact ⟨r, List.mem_cons_self .., hcov⟩
    · exact ⟨r', List.mem_cons_of_mem _ hmem, hcov⟩

theorem covered_append {l l' : List Range} {a : Nat} :
    Covered (l ++ l') a ↔ Covered l a ∨ Covered l' a := by
  induction l with
  | nil =>
      rw [List.nil_append]
      exact ⟨Or.inr, fun h => h.resolve_left (covered_nil a)⟩
  | cons r l ih => rw [List.cons_append, covered_cons, covered_cons, ih, or_assoc]

theorem covered_flatMap {l : List Range} {f : Range → List Range} {a : Nat} :
    Covered (l.flatMap f) a ↔ ∃ r ∈ l, Covered (f r) a := by
  unfold Covered
  constructor
  · rintro ⟨r', hr', hcov⟩
    obtain ⟨r, hr, hmem⟩ := List.mem_flatMap.mp hr'
    exact ⟨r, hr, r', hmem, hcov⟩
  · rintro ⟨r, hr, r', hmem, hcov⟩
    exact ⟨r', List.mem_flatMap.mpr ⟨r, hr, hmem⟩, hcov⟩

/-- In a list of disjoint ranges an address has one range only. -/
theorem eq_of_covers {l : List Range} (h : l.Pairwise Apart) {r r' : Range} (hr : r ∈ l)
    (hr' : r' ∈ l) {a : Nat} (ha : r.Covers a) (ha' : r'.Covers a) : r = r' := by
  induction l with
  | nil => cases hr
  | cons x l ih =>
      obtain ⟨hx, hl⟩ := List.pairwise_cons.mp h
      rcases List.mem_cons.mp hr with rfl | hmem
      · rcases List.mem_cons.mp hr' with rfl | hmem'
        · rfl
        · exact absurd ha' (hx r' hmem' a ha)
      · rcases List.mem_cons.mp hr' with rfl | hmem'
        · exact absurd ha (hx r hmem a ha')
        · exact ih hl hmem hmem'

/-- Cutting each of a list of disjoint ranges gives disjoint ranges. -/
theorem pairwise_flatMap {l : List Range} (h : l.Pairwise Apart) {f : Range → List Range}
    (hf : ∀ r ∈ l, (f r).Pairwise Apart) (hin : ∀ r ∈ l, ∀ a, Covered (f r) a → r.Covers a) :
    (l.flatMap f).Pairwise Apart := by
  induction l with
  | nil => exact List.Pairwise.nil
  | cons r l ih =>
      obtain ⟨hr, hl⟩ := List.pairwise_cons.mp h
      rw [List.flatMap_cons, List.pairwise_append]
      refine ⟨hf r (List.mem_cons_self ..), ih hl (fun r' hr' => hf r' (List.mem_cons_of_mem _ hr'))
        (fun r' hr' => hin r' (List.mem_cons_of_mem _ hr')), ?_⟩
      intro x hx y hy a hxa hya
      obtain ⟨r', hr', hmem⟩ := List.mem_flatMap.mp hy
      exact hr r' hr' a (hin r (List.mem_cons_self ..) a ⟨x, hx, hxa⟩)
        (hin r' (List.mem_cons_of_mem _ hr') a ⟨y, hmem, hya⟩)

/-! ## Consecutive ranges -/

/-- The first range begins at `base`, and each of the others where the one before it ends. -/
def Consecutive : Nat → List Range → Prop
  | _, [] => True
  | base, r :: l => r.base = base ∧ Consecutive (base + r.length) l

/-- The addresses of all the ranges together, when they are disjoint. -/
def total (l : List Range) : Nat := (l.map Range.length).sum

@[simp] theorem total_nil : total [] = 0 := rfl

@[simp] theorem total_cons (r : Range) (l : List Range) : total (r :: l) = r.length + total l := by
  simp [total]

theorem total_append (l l' : List Range) : total (l ++ l') = total l + total l' := by
  simp [total]

theorem consecutive_append {l l' : List Range} : ∀ {base : Nat},
    Consecutive base (l ++ l') ↔ Consecutive base l ∧ Consecutive (base + total l) l' := by
  induction l with
  | nil => simp [Consecutive]
  | cons r l ih =>
      intro base
      simp only [List.cons_append, Consecutive, total_cons, ih, and_assoc, Nat.add_assoc]

/-- Consecutive ranges cover what lies between the first address and the last. -/
theorem covered_of_consecutive {l : List Range} : ∀ {base : Nat}, Consecutive base l →
    ∀ a, Covered l a ↔ base ≤ a ∧ a < base + total l := by
  induction l with
  | nil =>
      intro base _ a
      simp only [covered_nil, total_nil, false_iff]
      omega
  | cons r l ih =>
      rintro base ⟨rfl, hl⟩ a
      rw [covered_cons, ih hl, total_cons]
      simp only [Range.Covers]
      omega

theorem pairwise_of_consecutive {l : List Range} : ∀ {base : Nat}, Consecutive base l →
    l.Pairwise Apart := by
  induction l with
  | nil => simp
  | cons r l ih =>
      rintro base ⟨rfl, hl⟩
      rw [List.pairwise_cons]
      refine ⟨fun r' hr' a ha ha' => ?_, ih hl⟩
      have hbehind := (covered_of_consecutive hl a).mp ⟨r', hr', ha'⟩
      simp only [Range.Covers] at ha
      omega

/-! ## Chunks -/

/-- `n` ranges of length `size`, one behind the other. -/
def chunks (size : Nat) : Nat → Nat → List Range
  | 0, _ => []
  | n + 1, base => ⟨base, size⟩ :: chunks size n (base + size)

theorem consecutive_chunks (size : Nat) : ∀ n base : Nat,
    Consecutive base (chunks size n base) := by
  intro n
  induction n with
  | zero => simp [chunks, Consecutive]
  | succ n ih => intro base; exact ⟨rfl, ih (base + size)⟩

theorem total_chunks (size : Nat) : ∀ n base : Nat, total (chunks size n base) = n * size := by
  intro n
  induction n with
  | zero => simp [chunks]
  | succ n ih => intro base; rw [chunks, total_cons, ih, Nat.succ_mul, Nat.add_comm]

theorem length_of_mem_chunks {size n : Nat} {r : Range} : ∀ {base : Nat},
    r ∈ chunks size n base → r.length = size := by
  induction n with
  | zero => simp [chunks]
  | succ n ih =>
      intro base hr
      rcases List.mem_cons.mp hr with rfl | hr
      · rfl
      · exact ih hr

theorem covered_chunks (size n base a : Nat) :
    Covered (chunks size n base) a ↔ base ≤ a ∧ a < base + n * size := by
  rw [covered_of_consecutive (consecutive_chunks size n base), total_chunks]

theorem pairwise_chunks (size n base : Nat) : (chunks size n base).Pairwise Apart :=
  pairwise_of_consecutive (consecutive_chunks size n base)

end Ranges
