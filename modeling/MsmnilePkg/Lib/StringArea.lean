/-
  MsmnilePkg.Lib.StringArea

  Strings one behind the other, each ended by a separator, the last one by two.

  The area is read back up to the first double separator.  An empty string
  among the others makes a double separator of its own, so what comes behind
  it is lost.
-/

import Mathlib.Data.List.TakeWhile

namespace StringArea

variable {α : Type*} {z : α}

/-! ## Writing -/

/-- Each string with its separator. -/
def packed (z : α) (strings : List (List α)) : List α := strings.flatMap fun s => s ++ [z]

@[simp] theorem packed_nil : packed z [] = [] := rfl

@[simp] theorem packed_cons (s : List α) (ss : List (List α)) :
    packed z (s :: ss) = s ++ z :: packed z ss := by
  simp [packed]

variable [DecidableEq α]

/-- The whole area.  Without a string it still ends with a double separator. -/
def area (z : α) (strings : List (List α)) : List α :=
  if strings = [] then [z, z] else packed z strings ++ [z]

/-! ## Reading -/

/-- What stands before the first double separator. -/
def untilDouble (z : α) : List α → Option (List α)
  | [] => none
  | [_] => none
  | a :: b :: l => if a = z ∧ b = z then some [] else (untilDouble z (b :: l)).map (a :: ·)

/-- The strings of an area: what stands before the double separator, cut at the separators. -/
def readStrings (z : α) (l : List α) : Option (List (List α)) :=
  (untilDouble z l).map fun body => if body = [] then [] else body.splitOn z

theorem untilDouble_double (l : List α) : untilDouble z (z :: z :: l) = some [] := by
  simp [untilDouble]

/-- A character that is no separator does not end the area. -/
theorem untilDouble_char {a : α} (ha : a ≠ z) (l : List α) (hl : l ≠ []) :
    untilDouble z (a :: l) = (untilDouble z l).map (a :: ·) := by
  cases l with
  | nil => exact absurd rfl hl
  | cons b l => simp [untilDouble, ha]

/-- A string and its separator, before another separator. -/
theorem untilDouble_last {s : List α} (hs : z ∉ s) (l : List α) :
    untilDouble z (s ++ z :: z :: l) = some s := by
  induction s with
  | nil => exact untilDouble_double l
  | cons a s ih =>
      rw [List.mem_cons, not_or] at hs
      rw [List.cons_append, untilDouble_char (Ne.symm hs.1) _ (by simp), ih hs.2]
      rfl

/-- A string and its separator, before a string that is not empty. -/
theorem untilDouble_next {s : List α} (hs : z ∉ s) {c : α} (hc : c ≠ z) (l : List α) :
    untilDouble z (s ++ z :: c :: l)
      = (untilDouble z (c :: l)).map fun body => s ++ z :: body := by
  induction s with
  | nil => simp [untilDouble, hc]
  | cons a s ih =>
      rw [List.mem_cons, not_or] at hs
      rw [List.cons_append, untilDouble_char (Ne.symm hs.1) _ (by simp), ih hs.2, Option.map_map]
      rfl

/-- The strings behind the first one, as far as none is empty. -/
def shown (strings : List (List α)) : List (List α) :=
  strings.takeWhile fun s => !s.isEmpty

/-- An area is read up to the first empty string behind its first one. -/
theorem untilDouble_packed (ss : List (List α)) : ∀ s : List α, (∀ t ∈ s :: ss, z ∉ t) →
    untilDouble z (packed z (s :: ss) ++ [z]) = some ([z].intercalate (s :: shown ss)) := by
  induction ss with
  | nil =>
      intro s h
      have hlast := untilDouble_last (h s (List.mem_cons_self ..)) []
      simpa [shown] using hlast
  | cons t ss ih =>
      intro s h
      rw [List.forall_mem_cons] at h
      cases t with
      | nil =>
          -- The separator of the empty string is the second of a double one.
          have hlast := untilDouble_last h.1 (packed z ss ++ [z])
          simpa [shown] using hlast
      | cons c t =>
          have hc : c ≠ z := by
            rintro rfl
            exact h.2 (c :: t) (List.mem_cons_self ..) (List.mem_cons_self ..)
          have hrest := ih (c :: t) h.2
          rw [packed_cons, List.cons_append, List.cons_append] at hrest
          rw [packed_cons, packed_cons, List.append_assoc, List.cons_append, List.cons_append,
            List.cons_append, untilDouble_next h.1 hc, hrest]
          simp [shown, List.intercalate_cons_cons]

theorem readStrings_nil : readStrings z (area z []) = some [] := by
  simp [readStrings, area, untilDouble]

theorem readStrings_cons {s : List α} {ss : List (List α)} (h : ∀ t ∈ s :: ss, z ∉ t) :
    readStrings z (area z (s :: ss))
      = some (if s = [] ∧ shown ss = [] then [] else s :: shown ss) := by
  have hshown : ∀ t ∈ s :: shown ss, z ∉ t := by
    intro t ht
    apply h t
    rcases List.mem_cons.mp ht with rfl | ht
    · exact List.mem_cons_self ..
    · exact List.mem_cons_of_mem _ ((List.takeWhile_sublist _).subset ht)
  have hsplit : ([z].intercalate (s :: shown ss)).splitOn z = s :: shown ss :=
    List.splitOn_intercalate z hshown (by simp)
  rw [readStrings, area, if_neg (by simp), untilDouble_packed ss s h, Option.map_some, hsplit]
  by_cases hempty : s = [] ∧ shown ss = []
  · simp [hempty]
  · have hne : [z].intercalate (s :: shown ss) ≠ [] := by
      intro hnil
      rw [hnil] at hsplit
      simp only [List.splitOn_nil, List.cons.injEq] at hsplit
      exact hempty ⟨hsplit.1.symm, hsplit.2.symm⟩
    rw [if_neg hne, if_neg hempty]

/-- Only the first string may be empty, and only before another one. -/
def Readable : List (List α) → Prop
  | [] => True
  | s :: ss => (s ≠ [] ∨ ss ≠ []) ∧ ∀ t ∈ ss, t ≠ []

omit [DecidableEq α] in
theorem shown_eq_iff (ss : List (List α)) : shown ss = ss ↔ ∀ t ∈ ss, t ≠ [] := by
  rw [shown, List.takeWhile_eq_self_iff]
  simp

/-- The strings are read back exactly when none among them can be taken for the end. -/
theorem readStrings_area_iff {ss : List (List α)} (h : ∀ t ∈ ss, z ∉ t) :
    readStrings z (area z ss) = some ss ↔ Readable ss := by
  cases ss with
  | nil => simp [readStrings_nil, Readable]
  | cons s ss =>
      rw [readStrings_cons h, Option.some.injEq, Readable, ← shown_eq_iff]
      -- The first string ends the area when nothing is shown of it and of the rest.
      by_cases hempty : s = [] ∧ shown ss = []
      · rw [if_pos hempty]
        simp only [List.nil_eq, reduceCtorEq, false_iff]
        rintro ⟨hsome, hall⟩
        rcases hsome with hs | hss
        · exact hs hempty.1
        · exact hss (hall.symm.trans hempty.2)
      · rw [if_neg hempty, List.cons.injEq]
        constructor
        · rintro ⟨-, hall⟩
          refine ⟨?_, hall⟩
          by_contra hno
          rw [not_or, not_not, not_not] at hno
          exact hempty ⟨hno.1, hall.trans hno.2⟩
        · rintro ⟨-, hall⟩
          exact ⟨rfl, hall⟩

end StringArea
