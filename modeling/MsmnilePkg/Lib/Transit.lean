/-
  MsmnilePkg.Lib.Transit

  Items on their way through a place where they wait.

  What has arrived is what has left, followed by what waits.  The place hands
  out one item for each item that leaves, but not always that item: it is in
  order as long as what it has handed out begins what has arrived.
-/

import Mathlib.Data.List.Infix

namespace Transit

variable {α : Type*}

/-- As many items have been handed out as have left, and the others wait. -/
def InTransit (arrived waiting handed : List α) : Prop :=
  ∃ left : List α, left.length = handed.length ∧ arrived = left ++ waiting

/-- What has been handed out begins what has arrived. -/
def InOrder (arrived handed : List α) : Prop := handed <+: arrived

theorem InTransit.empty : InTransit ([] : List α) [] [] := ⟨[], rfl, rfl⟩

section Laws

variable {arrived waiting handed : List α}

theorem inOrder_iff_of_length {left rest : List α} (hlen : left.length = handed.length) :
    InOrder (left ++ rest) handed ↔ handed = left := by
  rw [InOrder, List.prefix_iff_eq_take, ← hlen, List.take_left]

/-- Items arrive behind those that wait. -/
theorem InTransit.arrive (h : InTransit arrived waiting handed) (items : List α) :
    InTransit (arrived ++ items) (waiting ++ items) handed := by
  obtain ⟨left, hlen, rfl⟩ := h
  exact ⟨left, hlen, List.append_assoc left waiting items⟩

theorem InTransit.inOrder_arrive (h : InTransit arrived waiting handed) (items : List α) :
    InOrder (arrived ++ items) handed ↔ InOrder arrived handed := by
  obtain ⟨left, hlen, rfl⟩ := h
  rw [List.append_assoc, inOrder_iff_of_length hlen, inOrder_iff_of_length hlen]

variable {items out : List α}

/-- The first of those that wait leave, and as many items are handed out. -/
theorem InTransit.leave (h : InTransit arrived (items ++ waiting) handed)
    (hout : out.length = items.length) : InTransit arrived waiting (handed ++ out) := by
  obtain ⟨left, hlen, rfl⟩ := h
  refine ⟨left ++ items, ?_, (List.append_assoc left items waiting).symm⟩
  rw [List.length_append, List.length_append, hlen, hout]

/-- The order is kept exactly when the items that leave are the ones handed out. -/
theorem InTransit.inOrder_leave (h : InTransit arrived (items ++ waiting) handed)
    (hout : out.length = items.length) :
    InOrder arrived (handed ++ out) ↔ InOrder arrived handed ∧ out = items := by
  obtain ⟨left, hlen, rfl⟩ := h
  have hlong : (left ++ items).length = (handed ++ out).length := by
    rw [List.length_append, List.length_append, hlen, hout]
  have hwhole : InOrder (left ++ (items ++ waiting)) (handed ++ out)
      ↔ handed ++ out = left ++ items := by
    rw [← List.append_assoc, inOrder_iff_of_length hlong]
  rw [hwhole, inOrder_iff_of_length hlen]
  constructor
  · intro heq
    exact List.append_inj heq hlen.symm
  · rintro ⟨rfl, rfl⟩
    rfl

end Laws

end Transit
