/-
  MsmnilePkg.Lib.Handles

  Logs of buffers that are handed out, used and given back.

  A handle is the number of a buffer, in the order they are handed out.  A log
  to which only blocks are added that give back what they hand out gives back
  every buffer exactly once, and uses none after that.
-/

import Mathlib.Data.List.Basic

namespace Handles

variable {β : Type*}

inductive Event (β : Type*) where
  | acquire (id : Nat)
  | use (id : Nat)
  | release (id : Nat)
  | other (e : β)

/-- The buffer that the event is about. -/
def Event.id? : Event β → Option Nat
  | .acquire id => some id
  | .use id => some id
  | .release id => some id
  | .other _ => none

/-- The buffer is given back exactly once, and neither handed out nor used after that. -/
def ReleasedOnce (log : List (Event β)) (id : Nat) : Prop :=
  ∃ before after, log = before ++ .release id :: after ∧ .release id ∉ before ∧
    ∀ e ∈ after, e.id? ≠ some id

/-- What is handed out is given back. -/
def Balanced (log : List (Event β)) : Prop :=
  ∀ id, .acquire id ∈ log → ReleasedOnce log id

/-- The buffers of the log have numbers from `lo` up to `hi`. -/
def Within (lo hi : Nat) (log : List (Event β)) : Prop :=
  ∀ e ∈ log, ∀ id, e.id? = some id → lo ≤ id ∧ id < hi

variable {log log' : List (Event β)} {lo mid hi : Nat}

theorem balanced_nil : Balanced ([] : List (Event β)) := by
  intro id h
  cases h

theorem within_nil : Within lo hi ([] : List (Event β)) := by
  intro e he
  cases he

theorem Within.mono {lo' hi' : Nat} (h : Within lo hi log) (hlo : lo' ≤ lo) (hhi : hi ≤ hi') :
    Within lo' hi' log := by
  intro e he id hid
  have := h e he id hid
  omega

theorem Within.append (h : Within lo hi log) (h' : Within lo hi log') :
    Within lo hi (log ++ log') := by
  intro e he
  rcases List.mem_append.mp he with he | he
  · exact h e he
  · exact h' e he

/-- Two balanced logs about different buffers, one behind the other. -/
theorem Balanced.append (h : Balanced log) (hw : Within lo mid log) (h' : Balanced log')
    (hw' : Within mid hi log') : Balanced (log ++ log') := by
  intro id hid
  rcases List.mem_append.mp hid with hid | hid
  · -- The second log is not about this buffer.
    have hlt := (hw _ hid id rfl).2
    obtain ⟨before, after, rfl, hbefore, hafter⟩ := h id hid
    refine ⟨before, after ++ log', by simp, hbefore, ?_⟩
    intro e he heq
    rcases List.mem_append.mp he with he | he
    · exact hafter e he heq
    · have := (hw' e he id heq).1
      omega
  · -- The first log is not about this buffer.
    have hge := (hw' _ hid id rfl).1
    obtain ⟨before, after, rfl, hbefore, hafter⟩ := h' id hid
    refine ⟨log ++ before, after, by simp, ?_, hafter⟩
    intro he
    rcases List.mem_append.mp he with he | he
    · have := (hw _ he id rfl).2
      omega
    · exact hbefore he

/-- A buffer that is handed out, used some times and given back. -/
theorem balanced_block (id n : Nat) :
    Balanced ((.acquire id :: List.replicate n (.use id)) ++ [(.release id : Event β)]) := by
  intro id' hid
  obtain rfl : id' = id := by
    simpa [List.mem_replicate] using hid
  refine ⟨.acquire id' :: List.replicate n (.use id'), [], rfl, ?_, by simp⟩
  simp [List.mem_replicate]

theorem within_block (id n : Nat) :
    Within id (id + 1)
      ((.acquire id :: List.replicate n (.use id)) ++ [(.release id : Event β)]) := by
  intro e he id' hid
  obtain rfl : id' = id := by
    simp only [List.mem_append, List.mem_cons, List.mem_replicate, List.not_mem_nil,
      or_false] at he
    rcases he with (rfl | ⟨-, rfl⟩) | rfl
    · exact (Option.some.inj hid).symm
    · exact (Option.some.inj hid).symm
    · exact (Option.some.inj hid).symm
  omega

/-- An event about no buffer. -/
theorem balanced_other (e : β) : Balanced [(.other e : Event β)] := by
  intro id hid
  simp at hid

theorem within_other (e : β) : Within lo hi [(.other e : Event β)] := by
  intro e' he id hid
  obtain rfl := List.mem_singleton.mp he
  cases hid

theorem Balanced.append_other (h : Balanced log) (hw : Within lo hi log) (e : β) :
    Balanced (log ++ [.other e]) :=
  h.append hw (balanced_other e) (within_other e : Within hi hi _)

end Handles
