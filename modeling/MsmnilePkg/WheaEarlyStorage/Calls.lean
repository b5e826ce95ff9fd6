/-
  MsmnilePkg.WheaEarlyStorage.Calls

  Sequences of reads, writes and clears from boot on.

  As one byte array the store answers with what was stored last.  Two things
  stand in the way: a write or a clear before the first read goes to address
  zero, and a region longer than the capacity can pass the 8-bit check and
  wrap around.
-/

import MsmnilePkg.Lib.StoreLog
import MsmnilePkg.WheaEarlyStorage.Storage

namespace WheaEarlyStorage

open ByteMem LittleEndian StoreLog Efi

inductive Call where
  | read (ptr : Option Buffer) (size offset : BitVec 8)
  | write (ptr : Option Buffer) (size offset : BitVec 8)
  | clear (size offset : BitVec 8)

def Call.exec (p : Platform) : Call → State → Status × State
  | .read ptr size offset, s =>
      ((msWheaEarlyStorageRead p ptr size offset s).1,
        (msWheaEarlyStorageRead p ptr size offset s).2.2)
  | .write ptr size offset, s => msWheaEarlyStorageWrite p ptr size offset s
  | .clear size offset, s => msWheaEarlyStorageClear p size offset s

/-- What an accepted call stores. -/
def Call.stores (p : Platform) : Call → List (Put Byte)
  | .read _ _ _ => []
  | .write ptr size offset =>
      (ptr.map fun buf => ⟨offset.toNat, size.toNat, buf⟩).toList
  | .clear size offset => [⟨offset.toNat, size.toNat, fun _ => p.defaultValue⟩]

/-- The log after a call. -/
def Call.record (p : Platform) (c : Call) (status : Status) (log : List (Put Byte)) :
    List (Put Byte) :=
  if status = .success then c.stores p ++ log else log

/-- The states after a sequence of calls from boot on that meet `ok`, with the log of what
    was stored. -/
inductive Run (p : Platform) (mem : Mem) (ok : State → Call → Prop) :
    State → List (Put Byte) → Prop where
  | boot : Run p mem ok ⟨0#64, mem⟩ []
  | call {s : State} {log : List (Put Byte)} (hrun : Run p mem ok s log) (c : Call)
      (hok : ok s c) : Run p mem ok (c.exec p s).2 (c.record p (c.exec p s).1 log)

/-- An accepted read of the region answers with what was stored last in each cell. -/
def ReadsLastStored (p : Platform) (area : Addr) (mem : Mem) (s : State) (log : List (Put Byte))
    (ptr : Option Buffer) (size offset : BitVec 8) : Prop :=
  ∀ buf s', msWheaEarlyStorageRead p ptr size offset s = (.success, some buf, s') →
    ∀ i < size.toNat, buf i = lastStored (cell area mem) log (offset.toNat + i)

/-- The region does not reach behind the last cell that an 8-bit index can name. -/
def InCells (size offset : BitVec 8) : Prop := offset.toNat + size.toNat ≤ cellCount

instance (size offset : BitVec 8) : Decidable (InCells size offset) :=
  inferInstanceAs (Decidable (_ ≤ _))

/-- A call that the checks let pass stays inside the cells, and a write or a clear comes
    when the area has been looked up. -/
def Located (p : Platform) (s : State) : Call → Prop
  | .read _ size offset => Accepts p size offset → InCells size offset
  | .write ptr size offset =>
      ptr ≠ none → Accepts p size offset → InCells size offset ∧ s.logBuffer ≠ 0#64
  | .clear size offset => Accepts p size offset → InCells size offset ∧ s.logBuffer ≠ 0#64

/-! ## One call -/

/-- The store is a byte array with the history `log`. -/
structure Stored (area : Addr) (mem : Mem) (s : State) (log : List (Put Byte)) : Prop where
  located : s.logBuffer = 0#64 ∨ s.logBuffer = area
  holds : Holds (cell area mem) log cellCount (cell area s.mem)

theorem Stored.locate {p : Platform} {area : Addr} (harea : p.logBufferArea = some area)
    {mem : Mem} {s : State} {log : List (Put Byte)} (h : Stored area mem s log) :
    Stored area mem (s.locateLogBuffer p) log where
  located := Or.inr (locateLogBuffer_area harea h.located)
  holds := by
    rw [locateLogBuffer_mem]
    exact h.holds

section Step

variable {p : Platform} {area : Addr} {mem : Mem} {s : State} {log : List (Put Byte)}

/-- A write loop over accepted cells is recorded as one put. -/
theorem Stored.writeLoop (hcap : CapacityOk p) (h : Stored area mem s log)
    {size offset : BitVec 8} (hacc : Accepts p size offset) (hin : InCells size offset)
    (hne : s.logBuffer ≠ 0#64) (byte : Buffer) :
    Stored area mem
      { s with mem := WheaEarlyStorage.writeLoop s (earlyStorageOffset + offset) byte size.toNat }
      (⟨offset.toNat, size.toNat, byte⟩ :: log) := by
  have hloc : s.logBuffer = area := h.located.resolve_left hne
  refine ⟨h.located, h.holds.put _ fun o ho => ?_⟩
  have hcell := writeLoop_cell s (hacc.rawOffset hcap) byte ho hin
  rw [hloc] at hcell
  exact hcell

theorem Stored.read (harea : p.logBufferArea = some area) (h : Stored area mem s log)
    (ptr : Option Buffer) (size offset : BitVec 8) :
    Stored area mem (msWheaEarlyStorageRead p ptr size offset s).2.2 log := by
  by_cases hacc : Accepts p size offset
  · cases ptr with
    | none =>
        rw [msWheaEarlyStorageRead, if_neg hacc.below]
        exact h
    | some buf =>
        by_cases hne : (s.locateLogBuffer p).logBuffer = 0#64
        · -- the area is not found
          rw [msWheaEarlyStorageRead, if_neg hacc.below]
          simp only [msWheaCMOSRawRead]
          rw [if_neg (not_or.mpr ⟨hacc.nonempty, hacc.fits⟩), if_pos hne]
          exact h.locate harea
        · rw [read_of_accepts hacc buf hne]
          exact h.locate harea
  · rw [read_of_not_accepts hacc]
    exact h

/-- A call that meets the condition keeps the store a byte array. -/
theorem Stored.exec (hcap : CapacityOk p) (harea : p.logBufferArea = some area)
    (h : Stored area mem s log) (c : Call) (hok : Located p s c) :
    Stored area mem (c.exec p s).2 (c.record p (c.exec p s).1 log) := by
  cases c with
  | read ptr size offset =>
      have hlog : ∀ status, (Call.read ptr size offset).record p status log = log := by
        intro status
        rw [Call.record, Call.stores, List.nil_append, ite_self]
      rw [hlog]
      exact h.read harea ptr size offset
  | write ptr size offset =>
      by_cases hacc : Accepts p size offset
      · -- `Ptr` is tested behind the offset, before the size
        cases ptr with
        | none =>
            rw [Call.exec, msWheaEarlyStorageWrite, if_neg hacc.below]
            exact h
        | some buf =>
            obtain ⟨hin, hne⟩ := hok (by simp) hacc
            rw [Call.exec, write_of_accepts hacc]
            exact h.writeLoop hcap hacc hin hne buf
      · rw [Call.exec, write_of_not_accepts hacc]
        exact h
  | clear size offset =>
      by_cases hacc : Accepts p size offset
      · obtain ⟨hin, hne⟩ := hok hacc
        rw [Call.exec, clear_of_accepts hacc]
        exact h.writeLoop hcap hacc hin hne _
      · rw [Call.exec, clear_of_not_accepts hacc]
        exact h

/-! ## Runs -/

theorem Stored.of_run (hcap : CapacityOk p) (harea : p.logBufferArea = some area)
    (hrun : Run p mem (Located p) s log) : Stored area mem s log := by
  induction hrun with
  | boot => exact ⟨Or.inl rfl, Holds.initial⟩
  | call _ c hok ih => exact ih.exec hcap harea c hok

/-- In a run whose calls meet the condition, every accepted read that meets it too answers
    with what was stored last. -/
theorem run_reads_last_stored (hcap : CapacityOk p) (harea : p.logBufferArea = some area)
    (hne : area ≠ 0#64) (hrun : Run p mem (Located p) s log) (ptr : Option Buffer)
    (size offset : BitVec 8) (hok : Located p s (.read ptr size offset)) :
    ReadsLastStored p area mem s log ptr size offset := by
  intro buf s' hread i hi
  have hstored := Stored.of_run hcap harea hrun
  have hloc := locateLogBuffer_area harea hstored.located
  by_cases hacc : Accepts p size offset
  · cases ptr with
    | none =>
        -- a null pointer gets no success
        rw [msWheaEarlyStorageRead, if_neg hacc.below] at hread
        exact Status.noConfusion (congrArg Prod.fst hread)
    | some old =>
        have hin := hok hacc
        rw [read_of_accepts hacc old (hloc ▸ hne)] at hread
        have hbuf : readLoop (s.locateLogBuffer p) (earlyStorageOffset + offset) old size.toNat
            = buf := Option.some.inj (congrArg (fun r => r.2.1) hread)
        rw [← hbuf, readLoop_cell _ (hacc.rawOffset hcap) old hin hi, hloc, locateLogBuffer_mem]
        unfold InCells at hin
        exact hstored.holds _ (by omega)
  · rw [read_of_not_accepts hacc] at hread
    exact Status.noConfusion (congrArg Prod.fst hread)

end Step

/-! ## A small platform -/

def samplePlatform : Platform where
  capacity := 0x80#32
  defaultValue := 0xFF#8
  logBufferArea := some 0x9FFF7000#64

/-- The state after the first read and a write. -/
def sampleState : State :=
  ((Call.write (some fun _ => 0x5A#8) 1#8 0#8).exec samplePlatform
    ((Call.read (some fun _ => 0#8) 1#8 0#8).exec samplePlatform ⟨0#64, fun _ => 0#8⟩).2).2

theorem run_reads_last_stored_sample :
    ReadsLastStored samplePlatform 0x9FFF7000#64 (fun _ => 0#8) sampleState
      [⟨0, 1, fun _ => 0x5A#8⟩] (some fun _ => 0#8) 1#8 0#8 :=
  run_reads_last_stored ⟨by decide, by decide⟩ rfl (by decide)
    ((Run.boot.call (.read (some fun _ => 0#8) 1#8 0#8) fun _ => by decide).call
      (.write (some fun _ => 0x5A#8) 1#8 0#8) fun _ _ => ⟨by decide, by decide⟩)
    (some fun _ => 0#8) 1#8 0#8 fun _ => by decide

/-- A write that is the first call after boot is accepted and then not read back. -/
theorem write_before_read_is_lost :
    ¬ ∀ (p : Platform) (area : Addr) (mem : Mem) (s : State) (log : List (Put Byte))
      (ptr : Option Buffer) (size offset : BitVec 8), CapacityOk p →
      p.logBufferArea = some area → area ≠ 0#64 → Run p mem (fun _ _ => True) s log →
      ReadsLastStored p area mem s log ptr size offset := by
  intro h
  have hread := h samplePlatform 0x9FFF7000#64 (fun _ => 0#8) _ _ (some fun _ => 0#8) 1#8 0#8
    ⟨by decide, by decide⟩ rfl (by decide)
    (Run.boot.call (.write (some fun _ => 0x5A#8) 1#8 0#8) trivial)
  have hacc : Accepts samplePlatform 1#8 0#8 := accepts_of_le ⟨by decide, by decide⟩ (by decide)
    (by decide)
  have hlast := hread _ _ (read_of_accepts hacc _ (by decide)) 0 (by decide)
  revert hlast
  decide

end WheaEarlyStorage
