/-
  MsmnilePkg.WheaEarlyStorage.Storage

  The early storage of MsWheaEarlyStorageLib: read, write and clear over the
  "Log Buffer" area of the memory map.

  The operations index the area in 8 bits.  Only a read looks the area up;
  until then its address is zero.
-/

import MsmnilePkg.Efi
import MsmnilePkg.Lib.LittleEndian

namespace WheaEarlyStorage

open ByteMem LittleEndian Efi

/-- What the build and the platform give to the library. -/
structure Platform where
  /-- `PcdMsWheaReportEarlyStorageCapacity` -/
  capacity : BitVec 32
  /-- `PcdMsWheaEarlyStorageDefaultValue` -/
  defaultValue : Byte
  /-- What `LocateMemoryMapAreaByName ("Log Buffer", ..)` stores in `Address`; `none` when it
      fails and stores nothing. -/
  logBufferArea : Option Addr

/-- `LogBuffer.Address` and the memory. -/
structure State where
  logBuffer : Addr
  mem : Mem

/-- `MS_WHEA_EARLY_STORAGE_OFFSET` -/
def earlyStorageOffset : BitVec 8 := 0x40#8

/-- `(UINT8)(PcdGet32 (PcdMsWheaReportEarlyStorageCapacity) - Size) < Offset` -/
def overLength (p : Platform) (size offset : BitVec 8) : Prop :=
  (p.capacity - size.setWidth 32).setWidth 8 < offset

instance (p : Platform) (size offset : BitVec 8) : Decidable (overLength p size offset) :=
  inferInstanceAs (Decidable (_ < _))

/-- Look the area up unless that has been done. -/
def State.locateLogBuffer (p : Platform) (s : State) : State :=
  if s.logBuffer = 0#64 then { s with logBuffer := p.logBufferArea.getD s.logBuffer } else s

/-- `LogBuffer.Address + mIndex`, with `mIndex = Offset + i` a byte. -/
def State.index (s : State) (offset : BitVec 8) (i : Nat) : Addr :=
  s.logBuffer + (offset + BitVec.ofNat 8 i).setWidth 64

/-- The first turns of the read loop. -/
def readLoop (s : State) (offset : BitVec 8) (buf : Buffer) : Nat → Buffer
  | 0 => buf
  | i + 1 => Function.update (readLoop s offset buf i) i (s.mem (s.index offset i))

/-- The first turns of the write loop, which stores `byte i` in turn `i`. -/
def writeLoop (s : State) (offset : BitVec 8) (byte : Buffer) : Nat → Mem
  | 0 => s.mem
  | i + 1 => write8 (writeLoop s offset byte i) (s.index offset i) (byte i)

/-- `__MsWheaCMOSRawRead`; `none` is the null pointer. -/
def msWheaCMOSRawRead (p : Platform) (ptr : Option Buffer) (size offset : BitVec 8) (s : State) :
    Status × Option Buffer × State :=
  match ptr with
  | none => (.invalidParameter, none, s)
  | some buf =>
      if size = 0#8 ∨ overLength p size offset then (.invalidParameter, some buf, s)
      else if (s.locateLogBuffer p).logBuffer = 0#64 then
        (.invalidParameter, some buf, s.locateLogBuffer p)
      else
        (.success, some (readLoop (s.locateLogBuffer p) offset buf size.toNat),
          s.locateLogBuffer p)

/-- `__MsWheaCMOSRawWrite` -/
def msWheaCMOSRawWrite (p : Platform) (ptr : Option Buffer) (size offset : BitVec 8) (s : State) :
    Status × State :=
  match ptr with
  | none => (.invalidParameter, s)
  | some buf =>
      if size = 0#8 ∨ overLength p size offset then (.invalidParameter, s)
      else (.success, { s with mem := writeLoop s offset buf size.toNat })

/-- `__MsWheaCMOSRawClear` -/
def msWheaCMOSRawClear (p : Platform) (size offset : BitVec 8) (s : State) : Status × State :=
  if size = 0#8 ∨ overLength p size offset then (.invalidParameter, s)
  else (.success, { s with mem := writeLoop s offset (fun _ => p.defaultValue) size.toNat })

def msWheaEarlyStorageGetMaxSize (p : Platform) : BitVec 8 :=
  if p.capacity < 0x40#32 then 0#8
  else ((p.capacity - 0x40#32) &&& 0xFF#32).setWidth 8

def msWheaEarlyStorageRead (p : Platform) (ptr : Option Buffer) (size offset : BitVec 8)
    (s : State) : Status × Option Buffer × State :=
  if msWheaEarlyStorageGetMaxSize p ≤ offset then (.invalidParameter, ptr, s)
  else msWheaCMOSRawRead p ptr size (earlyStorageOffset + offset) s

def msWheaEarlyStorageWrite (p : Platform) (ptr : Option Buffer) (size offset : BitVec 8)
    (s : State) : Status × State :=
  if msWheaEarlyStorageGetMaxSize p ≤ offset then (.invalidParameter, s)
  else msWheaCMOSRawWrite p ptr size (earlyStorageOffset + offset) s

def msWheaEarlyStorageClear (p : Platform) (size offset : BitVec 8) (s : State) : Status × State :=
  if msWheaEarlyStorageGetMaxSize p ≤ offset then (.invalidParameter, s)
  else msWheaCMOSRawClear p size (earlyStorageOffset + offset) s

/-! ## The address of the area -/

theorem locateLogBuffer_mem (p : Platform) (s : State) : (s.locateLogBuffer p).mem = s.mem := by
  rw [State.locateLogBuffer]
  by_cases h : s.logBuffer = 0#64
  · rw [if_pos h]
  · rw [if_neg h]

/-- Once looked up, the address is that of the area. -/
theorem locateLogBuffer_area {p : Platform} {area : Addr} (harea : p.logBufferArea = some area)
    {s : State} (h : s.logBuffer = 0#64 ∨ s.logBuffer = area) :
    (s.locateLogBuffer p).logBuffer = area := by
  rw [State.locateLogBuffer]
  by_cases hz : s.logBuffer = 0#64
  · rw [if_pos hz, harea]
    rfl
  · rw [if_neg hz]
    exact h.resolve_left hz

/-! ## The checks -/

/-- The checks that the three operations share let a region pass. -/
structure Accepts (p : Platform) (size offset : BitVec 8) : Prop where
  below : ¬ msWheaEarlyStorageGetMaxSize p ≤ offset
  nonempty : size ≠ 0#8
  fits : ¬ overLength p size (earlyStorageOffset + offset)

/-- The capacities for which `Capacity - 0x40` and `Offset + 0x40` are bytes. -/
def CapacityOk (p : Platform) : Prop := 0x40 ≤ p.capacity.toNat ∧ p.capacity.toNat ≤ 0x100

theorem getMaxSize_toNat {p : Platform} (hcap : CapacityOk p) :
    (msWheaEarlyStorageGetMaxSize p).toNat = p.capacity.toNat - 0x40 := by
  obtain ⟨hlo, hhi⟩ := hcap
  have hlt : ¬ p.capacity < 0x40#32 := by bv_omega
  have hsub : (p.capacity - 0x40#32).toNat = p.capacity.toNat - 0x40 := by bv_omega
  rw [msWheaEarlyStorageGetMaxSize, if_neg hlt, BitVec.toNat_setWidth, BitVec.toNat_and, hsub,
    Nat.mod_eq_of_lt (Nat.lt_of_le_of_lt Nat.and_le_right (by decide))]
  exact Nat.and_two_pow_sub_one_of_lt_two_pow (n := 8) (by omega)

/-- An accepted offset is inside the store. -/
theorem Accepts.offset_lt {p : Platform} (hcap : CapacityOk p) {size offset : BitVec 8}
    (h : Accepts p size offset) : 0x40 + offset.toNat < p.capacity.toNat := by
  have hbelow := h.below
  rw [BitVec.le_def, getMaxSize_toNat hcap] at hbelow
  have := hcap.1
  omega

theorem Accepts.rawOffset {p : Platform} (hcap : CapacityOk p) {size offset : BitVec 8}
    (h : Accepts p size offset) :
    (earlyStorageOffset + offset).toNat = 0x40 + offset.toNat := by
  have hlt := h.offset_lt hcap
  have := hcap.2
  unfold earlyStorageOffset
  bv_omega

/-- A region inside the capacity is accepted. -/
theorem accepts_of_le {p : Platform} (hcap : CapacityOk p) {size offset : BitVec 8}
    (hpos : 0 < size.toNat) (hle : 0x40 + offset.toNat + size.toNat ≤ p.capacity.toNat) :
    Accepts p size offset := by
  have hhi := hcap.2
  refine ⟨?_, ?_, ?_⟩
  · rw [BitVec.le_def, getMaxSize_toNat hcap]
    omega
  · rintro rfl
    exact absurd hpos (by decide)
  · unfold overLength earlyStorageOffset
    bv_omega

theorem read_of_accepts {p : Platform} {size offset : BitVec 8} (h : Accepts p size offset)
    (buf : Buffer) {s : State} (hne : (s.locateLogBuffer p).logBuffer ≠ 0#64) :
    msWheaEarlyStorageRead p (some buf) size offset s = (.success,
      some (readLoop (s.locateLogBuffer p) (earlyStorageOffset + offset) buf size.toNat),
      s.locateLogBuffer p) := by
  rw [msWheaEarlyStorageRead, if_neg h.below]
  simp only [msWheaCMOSRawRead]
  rw [if_neg (not_or.mpr ⟨h.nonempty, h.fits⟩), if_neg hne]

theorem write_of_accepts {p : Platform} {size offset : BitVec 8} (h : Accepts p size offset)
    (buf : Buffer) (s : State) :
    msWheaEarlyStorageWrite p (some buf) size offset s = (.success,
      { s with mem := writeLoop s (earlyStorageOffset + offset) buf size.toNat }) := by
  rw [msWheaEarlyStorageWrite, if_neg h.below]
  simp only [msWheaCMOSRawWrite]
  rw [if_neg (not_or.mpr ⟨h.nonempty, h.fits⟩)]

theorem clear_of_accepts {p : Platform} {size offset : BitVec 8} (h : Accepts p size offset)
    (s : State) :
    msWheaEarlyStorageClear p size offset s = (.success, { s with
      mem := writeLoop s (earlyStorageOffset + offset) (fun _ => p.defaultValue) size.toNat }) := by
  rw [msWheaEarlyStorageClear, if_neg h.below, msWheaCMOSRawClear,
    if_neg (not_or.mpr ⟨h.nonempty, h.fits⟩)]

theorem not_accepts_iff {p : Platform} {size offset : BitVec 8} :
    ¬ Accepts p size offset ↔ msWheaEarlyStorageGetMaxSize p ≤ offset ∨
      size = 0#8 ∨ overLength p size (earlyStorageOffset + offset) := by
  constructor
  · intro h
    by_contra hno
    rw [not_or, not_or] at hno
    exact h ⟨hno.1, hno.2.1, hno.2.2⟩
  · rintro (h | h | h) hacc
    · exact hacc.below h
    · exact hacc.nonempty h
    · exact hacc.fits h

/-- A region that does not pass the checks is refused before anything is done. -/
theorem read_of_not_accepts {p : Platform} {size offset : BitVec 8} (h : ¬ Accepts p size offset)
    (ptr : Option Buffer) (s : State) :
    msWheaEarlyStorageRead p ptr size offset s = (.invalidParameter, ptr, s) := by
  rw [msWheaEarlyStorageRead]
  by_cases hbelow : msWheaEarlyStorageGetMaxSize p ≤ offset
  · rw [if_pos hbelow]
  · -- behind the check of the wrapper, the raw operation refuses
    have hraw := (not_accepts_iff.mp h).resolve_left hbelow
    rw [if_neg hbelow]
    cases ptr with
    | none => rfl
    | some buf =>
        simp only [msWheaCMOSRawRead]
        rw [if_pos hraw]

theorem write_of_not_accepts {p : Platform} {size offset : BitVec 8} (h : ¬ Accepts p size offset)
    (ptr : Option Buffer) (s : State) :
    msWheaEarlyStorageWrite p ptr size offset s = (.invalidParameter, s) := by
  rw [msWheaEarlyStorageWrite]
  by_cases hbelow : msWheaEarlyStorageGetMaxSize p ≤ offset
  · rw [if_pos hbelow]
  · have hraw := (not_accepts_iff.mp h).resolve_left hbelow
    rw [if_neg hbelow]
    cases ptr with
    | none => rfl
    | some buf =>
        simp only [msWheaCMOSRawWrite]
        rw [if_pos hraw]

theorem clear_of_not_accepts {p : Platform} {size offset : BitVec 8}
    (h : ¬ Accepts p size offset) (s : State) :
    msWheaEarlyStorageClear p size offset s = (.invalidParameter, s) := by
  rw [msWheaEarlyStorageClear]
  by_cases hbelow : msWheaEarlyStorageGetMaxSize p ≤ offset
  · rw [if_pos hbelow]
  · have hraw := (not_accepts_iff.mp h).resolve_left hbelow
    rw [if_neg hbelow, msWheaCMOSRawClear, if_pos hraw]

/-! ## The cells of the store -/

/-- The byte that the store keeps at `offset`, with the area at `area`. -/
def cell (area : Addr) (m : Mem) (offset : Nat) : Byte := m (area + BitVec.ofNat 64 (0x40 + offset))

/-- The number of cells that an 8-bit index reaches without wrapping. -/
def cellCount : Nat := 0xC0

theorem index_eq {s : State} {offset : BitVec 8} {k i : Nat} (hoff : offset.toNat = 0x40 + k)
    (hi : k + i < cellCount) :
    s.index offset i = s.logBuffer + BitVec.ofNat 64 (0x40 + (k + i)) := by
  have hbyte : (offset + BitVec.ofNat 8 i).toNat = 0x40 + (k + i) := by
    unfold cellCount at hi
    bv_omega
  rw [State.index, ← BitVec.ofNat_toNat, hbyte]

/-- The loop reads one cell after the other. -/
theorem readLoop_cell (s : State) {offset : BitVec 8} {k : Nat} (hoff : offset.toNat = 0x40 + k)
    (buf : Buffer) : ∀ {n i : Nat}, k + n ≤ cellCount → i < n →
      readLoop s offset buf n i = cell s.logBuffer s.mem (k + i) := by
  intro n
  induction n with
  | zero => intro i _ hi; exact absurd hi (Nat.not_lt_zero i)
  | succ n ih =>
      intro i hn hi
      rw [readLoop]
      rcases Nat.lt_succ_iff_lt_or_eq.mp hi with hlt | rfl
      · rw [Function.update_of_ne (by omega), ih (by omega) hlt]
      · rw [Function.update_self, index_eq hoff (by omega)]
        rfl

/-- The loop stores one cell after the other and no other cell. -/
theorem writeLoop_cell (s : State) {offset : BitVec 8} {k : Nat} (hoff : offset.toNat = 0x40 + k)
    (byte : Buffer) {o : Nat} (ho : o < cellCount) : ∀ {n : Nat}, k + n ≤ cellCount →
      cell s.logBuffer (writeLoop s offset byte n) o
        = if k ≤ o ∧ o < k + n then byte (o - k) else cell s.logBuffer s.mem o := by
  intro n
  induction n with
  | zero =>
      intro _
      rw [if_neg (by omega)]
      rfl
  | succ n ih =>
      intro hn
      -- The last byte goes to cell k + n and to no other.
      have hstep : cell s.logBuffer (writeLoop s offset byte (n + 1)) o = if o = k + n then byte n
          else cell s.logBuffer (writeLoop s offset byte n) o := by
        rw [cell, writeLoop, index_eq hoff (by omega), write8]
        by_cases heq : o = k + n
        · rw [heq, if_pos rfl, if_pos rfl]
        · have hne : s.logBuffer + BitVec.ofNat 64 (0x40 + o)
              ≠ s.logBuffer + BitVec.ofNat 64 (0x40 + (k + n)) := by
            unfold cellCount at ho hn
            bv_omega
          rw [if_neg hne, if_neg heq, cell]
      rw [hstep, ih (by omega)]
      -- The cell just written, or one that was written before.
      by_cases heq : o = k + n
      · have hlast : o - k = n := by omega
        rw [if_pos heq, if_pos (by omega), hlast]
      · rw [if_neg heq]
        by_cases hin : k ≤ o ∧ o < k + n
        · rw [if_pos hin, if_pos (by omega)]
        · rw [if_neg hin, if_neg (by omega)]

end WheaEarlyStorage
