/-
  MsmnilePkg.WheaEarlyStorage.DeviceAccess

  Which bytes of the device a read, a write or a clear touches.

  A region that is no longer than the capacity is checked exactly.  For a
  longer one `Capacity - Size` wraps around in 8 bits, and the region can pass
  the check.
-/

import MsmnilePkg.WheaEarlyStorage.Calls

namespace WheaEarlyStorage

open ByteMem LittleEndian Efi

/-! ## The accesses -/

/-- The addresses of the first turns of a loop, `LogBuffer.Address + mIndex` in each. -/
def mmioLoop (s : State) (offset : BitVec 8) : Nat → List Addr
  | 0 => []
  | i + 1 => mmioLoop s offset i ++ [s.index offset i]

/-- The accesses of the raw operations, behind their checks. -/
def rawAccesses (p : Platform) (size offset : BitVec 8) (s : State) : List Addr :=
  if size = 0#8 ∨ overLength p size offset then [] else mmioLoop s offset size.toNat

def Call.ptr : Call → Option Buffer
  | .read ptr _ _ => ptr
  | .write ptr _ _ => ptr
  | .clear _ _ => some fun _ => 0#8

def Call.size : Call → BitVec 8
  | .read _ size _ => size
  | .write _ size _ => size
  | .clear size _ => size

def Call.offset : Call → BitVec 8
  | .read _ _ offset => offset
  | .write _ _ offset => offset
  | .clear _ offset => offset

/-- The addresses that `MmioRead8` or `MmioWrite8` is called with. -/
def Call.accesses (p : Platform) : Call → State → List Addr
  | .read ptr size offset, s =>
      if msWheaEarlyStorageGetMaxSize p ≤ offset ∨ ptr.isNone then []
      else if (s.locateLogBuffer p).logBuffer = 0#64 then []
      else rawAccesses p size (earlyStorageOffset + offset) (s.locateLogBuffer p)
  | .write ptr size offset, s =>
      if msWheaEarlyStorageGetMaxSize p ≤ offset ∨ ptr.isNone then []
      else rawAccesses p size (earlyStorageOffset + offset) s
  | .clear size offset, s =>
      if msWheaEarlyStorageGetMaxSize p ≤ offset then []
      else rawAccesses p size (earlyStorageOffset + offset) s

/-- The state and the caller's buffer behind a call. -/
def Call.left (p : Platform) : Call → State → State × Option Buffer
  | .read ptr size offset, s =>
      ((msWheaEarlyStorageRead p ptr size offset s).2.2,
        (msWheaEarlyStorageRead p ptr size offset s).2.1)
  | .write ptr size offset, s => ((msWheaEarlyStorageWrite p ptr size offset s).2, ptr)
  | c@(.clear size offset), s => ((msWheaEarlyStorageClear p size offset s).2, c.ptr)

/-- The bytes are stored at the accesses, one after the other. -/
def storeBytes (byte : Buffer) (accesses : List Addr) (m : Mem) : Mem :=
  accesses.zipIdx.foldl (fun m a => write8 m a.1 (byte a.2)) m

/-- The bytes are loaded from the accesses, one after the other. -/
def loadBytes (m : Mem) (accesses : List Addr) (buf : Buffer) : Buffer :=
  accesses.zipIdx.foldl (fun b a => Function.update b a.2 (m a.1)) buf

/-- What the accesses of a call make of the memory and the buffer. -/
def Call.performed (p : Platform) (accesses : List Addr) : Call → State → State × Option Buffer
  | .read ptr _ _, s => (s, ptr.map (loadBytes s.mem accesses))
  | .write ptr _ _, s =>
      ({ s with mem := storeBytes (ptr.getD fun _ => 0#8) accesses s.mem }, ptr)
  | c@(.clear _ _), s =>
      ({ s with mem := storeBytes (fun _ => p.defaultValue) accesses s.mem }, c.ptr)

section Loops

variable (s : State) (offset : BitVec 8) (n : Nat)

theorem mmioLoop_length : (mmioLoop s offset n).length = n := by
  induction n with
  | zero => rfl
  | succ n ih => simp [mmioLoop, ih]

/-- The write loop stores at its addresses, one after the other, and does nothing else. -/
theorem writeLoop_accesses (byte : Buffer) :
    writeLoop s offset byte n = storeBytes byte (mmioLoop s offset n) s.mem := by
  induction n with
  | zero => rfl
  | succ n ih => simp [writeLoop, storeBytes, mmioLoop, ih, List.zipIdx_append, mmioLoop_length]

/-- The read loop loads from its addresses, one after the other, and from no other. -/
theorem readLoop_accesses (buf : Buffer) :
    readLoop s offset buf n = loadBytes s.mem (mmioLoop s offset n) buf := by
  induction n with
  | zero => rfl
  | succ n ih => simp [readLoop, loadBytes, mmioLoop, ih, List.zipIdx_append, mmioLoop_length]

theorem mem_mmioLoop (a : Addr) : a ∈ mmioLoop s offset n ↔ ∃ i < n, a = s.index offset i := by
  induction n with
  | zero => simp [mmioLoop]
  | succ n ih =>
      simp only [mmioLoop, List.mem_append, ih, List.mem_singleton, Nat.lt_succ_iff_lt_or_eq]
      constructor
      · rintro (⟨i, hi, rfl⟩ | rfl)
        · exact ⟨i, Or.inl hi, rfl⟩
        · exact ⟨n, Or.inr rfl, rfl⟩
      · rintro ⟨i, hi | rfl, rfl⟩
        · exact Or.inl ⟨i, hi, rfl⟩
        · exact Or.inr rfl

variable {s offset n} in
/-- The write loop keeps every other byte. -/
theorem writeLoop_of_not_mem (byte : Buffer) {a : Addr} (ha : a ∉ mmioLoop s offset n) :
    writeLoop s offset byte n a = s.mem a := by
  induction n with
  | zero => rfl
  | succ n ih =>
      rw [mmioLoop, List.mem_append, List.mem_singleton, not_or] at ha
      rw [writeLoop, write8_of_ne ha.2, ih ha.1]

end Loops

/-! ## What the checks let pass -/

/-- The region is longer than the capacity, and is let pass. -/
structure Wraps (p : Platform) (size offset : BitVec 8) : Prop where
  long : p.capacity.toNat < size.toNat
  below : offset.toNat < p.capacity.toNat - 0x40
  passes : offset.toNat + size.toNat ≤ p.capacity.toNat + 0xC0

/-- The region lies inside the store. -/
structure Inside (p : Platform) (size offset : BitVec 8) : Prop where
  nonempty : 0 < size.toNat
  fits : offset.toNat + size.toNat ≤ p.capacity.toNat - 0x40

section Checks

variable {p : Platform} {size offset : BitVec 8}

theorem Inside.accepts (hcap : CapacityOk p) (h : Inside p size offset) : Accepts p size offset :=
  accepts_of_le hcap h.nonempty (by have := h.nonempty; have := h.fits; omega)

theorem Wraps.accepts (hcap : CapacityOk p) (h : Wraps p size offset) : Accepts p size offset where
  below := by
    rw [BitVec.le_def, getMaxSize_toNat hcap]
    exact Nat.not_le_of_lt h.below
  nonempty := by
    rintro rfl
    exact absurd h.long (Nat.not_lt_zero _)
  fits := by
    have hlong := h.long
    have hbelow := h.below
    unfold overLength earlyStorageOffset
    bv_omega

/-- The checks let a region pass when it lies inside the store, and when it wraps around. -/
theorem accepts_iff (hcap : CapacityOk p) :
    Accepts p size offset ↔ Inside p size offset ∨ Wraps p size offset := by
  constructor
  · intro h
    have hbelow := h.offset_lt hcap
    have hpos : 0 < size.toNat :=
      Nat.pos_of_ne_zero fun hz => h.nonempty (BitVec.eq_of_toNat_eq hz)
    have hfits := h.fits
    obtain ⟨hlo, hhi⟩ := hcap
    unfold overLength earlyStorageOffset at hfits
    by_cases hlong : p.capacity.toNat < size.toNat
    · -- `Capacity - Size` is negative: 0x100 more than that.
      refine Or.inr ⟨hlong, by omega, ?_⟩
      bv_omega
    · -- it is not, and the comparison is exact
      refine Or.inl ⟨hpos, ?_⟩
      bv_omega
  · rintro (h | h)
    · exact h.accepts hcap
    · exact h.accepts hcap

theorem not_inside_of_wraps (h : Wraps p size offset) : ¬ Inside p size offset := by
  rintro ⟨-, hfits⟩
  have hlong := h.long
  omega

end Checks

/-! ## One call -/

/-- Byte `i` of the region is in the buffer as the device has it, or on the device as the call
    has it. -/
def Call.Moved (p : Platform) (s : State) (i : Nat) : Call → Prop
  | .read ptr size offset => ∃ buf, (msWheaEarlyStorageRead p ptr size offset s).2.1 = some buf ∧
      buf i = cell s.logBuffer s.mem (offset.toNat + i)
  | .write ptr size offset => ∃ buf, ptr = some buf ∧
      cell s.logBuffer (msWheaEarlyStorageWrite p ptr size offset s).2.mem (offset.toNat + i)
        = buf i
  | .clear size offset =>
      cell s.logBuffer (msWheaEarlyStorageClear p size offset s).2.mem (offset.toNat + i)
        = p.defaultValue

/-- A call succeeds exactly for a region inside the store.  It leaves what its accesses make of
    the memory and the buffer; these go to exactly the bytes of the region, all of which are
    moved, and no other byte changes.  A call that is refused changes nothing. -/
structure ActsInStore (p : Platform) (c : Call) (s : State) : Prop where
  succeeds : (c.exec p s).1 = .success ↔ Inside p c.size c.offset
  performs : c.left p s = c.performed p (c.accesses p s) s
  touches : (c.exec p s).1 = .success → ∀ a, a ∈ c.accesses p s ↔
    ∃ i < c.size.toNat, a = s.logBuffer + BitVec.ofNat 64 (0x40 + (c.offset.toNat + i))
  moves : (c.exec p s).1 = .success → ∀ i < c.size.toNat, c.Moved p s i
  keeps : ∀ a, a ∉ c.accesses p s → (c.exec p s).2.mem a = s.mem a
  untouched : (c.exec p s).1 ≠ .success → c.accesses p s = [] ∧ c.left p s = (s, c.ptr)

section Calls

variable {p : Platform} {s : State} {c : Call}

theorem locateLogBuffer_of_ne (hloc : s.logBuffer ≠ 0#64) : s.locateLogBuffer p = s :=
  if_neg hloc

/-- With a pointer and the area looked up, a call succeeds when the checks let it pass. -/
theorem exec_success_iff (hloc : s.logBuffer ≠ 0#64) (hptr : c.ptr ≠ none) :
    (c.exec p s).1 = .success ↔ Accepts p c.size c.offset := by
  cases c with
  | read ptr size offset =>
      obtain ⟨buf, rfl⟩ := Option.ne_none_iff_exists'.mp hptr
      show (msWheaEarlyStorageRead p (some buf) size offset s).1 = .success
        ↔ Accepts p size offset
      by_cases hacc : Accepts p size offset
      · -- a read looks the area up again, which finds the same one
        have hne : (s.locateLogBuffer p).logBuffer ≠ 0#64 := by
          rw [locateLogBuffer_of_ne hloc]
          exact hloc
        simp [read_of_accepts hacc buf hne, hacc]
      · simp [read_of_not_accepts hacc, hacc]
  | write ptr size offset =>
      obtain ⟨buf, rfl⟩ := Option.ne_none_iff_exists'.mp hptr
      show (msWheaEarlyStorageWrite p (some buf) size offset s).1 = .success
        ↔ Accepts p size offset
      by_cases hacc : Accepts p size offset
      · simp [write_of_accepts hacc, hacc]
      · simp [write_of_not_accepts hacc, hacc]
  | clear size offset =>
      show (msWheaEarlyStorageClear p size offset s).1 = .success ↔ Accepts p size offset
      by_cases hacc : Accepts p size offset
      · simp [clear_of_accepts hacc, hacc]
      · simp [clear_of_not_accepts hacc, hacc]

/-- The accesses of such a call, behind the two checks. -/
theorem accesses_eq (hloc : s.logBuffer ≠ 0#64) (hptr : c.ptr ≠ none) :
    c.accesses p s = if msWheaEarlyStorageGetMaxSize p ≤ c.offset then []
      else rawAccesses p c.size (earlyStorageOffset + c.offset) s := by
  cases c with
  | read ptr size offset =>
      obtain ⟨buf, rfl⟩ := Option.ne_none_iff_exists'.mp hptr
      simp only [Call.accesses, locateLogBuffer_of_ne hloc, if_neg hloc, Option.isNone_some,
        Bool.false_eq_true, or_false]
      rfl
  | write ptr size offset =>
      obtain ⟨buf, rfl⟩ := Option.ne_none_iff_exists'.mp hptr
      simp only [Call.accesses, Option.isNone_some, Bool.false_eq_true, or_false]
      rfl
  | clear size offset => rfl

theorem accesses_of_accepts (hloc : s.logBuffer ≠ 0#64) (hptr : c.ptr ≠ none)
    (h : Accepts p c.size c.offset) :
    c.accesses p s = mmioLoop s (earlyStorageOffset + c.offset) c.size.toNat := by
  rw [accesses_eq hloc hptr, if_neg h.below, rawAccesses,
    if_neg (not_or.mpr ⟨h.nonempty, h.fits⟩)]

theorem accesses_of_not_accepts (hloc : s.logBuffer ≠ 0#64) (hptr : c.ptr ≠ none)
    (h : ¬ Accepts p c.size c.offset) : c.accesses p s = [] := by
  rw [accesses_eq hloc hptr]
  rcases not_accepts_iff.mp h with hbelow | hraw
  · -- refused by the wrapper
    rw [if_pos hbelow]
  · -- refused by the raw operation
    rw [rawAccesses, if_pos hraw, ite_self]

/-- An access to a region inside the store goes to the byte it names. -/
theorem index_of_inside (hcap : CapacityOk p) {size offset : BitVec 8}
    (h : Inside p size offset) {i : Nat} (hi : i < size.toNat) :
    s.index (earlyStorageOffset + offset) i
      = s.logBuffer + BitVec.ofNat 64 (0x40 + (offset.toNat + i)) := by
  have hfits := h.fits
  obtain ⟨hlo, hhi⟩ := hcap
  apply index_eq ((h.accepts ⟨hlo, hhi⟩).rawOffset ⟨hlo, hhi⟩)
  unfold cellCount
  omega

/-- A call leaves what its accesses make of the memory and the buffer. -/
theorem left_eq_performed (hloc : s.logBuffer ≠ 0#64) (hptr : c.ptr ≠ none) :
    c.left p s = c.performed p (c.accesses p s) s := by
  cases c with
  | read ptr size offset =>
      obtain ⟨buf, rfl⟩ := Option.ne_none_iff_exists'.mp hptr
      by_cases hacc : Accepts p size offset
      · have hlocated := locateLogBuffer_of_ne (p := p) hloc
        rw [accesses_of_accepts hloc hptr hacc, Call.left,
          read_of_accepts hacc buf (by rw [hlocated]; exact hloc), hlocated, readLoop_accesses]
        rfl
      · rw [accesses_of_not_accepts hloc hptr hacc, Call.left, read_of_not_accepts hacc]
        rfl
  | write ptr size offset =>
      obtain ⟨buf, rfl⟩ := Option.ne_none_iff_exists'.mp hptr
      by_cases hacc : Accepts p size offset
      · rw [accesses_of_accepts hloc hptr hacc, Call.left, write_of_accepts hacc,
          writeLoop_accesses]
        rfl
      · rw [accesses_of_not_accepts hloc hptr hacc, Call.left, write_of_not_accepts hacc]
        rfl
  | clear size offset =>
      by_cases hacc : Accepts p size offset
      · rw [accesses_of_accepts hloc hptr hacc, Call.left, clear_of_accepts hacc,
          writeLoop_accesses]
        rfl
      · rw [accesses_of_not_accepts hloc hptr hacc, Call.left, clear_of_not_accepts hacc]
        rfl

/-- Bytes that are not accessed keep their values. -/
theorem exec_keeps (hloc : s.logBuffer ≠ 0#64) (hptr : c.ptr ≠ none) {a : Addr}
    (ha : a ∉ c.accesses p s) : (c.exec p s).2.mem a = s.mem a := by
  by_cases hacc : Accepts p c.size c.offset
  · rw [accesses_of_accepts hloc hptr hacc] at ha
    cases c with
    | read ptr size offset =>
        obtain ⟨buf, rfl⟩ := Option.ne_none_iff_exists'.mp hptr
        have hlocated := locateLogBuffer_of_ne (p := p) hloc
        have hread := read_of_accepts hacc buf (s := s) (by rw [hlocated]; exact hloc)
        rw [hlocated] at hread
        exact congrArg (fun r => r.2.2.mem a) hread
    | write ptr size offset =>
        obtain ⟨buf, rfl⟩ := Option.ne_none_iff_exists'.mp hptr
        refine Eq.trans ?_ (writeLoop_of_not_mem buf ha)
        exact congrArg (fun r => r.2.mem a) (write_of_accepts hacc buf s)
    | clear size offset =>
        refine Eq.trans ?_ (writeLoop_of_not_mem (fun _ => p.defaultValue) ha)
        exact congrArg (fun r => r.2.mem a) (clear_of_accepts hacc s)
  · cases c with
    | read ptr size offset =>
        exact congrArg (fun r => r.2.2.mem a) (read_of_not_accepts hacc ptr s)
    | write ptr size offset =>
        exact congrArg (fun r => r.2.mem a) (write_of_not_accepts hacc ptr s)
    | clear size offset => exact congrArg (fun r => r.2.mem a) (clear_of_not_accepts hacc s)

/-- Every byte of a region inside the store is moved. -/
theorem moved_of_inside (hcap : CapacityOk p) (hloc : s.logBuffer ≠ 0#64) (hptr : c.ptr ≠ none)
    (hin : Inside p c.size c.offset) {i : Nat} (hi : i < c.size.toNat) : c.Moved p s i := by
  have hacc := hin.accepts hcap
  have hfits := hin.fits
  have hcells : c.offset.toNat + c.size.toNat ≤ cellCount := by
    have hhi := hcap.2
    unfold cellCount
    omega
  cases c with
  | read ptr size offset =>
      obtain ⟨buf, rfl⟩ := Option.ne_none_iff_exists'.mp hptr
      have hlocated := locateLogBuffer_of_ne (p := p) hloc
      have hread := read_of_accepts hacc buf (s := s) (by rw [hlocated]; exact hloc)
      refine ⟨_, congrArg (fun r => r.2.1) hread, ?_⟩
      rw [hlocated]
      exact readLoop_cell s (hacc.rawOffset hcap) buf hcells hi
  | write ptr size offset =>
      obtain ⟨buf, rfl⟩ := Option.ne_none_iff_exists'.mp hptr
      refine ⟨buf, rfl, ?_⟩
      have hcell := writeLoop_cell s (hacc.rawOffset hcap) buf
        (Nat.lt_of_lt_of_le (Nat.add_lt_add_left hi _) hcells) hcells
      rw [if_pos ⟨Nat.le_add_right _ _, Nat.add_lt_add_left hi _⟩, Nat.add_sub_cancel_left] at hcell
      exact (congrArg (fun r => cell _ r.2.mem _) (write_of_accepts hacc buf s)).trans hcell
  | clear size offset =>
      have hcell := writeLoop_cell s (hacc.rawOffset hcap) (fun _ => p.defaultValue)
        (Nat.lt_of_lt_of_le (Nat.add_lt_add_left hi _) hcells) hcells
      rw [if_pos ⟨Nat.le_add_right _ _, Nat.add_lt_add_left hi _⟩] at hcell
      exact (congrArg (fun r => cell _ r.2.mem _) (clear_of_accepts hacc s)).trans hcell

end Calls

/-- A call acts on the store as it should unless its region is longer than the capacity and
    passes the check of 8 bits. -/
theorem acts_in_store_iff {p : Platform} (hcap : CapacityOk p) {s : State}
    (hloc : s.logBuffer ≠ 0#64) (c : Call) (hptr : c.ptr ≠ none) :
    ActsInStore p c s ↔ ¬ Wraps p c.size c.offset := by
  have hsuccess := exec_success_iff (p := p) hloc hptr
  constructor
  · -- such a region is accepted and not inside the store
    intro h hwraps
    have hinside := h.succeeds.mp (hsuccess.mpr (hwraps.accepts hcap))
    exact not_inside_of_wraps hwraps hinside
  · intro hno
    have hinside : Accepts p c.size c.offset ↔ Inside p c.size c.offset := by
      rw [accepts_iff hcap, or_iff_left hno]
    constructor
    case succeeds => rw [hsuccess, hinside]
    case touches =>
      intro hok a
      have hin := hinside.mp (hsuccess.mp hok)
      rw [accesses_of_accepts hloc hptr (hsuccess.mp hok), mem_mmioLoop]
      constructor
      · rintro ⟨i, hi, rfl⟩
        exact ⟨i, hi, index_of_inside hcap hin hi⟩
      · rintro ⟨i, hi, rfl⟩
        exact ⟨i, hi, (index_of_inside hcap hin hi).symm⟩
    case performs => exact left_eq_performed hloc hptr
    case moves =>
      intro hok i hi
      exact moved_of_inside hcap hloc hptr (hinside.mp (hsuccess.mp hok)) hi
    case keeps => exact fun a ha => exec_keeps hloc hptr ha
    case untouched =>
      intro hfail
      have hnone := accesses_of_not_accepts hloc hptr (mt hsuccess.mpr hfail)
      refine ⟨hnone, ?_⟩
      rw [left_eq_performed hloc hptr, hnone]
      cases c with
      | read ptr size offset => exact congrArg (Prod.mk s) Option.map_id'
      | write ptr size offset => rfl
      | clear size offset => rfl

/-! ## Samples -/

/-- The area of the sample has been looked up. -/
def locatedState : State := ⟨0x9FF00000#64, fun _ => 0#8⟩

/-- A clear of the last 16 bytes of a store of 0x40. -/
theorem acts_in_store_last_bytes :
    ActsInStore samplePlatform (.clear 0x10#8 0x30#8) locatedState := by
  refine (acts_in_store_iff ⟨by decide, by decide⟩ (by decide) (.clear 0x10#8 0x30#8)
    (by simp [Call.ptr])).mpr fun hwraps => ?_
  exact absurd hwraps.long (by decide)

/-- A clear of 255 bytes of that store is accepted. -/
theorem long_clear_is_accepted :
    CapacityOk samplePlatform ∧ locatedState.logBuffer ≠ 0#64 ∧
      ((Call.clear 0xFF#8 0#8).exec samplePlatform locatedState).1 = .success ∧
      ¬ ActsInStore samplePlatform (.clear 0xFF#8 0#8) locatedState := by
  have hsuccess : ((Call.clear 0xFF#8 0#8).exec samplePlatform locatedState).1 = .success := rfl
  refine ⟨⟨by decide, by decide⟩, by decide, hsuccess, ?_⟩
  intro h
  have hfits := (h.succeeds.mp hsuccess).fits
  revert hfits
  decide

end WheaEarlyStorage
