/-
  MsmnilePkg.WheaEarlyStorage.AddRecord

  What adding a record does to the cells of the store.

  `appendRecord` says it on one buffer: the record goes behind the active
  data, the number of active bytes grows, and the checksum is set so that
  everything sums to zero.  The functions of the library do the same through
  8-bit reads and writes of the area.
-/

import MsmnilePkg.WheaEarlyStorage.Records

namespace WheaEarlyStorage

open ByteMem LittleEndian Efi

/-! ## The store as one buffer -/

/-- A header and active data that sum to zero. -/
structure StoreOk (b : Build) (store : Buffer) : Prop where
  active_even : b.header.activeRange store % 2 = 0
  active_le : b.header.activeRange store ≤ (msWheaESGetMaxDataCount b).toNat
  sum_zero : sum16 store ((b.header.size + b.header.activeRange store) / 2) = 0#16

/-- The store with a record behind its active data, before its checksum is set. -/
def extendActive (b : Build) (store record : Buffer) : Buffer :=
  b.header.setActiveRange
    (put store (b.header.size + b.header.activeRange store) b.entry.size record)
    (b.header.activeRange store + b.entry.size)

/-- The checksum of a store with `active` bytes of data. -/
def checksumOf (b : Build) (store : Buffer) (active : Nat) : BitVec 16 :=
  0#16 - sum16 (b.header.setChecksum store 0#16) ((b.header.size + active) / 2)

/-- The store after a record was added. -/
def appendRecord (b : Build) (store record : Buffer) : Buffer :=
  b.header.setChecksum (extendActive b store record)
    (checksumOf b (extendActive b store record) (b.header.activeRange store + b.entry.size))

section Layout

variable (l : HeaderLayout)

theorem HeaderLayout.setChecksum_outside (h : Buffer) (c : BitVec 16) {i : Nat}
    (hi : l.size ≤ i) : l.setChecksum h c i = h i :=
  put_outside (Or.inr (by have := l.checksum_fits; omega))

theorem HeaderLayout.setActiveRange_outside (h : Buffer) (v : Nat) {i : Nat}
    (hi : l.size ≤ i) : l.setActiveRange h v i = h i :=
  put_outside (Or.inr (by have := l.activeRange_fits; omega))

theorem HeaderLayout.activeRange_setChecksum (h : Buffer) (c : BitVec 16) :
    l.activeRange (l.setChecksum h c) = l.activeRange h :=
  value_put_outside l.fields_apart

theorem HeaderLayout.activeRange_setActiveRange (h : Buffer) {v : Nat} (hv : v < 256) :
    l.activeRange (l.setActiveRange h v) = v := by
  have hpow : 256 ^ 1 ≤ 256 ^ l.activeRangeBytes :=
    Nat.pow_le_pow_right (by omega) l.activeRange_pos
  rw [HeaderLayout.activeRange, HeaderLayout.setActiveRange, value_put, Nat.mod_eq_of_lt (by omega)]

theorem HeaderLayout.activeRange_congr {h h' : Buffer} (heq : ∀ i < l.size, h i = h' i) :
    l.activeRange h = l.activeRange h' :=
  value_congr fun i hi => heq _ (by have := l.activeRange_fits; omega)

/-- A header that is put down as it is keeps its bytes. -/
theorem put_congr {h h' : Buffer} {offset n i : Nat} (src : Buffer) (heq : h i = h' i) :
    put h offset n src i = put h' offset n src i := by
  rw [put, put, heq]

/-- Setting the checksum back to what it was undoes that it was cleared. -/
theorem HeaderLayout.setChecksum_restore (h : Buffer) (c : BitVec 16) :
    l.setChecksum (l.setChecksum h c) (l.checksum h) = h := by
  funext i
  by_cases hin : l.checksumAt ≤ i ∧ i < l.checksumAt + 2
  · obtain ⟨k, rfl⟩ : ∃ k, i = l.checksumAt + k := ⟨i - l.checksumAt, by omega⟩
    have hk : k < 2 := by omega
    rw [HeaderLayout.setChecksum, put_inside hk, HeaderLayout.checksum]
    exact bytesOf_word16 h l.checksumAt hk
  · rw [HeaderLayout.setChecksum, HeaderLayout.setChecksum, put_outside (by omega),
      put_outside (by omega)]

end Layout

section Append

variable {b : Build} {store record : Buffer}

theorem appendRecord_activeRange (h : b.header.activeRange store + b.entry.size < 256) :
    b.header.activeRange (appendRecord b store record)
      = b.header.activeRange store + b.entry.size := by
  rw [appendRecord, HeaderLayout.activeRange_setChecksum, extendActive,
    HeaderLayout.activeRange_setActiveRange _ _ h]

/-- The bytes of the record lie behind the data that was active. -/
theorem appendRecord_record {i : Nat} (hi : i < b.entry.size) :
    appendRecord b store record (b.header.size + b.header.activeRange store + i) = record i := by
  rw [appendRecord, HeaderLayout.setChecksum_outside _ _ _ (by omega), extendActive,
    HeaderLayout.setActiveRange_outside _ _ _ (by omega), put_inside hi]

/-- The data that was active stays as it is. -/
theorem appendRecord_data {i : Nat} (hi : i < b.header.activeRange store) :
    appendRecord b store record (b.header.size + i) = store (b.header.size + i) := by
  rw [appendRecord, HeaderLayout.setChecksum_outside _ _ _ (by omega), extendActive,
    HeaderLayout.setActiveRange_outside _ _ _ (by omega), put_outside (Or.inl (by omega))]

/-- The checksum makes the sum zero. -/
theorem setChecksum_sum (b : Build) (store : Buffer) (active : Nat) :
    sum16 (b.header.setChecksum store (checksumOf b store active))
      ((b.header.size + active) / 2) = 0#16 := by
  have heven := b.header.checksum_even
  have hfits := b.header.checksum_fits
  have hat : b.header.checksumAt = 2 * (b.header.checksumAt / 2) := by omega
  have hsplit := sum16_put_word store (checksumOf b store active)
    (k := b.header.checksumAt / 2) (n := (b.header.size + active) / 2) (by omega)
  rw [← hat] at hsplit
  rw [HeaderLayout.setChecksum, hsplit, checksumOf, HeaderLayout.setChecksum]
  exact add_sub_cancel _ _

/-- Adding a record that fits keeps the store well formed. -/
theorem StoreOk.append (h : StoreOk b store)
    (hfit : b.header.activeRange store + b.entry.size ≤ (msWheaESGetMaxDataCount b).toNat)
    (record : Buffer) : StoreOk b (appendRecord b store record) := by
  have hactive : b.header.activeRange (appendRecord b store record)
      = b.header.activeRange store + b.entry.size := appendRecord_activeRange (by omega)
  have heven := b.entry.size_even
  have hwas := h.active_even
  refine ⟨?_, ?_, ?_⟩
  · rw [hactive]
    omega
  · rw [hactive]
    exact hfit
  · rw [hactive, appendRecord]
    exact setChecksum_sum b _ _

theorem StoreOk.congr {store' : Buffer} (h : StoreOk b store)
    (heq : ∀ i < b.header.size + b.header.activeRange store, store' i = store i) :
    StoreOk b store' := by
  have hactive : b.header.activeRange store' = b.header.activeRange store :=
    b.header.activeRange_congr fun i hi => heq i (by omega)
  refine ⟨?_, ?_, ?_⟩
  · rw [hactive]
    exact h.active_even
  · rw [hactive]
    exact h.active_le
  · rw [hactive, sum16_congr fun i hi => heq i (by omega)]
    exact h.sum_zero

end Append

/-! ## Reads and writes of the area -/

section Area

variable {b : Build} {area : Addr}

/-- What the library needs of the platform: a capacity that fits the 8-bit index and a
    "Log Buffer" in the memory map. -/
structure AreaOk (b : Build) (area : Addr) : Prop where
  capacity : CapacityOk b.toPlatform
  located : b.logBufferArea = some area
  nonzero : area ≠ 0#64

/-- The address has been looked up or still is zero. -/
def Looked (area : Addr) (s : State) : Prop := s.logBuffer = 0#64 ∨ s.logBuffer = area

theorem locateLogBuffer_eq (hok : AreaOk b area) {s : State} (hs : Looked area s) :
    s.locateLogBuffer b.toPlatform = ⟨area, s.mem⟩ := by
  have hloc := locateLogBuffer_area hok.located hs
  have hmem := locateLogBuffer_mem b.toPlatform s
  rw [← hloc, ← hmem]

/-- A read inside the capacity succeeds and delivers the cells. -/
theorem readInto_cells (hok : AreaOk b area) {s : State} (hs : Looked area s) (buf : Buffer)
    {k n : Nat} (hn : 0 < n) (hle : 0x40 + k + n ≤ b.capacity.toNat) :
    ∃ buf', readInto b buf (BitVec.ofNat 8 n) (BitVec.ofNat 8 k) s
        = (.success, buf', ⟨area, s.mem⟩) ∧ ∀ i < n, buf' i = cell area s.mem (k + i) := by
  have hhi := hok.capacity.2
  have hk8 : (BitVec.ofNat 8 k).toNat = k := by
    rw [BitVec.toNat_ofNat, Nat.mod_eq_of_lt (by omega)]
  have hn8 : (BitVec.ofNat 8 n).toNat = n := by
    rw [BitVec.toNat_ofNat, Nat.mod_eq_of_lt (by omega)]
  have hacc : Accepts b.toPlatform (BitVec.ofNat 8 n) (BitVec.ofNat 8 k) :=
    accepts_of_le hok.capacity (by omega) (by omega)
  have hoff := hacc.rawOffset hok.capacity
  rw [hk8] at hoff
  have hloc := locateLogBuffer_eq hok hs
  have hread := read_of_accepts hacc buf (s := s) (by rw [hloc]; exact hok.nonzero)
  rw [hloc, hn8] at hread
  refine ⟨_, by rw [readInto, hread], fun i hi => ?_⟩
  exact readLoop_cell ⟨area, s.mem⟩ hoff buf (by unfold cellCount; omega) hi

/-- A write inside the capacity succeeds and stores the buffer into the cells. -/
theorem write_cells (hok : AreaOk b area) (m : Mem) (buf : Buffer) {k n : Nat} (hn : 0 < n)
    (hle : 0x40 + k + n ≤ b.capacity.toNat) :
    ∃ m', msWheaEarlyStorageWrite b.toPlatform (some buf) (BitVec.ofNat 8 n) (BitVec.ofNat 8 k)
        ⟨area, m⟩ = (.success, ⟨area, m'⟩) ∧
      ∀ o < cellCount, cell area m' o = put (cell area m) k n buf o := by
  have hhi := hok.capacity.2
  have hk8 : (BitVec.ofNat 8 k).toNat = k := by
    rw [BitVec.toNat_ofNat, Nat.mod_eq_of_lt (by omega)]
  have hn8 : (BitVec.ofNat 8 n).toNat = n := by
    rw [BitVec.toNat_ofNat, Nat.mod_eq_of_lt (by omega)]
  have hacc : Accepts b.toPlatform (BitVec.ofNat 8 n) (BitVec.ofNat 8 k) :=
    accepts_of_le hok.capacity (by omega) (by omega)
  have hoff := hacc.rawOffset hok.capacity
  rw [hk8] at hoff
  refine ⟨_, write_of_accepts hacc buf ⟨area, m⟩, fun o ho => ?_⟩
  rw [hn8]
  exact writeLoop_cell ⟨area, m⟩ hoff buf ho (by unfold cellCount; omega)

/-- The capacity of the data, behind the header. -/
theorem getMaxDataCount_toNat (hok : AreaOk b area)
    (hfit : b.header.size ≤ b.capacity.toNat - 0x40) :
    (msWheaESGetMaxDataCount b).toNat = b.capacity.toNat - 0x40 - b.header.size := by
  have hmax := getMaxSize_toNat hok.capacity
  have hand : (b.capacity.toNat - 0x40 - b.header.size) &&& 0xFF
      = b.capacity.toNat - 0x40 - b.header.size :=
    Nat.and_two_pow_sub_one_of_lt_two_pow (n := 8) (by omega)
  rw [msWheaESGetMaxDataCount, if_neg (by omega), hmax, hand, BitVec.toNat_ofNat,
    Nat.mod_eq_of_lt (by omega)]

/-- The loop adds the words of the active data from `index` on. -/
theorem checksumLoop_eq (hok : AreaOk b area) (m : Mem) {active : Nat}
    (hle : 0x40 + b.header.size + active ≤ b.capacity.toNat) :
    ∀ (k index : Nat) (sum : BitVec 16), index + 2 * k = active →
      checksumLoop b active index sum ⟨area, m⟩ = (.success,
        sum + sum16 (fun i => cell area m (b.header.size + index + i)) k, ⟨area, m⟩) := by
  intro k
  induction k with
  | zero =>
      intro index sum hk
      rw [checksumLoop, if_neg (by omega), sum16, BitVec.add_zero]
  | succ k ih =>
      intro index sum hk
      -- A turn reads the two bytes of one word and adds it.
      obtain ⟨data, hread, hdata⟩ := readInto_cells hok (s := ⟨area, m⟩) (Or.inr rfl)
        b.uninitialised (k := b.header.size + index) (n := 2) (by omega) (by omega)
      have hword : word16 data 0
          = sum16 (fun i => cell area m (b.header.size + index + i)) 1 := by
        rw [sum16, sum16, BitVec.zero_add]
        exact word16_congr (hdata 0 (by omega)) (hdata 1 (by omega))
      have hrest : (fun i => cell area m (b.header.size + (index + 2) + i))
          = fun i => cell area m (b.header.size + index + (2 * 1 + i)) := by
        funext i
        exact congrArg (cell area m) (by omega)
      rw [checksumLoop, if_pos (by omega), hread]
      show checksumLoop b active (index + 2) (sum + word16 data 0) ⟨area, m⟩ = _
      rw [ih (index + 2) _ (by omega), hword, BitVec.add_assoc, Nat.add_comm k 1, sum16_add, hrest]

/-- The checksum of a header copy is that of the store it describes: the copy, and behind it
    the cells. -/
theorem calculateChecksum_eq (hok : AreaOk b area)
    (hsum : ∀ buf n, n % 2 = 0 → b.calculateSum16 buf n = sum16 buf (n / 2)) (m : Mem)
    {header store : Buffer} (hheader : ∀ i < b.header.size, header i = store i)
    (hdata : ∀ i < b.header.activeRange store,
      cell area m (b.header.size + i) = store (b.header.size + i))
    (heven : b.header.activeRange store % 2 = 0)
    (hle : 0x40 + b.header.size + b.header.activeRange store ≤ b.capacity.toNat)
    (checksum : BitVec 16) :
    msWheaESCalculateChecksum16 b header checksum ⟨area, m⟩ = (.success, header,
      checksumOf b store (b.header.activeRange store), ⟨area, m⟩) := by
  have hactive : b.header.activeRange header = b.header.activeRange store :=
    b.header.activeRange_congr hheader
  have hmax := getMaxSize_toNat hok.capacity
  have hsize := b.header.size_even
  have hcheck : ¬ ((msWheaEarlyStorageGetMaxSize b.toPlatform).toNat < b.header.activeRange header ∨
      b.header.activeRange header % 2 ≠ 0) := by omega
  have hhalf : (b.header.size + b.header.activeRange store) / 2
      = b.header.size / 2 + b.header.activeRange store / 2 := by omega
  -- The header is summed with its checksum set to 0, the records as they are stored.
  have hfirst : b.calculateSum16 (b.header.setChecksum header 0#16) b.header.size
      = sum16 (b.header.setChecksum store 0#16) (b.header.size / 2) := by
    rw [hsum _ _ hsize]
    exact sum16_congr fun i hi => put_congr _ (hheader i (by omega))
  have hrest : sum16 (fun i => cell area m (b.header.size + 0 + i))
        (b.header.activeRange store / 2)
      = sum16 (fun i => b.header.setChecksum store 0#16 (2 * (b.header.size / 2) + i))
        (b.header.activeRange store / 2) := by
    refine sum16_congr fun i hi => ?_
    have hat : 2 * (b.header.size / 2) + i = b.header.size + i := by omega
    rw [hat, HeaderLayout.setChecksum_outside _ _ _ (by omega), Nat.add_zero]
    exact hdata i (by omega)
  rw [msWheaESCalculateChecksum16, if_neg hcheck]
  simp only [HeaderLayout.setChecksum_restore]
  rw [hactive, checksumLoop_eq hok m hle (b.header.activeRange store / 2) 0 _ (by omega), hfirst,
    hrest, ← sum16_add, ← hhalf]
  rfl

/-! ## Adding a record -/

/-- The sum of two bytes does not wrap, whatever the width of the field. -/
theorem activeRange_add_mod {n : Nat} (w : Nat) (hn : n < 2 ^ 32) : n % 2 ^ max 32 w = n :=
  Nat.mod_eq_of_lt (Nat.lt_of_lt_of_le hn (Nat.pow_le_pow_right (by omega) (Nat.le_max_left ..)))

/-- The slot behind the active data, if the data count has room for it. -/
theorem findSlot_eq (hok : AreaOk b area) (hle : 0x40 + b.header.size ≤ b.capacity.toNat)
    {s : State} (hs : Looked area s)
    (hactive : b.header.activeRange (cell area s.mem) < 256) (size offset : BitVec 8) :
    msWheaESFindSlot b size offset s =
      if b.header.activeRange (cell area s.mem) + size.toNat ≤ (msWheaESGetMaxDataCount b).toNat
      then (.success, BitVec.ofNat 8 (b.header.activeRange (cell area s.mem)), ⟨area, s.mem⟩)
      else (.outOfResources, offset, ⟨area, s.mem⟩) := by
  have hpos : 0 < b.header.size := by have := b.header.checksum_fits; omega
  obtain ⟨header, hread, hheader⟩ := readInto_cells hok hs b.uninitialised (k := 0)
    (n := b.header.size) hpos (by omega)
  have heq : b.header.activeRange header = b.header.activeRange (cell area s.mem) :=
    b.header.activeRange_congr fun i hi => by rw [hheader i hi, Nat.zero_add]
  rw [msWheaESFindSlot, headerSize, hread]
  simp only
  rw [heq, activeRange_add_mod _ (by omega)]

/-- A record that does not fit is refused. -/
theorem addRecord_full (hok : AreaOk b area)
    (hle : 0x40 + b.header.size + b.entry.size ≤ b.capacity.toNat) {s : State}
    (hs : Looked area s) (hactive : b.header.activeRange (cell area s.mem) < 256)
    (hfull : (msWheaESGetMaxDataCount b).toNat
      < b.header.activeRange (cell area s.mem) + b.entry.size) (record : Buffer) :
    msWheaESAddRecordV0Internal b (some record) s = (.outOfResources, ⟨area, s.mem⟩) := by
  have hhi := hok.capacity.2
  have hsize : (BitVec.ofNat 8 b.entry.size).toNat = b.entry.size := by
    rw [BitVec.toNat_ofNat, Nat.mod_eq_of_lt (by omega)]
  have hslot := findSlot_eq hok (by omega) hs hactive (BitVec.ofNat 8 b.entry.size) 0#8
  rw [hsize, if_neg (by omega)] at hslot
  rw [msWheaESAddRecordV0Internal, hslot]
  rfl

/-- A record that fits is appended to the store. -/
theorem addRecord_fits (hok : AreaOk b area)
    (hsum : ∀ buf n, n % 2 = 0 → b.calculateSum16 buf n = sum16 buf (n / 2))
    (hle : 0x40 + b.header.size + b.entry.size ≤ b.capacity.toNat) {s : State}
    (hs : Looked area s) (heven : b.header.activeRange (cell area s.mem) % 2 = 0)
    (hfit : b.header.activeRange (cell area s.mem) + b.entry.size
      ≤ (msWheaESGetMaxDataCount b).toNat) (record : Buffer) :
    ∃ m', msWheaESAddRecordV0Internal b (some record) s = (.success, ⟨area, m'⟩) ∧
      ∀ o < cellCount, cell area m' o = appendRecord b (cell area s.mem) record o := by
  obtain ⟨active, hactive⟩ : ∃ n, n = b.header.activeRange (cell area s.mem) := ⟨_, rfl⟩
  rw [← hactive] at heven hfit
  have hhi := hok.capacity.2
  have hmax := getMaxDataCount_toNat hok (by omega)
  have hpos : 0 < b.header.size := by have := b.header.checksum_fits; omega
  have hentry := b.entry.size_pos
  have hentry2 := b.entry.size_even
  have hsize : (BitVec.ofNat 8 b.entry.size).toNat = b.entry.size := by
    rw [BitVec.toNat_ofNat, Nat.mod_eq_of_lt (by omega)]
  have hslot := findSlot_eq hok (by omega) hs (by omega) (BitVec.ofNat 8 b.entry.size) 0#8
  rw [hsize, ← hactive, if_pos hfit] at hslot
  -- The record goes behind the active data.
  obtain ⟨m1, hwrite1, hcell1⟩ := write_cells hok s.mem record (k := b.header.size + active)
    (n := b.entry.size) hentry (by omega)
  -- The header is read again and describes the longer data.
  obtain ⟨header, hread, hheader⟩ := readInto_cells hok (s := ⟨area, m1⟩) (Or.inr rfl)
    b.uninitialised (k := 0) (n := b.header.size) hpos (by omega)
  have hbytes : ∀ i < b.header.size, header i
      = put (cell area s.mem) (b.header.size + active) b.entry.size record i := by
    intro i hi
    rw [hheader i hi, Nat.zero_add, hcell1 i (by unfold cellCount; omega)]
  have hold : b.header.activeRange header = active := by
    rw [hactive]
    refine b.header.activeRange_congr fun i hi => ?_
    rw [hbytes i hi, put_outside (Or.inl (by omega))]
  obtain ⟨longer, hlonger⟩ : ∃ h, h = b.header.setActiveRange header (active + b.entry.size) :=
    ⟨_, rfl⟩
  have hext : ∀ i < b.header.size, longer i = extendActive b (cell area s.mem) record i := by
    intro i hi
    rw [hlonger, extendActive, ← hactive]
    exact put_congr _ (hbytes i hi)
  have hextActive : b.header.activeRange (extendActive b (cell area s.mem) record)
      = active + b.entry.size := by
    rw [extendActive, ← hactive, HeaderLayout.activeRange_setActiveRange _ _ (by omega)]
  have hextData : ∀ o < cellCount, b.header.size ≤ o →
      cell area m1 o = extendActive b (cell area s.mem) record o := by
    intro o ho hge
    rw [hcell1 o ho, extendActive, ← hactive, HeaderLayout.setActiveRange_outside _ _ _ hge]
  have hcheck := calculateChecksum_eq hok hsum m1 hext
    (fun i hi => hextData _ (by unfold cellCount; omega) (by omega)) (by omega) (by omega) 0#16
  rw [hextActive] at hcheck
  -- The header is written back with the new checksum.
  obtain ⟨sum, hsumEq⟩ : ∃ c, c = checksumOf b (extendActive b (cell area s.mem) record)
      (active + b.entry.size) := ⟨_, rfl⟩
  obtain ⟨m2, hwrite2, hcell2⟩ := write_cells hok m1 (b.header.setChecksum longer sum) (k := 0)
    (n := b.header.size) hpos (by omega)
  obtain ⟨last, hlast, -⟩ := readInto_cells hok (s := ⟨area, m2⟩) (Or.inr rfl) (fun _ => 0#8)
    (k := 0) (n := b.header.size) hpos (by omega)
  refine ⟨m2, ?_, fun o ho => ?_⟩
  · have hdata : BitVec.ofNat 8 b.header.size + BitVec.ofNat 8 active
        = BitVec.ofNat 8 (b.header.size + active) := (BitVec.ofNat_add ..).symm
    rw [msWheaESAddRecordV0Internal, hslot]
    simp only [Status.success_isError, Bool.false_eq_true, if_false, headerSize, hdata, hwrite1,
      hread, hold, ← hlonger, hcheck, ← hsumEq, hwrite2, hlast]
  · rw [hcell2 o ho, appendRecord, ← hactive, ← hsumEq]
    by_cases hin : o < b.header.size
    · have hput : put (cell area m1) 0 b.header.size (b.header.setChecksum longer sum) (0 + o)
          = b.header.setChecksum longer sum o := put_inside hin
      rw [Nat.zero_add] at hput
      rw [hput]
      exact put_congr _ (hext o hin)
    · rw [put_outside (Or.inr (by omega)), HeaderLayout.setChecksum_outside _ _ _ (by omega)]
      exact hextData o ho (by omega)

end Area

/-! ## The fields of a record -/

/-- The bytes are a record of these arguments. -/
structure RecordOf (b : Build) (a : RecordArgs) (record : Buffer) : Prop where
  rev : value record b.entry.revAt b.entry.revBytes = b.msWheaRev0 % 256 ^ b.entry.revBytes
  errorStatusValue : value record b.entry.errorStatusValueAt 4 = a.errorStatusValue.toNat
  additionalInfo1 : value record b.entry.additionalInfo1At 8 = a.additionalInfo1.toNat
  additionalInfo2 : value record b.entry.additionalInfo2At 8 = a.additionalInfo2.toNat
  moduleID : ∀ i < 16, record (b.entry.moduleIDAt + i) = a.moduleId.getD b.callerIdGuid i
  partitionID : ∀ i < 16,
    record (b.entry.partitionIDAt + i) = a.partitionId.getD (fun _ => 0#8) i

section Record

variable (b : Build) (a : RecordArgs)

/-- The fields that are stored in any record. -/
def leadingFields : List (Nat × Nat × Buffer) :=
  [(b.entry.revAt, b.entry.revBytes, bytesOf b.msWheaRev0),
    (b.entry.errorStatusValueAt, 4, bytesOf a.errorStatusValue.toNat),
    (b.entry.additionalInfo1At, 8, bytesOf a.additionalInfo1.toNat),
    (b.entry.additionalInfo2At, 8, bytesOf a.additionalInfo2.toNat),
    (b.entry.moduleIDAt, 16, a.moduleId.getD b.callerIdGuid)]

/-- All fields, where a null pointer stands for a GUID of zeros. -/
def recordFields : List (Nat × Nat × Buffer) :=
  leadingFields b a ++ [(b.entry.partitionIDAt, 16, a.partitionId.getD fun _ => 0#8)]

theorem recordFields_apart :
    FieldsApart ((recordFields b a).map fun field => (field.1, field.2.1)) :=
  b.entry.fields_apart

/-- The last field is apart from the others. -/
theorem leadingFields_apart {field : Nat × Nat × Buffer} (hmem : field ∈ leadingFields b a) :
    field.1 + field.2.1 ≤ b.entry.partitionIDAt ∨ b.entry.partitionIDAt + 16 ≤ field.1 := by
  have hapart := recordFields_apart b a
  rw [FieldsApart, List.pairwise_map, recordFields, List.pairwise_append] at hapart
  exact hapart.2.2 field hmem _ List.mem_cons_self

theorem wheaV0_eq : wheaV0 b a = putFields (fun _ => 0#8) (recordFields b a) := by
  have hlast : putFields (fun _ => 0#8) (recordFields b a)
      = put (putFields (fun _ => 0#8) (leadingFields b a)) b.entry.partitionIDAt 16
          (a.partitionId.getD fun _ => 0#8) := List.foldl_append
  rw [hlast]
  cases hpartition : a.partitionId with
  | some guid =>
      rw [wheaV0, hpartition]
      rfl
  | none =>
      have hleading : wheaV0 b a = putFields (fun _ => 0#8) (leadingFields b a) := by
        rw [wheaV0, hpartition]
        rfl
      rw [hleading, Option.getD_none]
      funext i
      by_cases hin : b.entry.partitionIDAt ≤ i ∧ i < b.entry.partitionIDAt + 16
      · -- The other fields leave the zeros in its place.
        rw [put, if_pos hin]
        refine putFields_outside fun field hmem => ?_
        have := leadingFields_apart b a hmem
        omega
      · exact (put_outside (by omega)).symm

theorem wheaV0_recordOf : RecordOf b a (wheaV0 b a) := by
  have hfield : ∀ {field : Nat × Nat × Buffer}, field ∈ recordFields b a →
      ∀ i < field.2.1, wheaV0 b a (field.1 + i) = field.2.2 i := by
    intro field hmem i hi
    rw [wheaV0_eq]
    exact putFields_inside (recordFields_apart b a) hmem hi
  have hvalue : ∀ {offset n v : Nat}, (offset, n, bytesOf v) ∈ recordFields b a →
      value (wheaV0 b a) offset n = v % 256 ^ n :=
    fun hmem => value_bytesOf _ _ (hfield hmem)
  have hstored : ∀ {n : Nat} (h : n < 6), (recordFields b a).get ⟨n, h⟩ ∈ recordFields b a :=
    fun h => List.get_mem _ ⟨_, h⟩
  exact {
    rev := hvalue (hstored (n := 0) (by decide))
    errorStatusValue := (hvalue (hstored (n := 1) (by decide))).trans
      (Nat.mod_eq_of_lt a.errorStatusValue.isLt)
    additionalInfo1 := (hvalue (hstored (n := 2) (by decide))).trans
      (Nat.mod_eq_of_lt a.additionalInfo1.isLt)
    additionalInfo2 := (hvalue (hstored (n := 3) (by decide))).trans
      (Nat.mod_eq_of_lt a.additionalInfo2.isLt)
    moduleID := hfield (hstored (n := 4) (by decide))
    partitionID := hfield (hstored (n := 5) (by decide)) }

end Record

/-- Only the bytes of the entry matter. -/
theorem RecordOf.congr {b : Build} {a : RecordArgs} {record record' : Buffer}
    (h : RecordOf b a record) (heq : ∀ i < b.entry.size, record' i = record i) :
    RecordOf b a record' := by
  have hfit : ∀ {offset n : Nat}, (offset, n) ∈ b.entry.spans →
      ∀ i < n, record' (offset + i) = record (offset + i) := by
    intro offset n hmem i hi
    have := b.entry.fields_fit _ hmem
    exact heq _ (by omega)
  refine ⟨(value_congr (hfit ?_)).trans h.rev, (value_congr (hfit ?_)).trans h.errorStatusValue,
    (value_congr (hfit ?_)).trans h.additionalInfo1,
    (value_congr (hfit ?_)).trans h.additionalInfo2,
    fun i hi => (hfit ?_ i hi).trans (h.moduleID i hi),
    fun i hi => (hfit ?_ i hi).trans (h.partitionID i hi)⟩ <;> simp [EntryFields.spans]

/-! ## Sequences of records -/

/-- What a call of `MsWheaESAddRecordV0` with the record `record` guarantees. -/
structure RecordAdded (b : Build) (area : Addr) (record : Buffer) (s : State) (status : Status)
    (s' : State) : Prop where
  looked : Looked area s'
  kept : StoreOk b (cell area s'.mem)
  grown : status = .success → b.header.activeRange (cell area s'.mem)
    = b.header.activeRange (cell area s.mem) + b.entry.size
  stored : status = .success → ∀ i < b.entry.size, cell area s'.mem
    (b.header.size + b.header.activeRange (cell area s.mem) + i) = record i
  earlier : status = .success → ∀ i < b.header.activeRange (cell area s.mem),
    cell area s'.mem (b.header.size + i) = cell area s.mem (b.header.size + i)
  full : status = .outOfResources ↔ (msWheaESGetMaxDataCount b).toNat
    < b.header.activeRange (cell area s.mem) + b.entry.size
  unchanged : status = .outOfResources → s'.mem = s.mem
  no_other : status = .success ∨ status = .outOfResources

section Sequence

variable {b : Build} {area : Addr}

theorem addRecord_added (hok : AreaOk b area)
    (hsum : ∀ buf n, n % 2 = 0 → b.calculateSum16 buf n = sum16 buf (n / 2))
    (hle : b.header.size + b.entry.size ≤ (msWheaEarlyStorageGetMaxSize b.toPlatform).toNat)
    {s : State} (hs : Looked area s) (hstore : StoreOk b (cell area s.mem)) (record : Buffer) :
    RecordAdded b area record s (msWheaESAddRecordV0Internal b (some record) s).1
      (msWheaESAddRecordV0Internal b (some record) s).2 := by
  rw [getMaxSize_toNat hok.capacity] at hle
  have hlo := hok.capacity.1
  have hhi := hok.capacity.2
  have hmax := getMaxDataCount_toNat hok (by omega)
  have hactive := hstore.active_le
  by_cases hfit : b.header.activeRange (cell area s.mem) + b.entry.size
      ≤ (msWheaESGetMaxDataCount b).toNat
  · obtain ⟨m', heq, hcells⟩ := addRecord_fits hok hsum (by omega) hs hstore.active_even hfit record
    -- The record fits: the store is the one with the record behind the others.
    have hgrown : b.header.activeRange (appendRecord b (cell area s.mem) record)
        = b.header.activeRange (cell area s.mem) + b.entry.size :=
      appendRecord_activeRange (by omega)
    have hcell : ∀ o < b.header.size + b.header.activeRange (cell area s.mem) + b.entry.size,
        cell area m' o = appendRecord b (cell area s.mem) record o :=
      fun o ho => hcells o (by unfold cellCount; omega)
    rw [heq]
    exact {
      looked := Or.inr rfl
      kept := (hstore.append hfit record).congr fun i hi => hcell i (by omega)
      grown := by
        intro _
        rw [← hgrown]
        exact b.header.activeRange_congr fun i hi => hcell i (by omega)
      stored := by
        intro _ i hi
        rw [hcell _ (by omega), appendRecord_record hi]
      earlier := by
        intro _ i hi
        rw [hcell _ (by omega), appendRecord_data hi]
      full := ⟨fun h => Status.noConfusion h, fun h => absurd h (by omega)⟩
      unchanged := fun h => Status.noConfusion h
      no_other := Or.inl rfl }
  · rw [addRecord_full hok (by omega) hs (by omega) (by omega) record]
    exact {
      looked := Or.inr rfl
      kept := hstore
      grown := fun h => Status.noConfusion h
      stored := fun h => Status.noConfusion h
      earlier := fun h => Status.noConfusion h
      full := ⟨fun _ => by omega, fun _ => rfl⟩
      unchanged := fun _ => rfl
      no_other := Or.inr rfl }

/-- The state after a sequence of calls. -/
def addRecords (b : Build) (calls : List RecordArgs) (s : State) : State :=
  calls.foldl (fun s a => (msWheaESAddRecordV0 b a s).2) s

theorem addRecords_kept (hok : AreaOk b area)
    (hsum : ∀ buf n, n % 2 = 0 → b.calculateSum16 buf n = sum16 buf (n / 2))
    (hle : b.header.size + b.entry.size ≤ (msWheaEarlyStorageGetMaxSize b.toPlatform).toNat)
    (calls : List RecordArgs) : ∀ {s : State}, Looked area s → StoreOk b (cell area s.mem) →
      Looked area (addRecords b calls s) ∧ StoreOk b (cell area (addRecords b calls s).mem) := by
  induction calls with
  | nil => intro s hs hstore; exact ⟨hs, hstore⟩
  | cons a calls ih =>
      intro s hs hstore
      have hadded := addRecord_added hok hsum hle hs hstore (wheaV0 b a)
      exact ih hadded.looked hadded.kept

/-- After any sequence of calls, the next one keeps the store well formed, appends exactly its
    record when it succeeds, the fields of which read back the arguments, and fails exactly when
    the store is full, which leaves it as it is. -/
theorem addRecords_then_added (hok : AreaOk b area)
    (hsum : ∀ buf n, n % 2 = 0 → b.calculateSum16 buf n = sum16 buf (n / 2))
    (hle : b.header.size + b.entry.size ≤ (msWheaEarlyStorageGetMaxSize b.toPlatform).toNat)
    {s : State} (hs : Looked area s) (hstore : StoreOk b (cell area s.mem))
    (calls : List RecordArgs) (a : RecordArgs) :
    RecordAdded b area (wheaV0 b a) (addRecords b calls s)
        (msWheaESAddRecordV0 b a (addRecords b calls s)).1
        (msWheaESAddRecordV0 b a (addRecords b calls s)).2 ∧
      ((msWheaESAddRecordV0 b a (addRecords b calls s)).1 = .success →
        RecordOf b a fun i => cell area (msWheaESAddRecordV0 b a (addRecords b calls s)).2.mem
          (b.header.size + b.header.activeRange (cell area (addRecords b calls s).mem) + i)) := by
  obtain ⟨hs', hstore'⟩ := addRecords_kept hok hsum hle calls hs hstore
  have hadded := addRecord_added hok hsum hle hs' hstore' (wheaV0 b a)
  exact ⟨hadded, fun hok => (wheaV0_recordOf b a).congr (hadded.stored hok)⟩

end Sequence

/-! ## A small store -/

/-- A header of 8 bytes and records of 56 bytes. -/
def sampleBuild : Build where
  capacity := 0x80#32
  defaultValue := 0xFF#8
  logBufferArea := some 0x9FFF7000#64
  header := {
    size := 8, checksumAt := 6, activeRangeAt := 4, activeRangeBytes := 2
    size_even := rfl, checksum_even := rfl, checksum_fits := by decide
    activeRange_fits := by decide, activeRange_pos := by decide, fields_apart := by decide }
  entry := {
    size := 56, revAt := 0, revBytes := 1, errorStatusValueAt := 4, additionalInfo1At := 8
    additionalInfo2At := 16, moduleIDAt := 24, partitionIDAt := 40
    size_even := rfl, size_pos := by decide, fields_fit := by decide
    fields_apart := by unfold FieldsApart EntryFields.spans; decide }
  msWheaRev0 := 0
  callerIdGuid := fun _ => 0xA5#8
  calculateSum16 := fun buf n => sum16 buf (n / 2)
  uninitialised := fun _ => 0xCC#8

def sampleRecord : RecordArgs where
  errorStatusValue := 0x50000000#32
  additionalInfo1 := 1#64
  additionalInfo2 := 2#64
  moduleId := none
  partitionId := none

theorem addRecords_then_added_sample :
    RecordAdded sampleBuild 0x9FFF7000#64 (wheaV0 sampleBuild sampleRecord)
        (addRecords sampleBuild [sampleRecord] ⟨0#64, fun _ => 0#8⟩)
        (msWheaESAddRecordV0 sampleBuild sampleRecord
          (addRecords sampleBuild [sampleRecord] ⟨0#64, fun _ => 0#8⟩)).1
        (msWheaESAddRecordV0 sampleBuild sampleRecord
          (addRecords sampleBuild [sampleRecord] ⟨0#64, fun _ => 0#8⟩)).2 ∧
      ((msWheaESAddRecordV0 sampleBuild sampleRecord
          (addRecords sampleBuild [sampleRecord] ⟨0#64, fun _ => 0#8⟩)).1 = .success →
        RecordOf sampleBuild sampleRecord fun i => cell 0x9FFF7000#64
          (msWheaESAddRecordV0 sampleBuild sampleRecord
            (addRecords sampleBuild [sampleRecord] ⟨0#64, fun _ => 0#8⟩)).2.mem
          (sampleBuild.header.size + sampleBuild.header.activeRange (cell 0x9FFF7000#64
            (addRecords sampleBuild [sampleRecord] ⟨0#64, fun _ => 0#8⟩).mem) + i)) :=
  addRecords_then_added (b := sampleBuild) ⟨⟨by decide, by decide⟩, rfl, by decide⟩
    (fun _ _ _ => rfl) (by decide) (Or.inl rfl) ⟨by decide, by decide, by decide⟩ [sampleRecord]
    sampleRecord

end WheaEarlyStorage
