/-
  MsmnilePkg.SerialPort.Sdm845Read

  `SDM845GetByte` and `SerialPortRead` of UartSerialPortLib.c.

  Bytes wait in `Transfer.FifoBuffer` between the words of the receive FIFO and the
  buffer of the caller.  An access outside `FifoBuffer` and a shift by the width of a word
  or more let the call fail.
-/

import MsmnilePkg.Efi
import MsmnilePkg.Lib.Loop
import MsmnilePkg.SerialPort.Sdm845

namespace Sdm845

open ByteMem Efi LittleEndian Loop

/-! ## The code -/

def lastValidBytes (rxFifoStatus : BitVec 32) : BitVec 32 :=
  (rxFifoStatus &&& rxLastValidBytesMask) >>> rxLastValidBytesShift

def wordCount (rxFifoStatus : BitVec 32) : BitVec 32 := rxFifoStatus &&& rxFifoWc

/-- The FIFO's status counts nothing, and the interrupt's status says that there are words. -/
def AtWatermark (irqStatus rxFifoStatus : BitVec 32) : Prop :=
  lastValidBytes rxFifoStatus = 0#32 ∧ wordCount rxFifoStatus = 0#32 ∧
    irqStatus &&& rxFifoWatermarkIrq ≠ 0#32

instance (irqStatus rxFifoStatus : BitVec 32) : Decidable (AtWatermark irqStatus rxFifoStatus) :=
  inferInstanceAs (Decidable (_ ∧ _ ∧ _))

/-- `WordsToRead` -/
def wordsToRead (irqStatus rxFifoStatus watermark : BitVec 32) : BitVec 32 :=
  if AtWatermark irqStatus rxFifoStatus then watermark
  else if lastValidBytes rxFifoStatus ≠ 0#32 ∧ lastValidBytes rxFifoStatus ≠ 4#32 then
    wordCount rxFifoStatus - 1#32
  else wordCount rxFifoStatus

/-- `AvailableBytes` -/
def availableBytes (irqStatus rxFifoStatus watermark : BitVec 32) : BitVec 32 :=
  wordsToRead irqStatus rxFifoStatus watermark * 4#32 + lastValidBytes rxFifoStatus

/-- The number of valid bytes in word `j`: of the words that the FIFO's status counts the last
    one may be valid in part, and where it counts none there are as many as `watermark`. -/
def validBytes (rxFifoStatus watermark : BitVec 32) (j : Nat) : Nat :=
  if lastValidBytes rxFifoStatus = 0#32 ∧ wordCount rxFifoStatus = 0#32 then
    if j < watermark.toNat then 4 else 0
  else if j + 1 < (wordCount rxFifoStatus).toNat then 4
  else if j + 1 = (wordCount rxFifoStatus).toNat then
    if lastValidBytes rxFifoStatus = 0#32 then 4 else min (lastValidBytes rxFifoStatus).toNat 4
  else 0

/-- Read FIFO register `n`: a word is popped whose first `valid` bytes count. -/
def State.popWord (u : Uart) (valid n : Nat) (s : State) : State :=
  { s.read u geniData (geniRxFifonOffs (BitVec.ofNat 32 n)) with
    popped := s.popped ++ (List.range valid).map (byteOf32 (s.value u)) }

def loadByte (i : Nat) (s : State) : Option Byte :=
  if i < maxRxFifoSize then some (s.fifoBuffer i) else none

def storeByte (i : Nat) (v : Byte) (s : State) : Option State :=
  if i < maxRxFifoSize then some { s with fifoBuffer := put s.fifoBuffer i 1 fun _ => v }
  else none

/-- A turn of the loop over the whole words. -/
def readWord (u : Uart) (valid : Nat → Nat) (index : Nat) (s : State) : Option State :=
  let rxFifo := s.value u
  let arrayIndex := 4 * index
  (storeByte (0 + arrayIndex) (byteOf32 rxFifo 0) (s.popWord u (valid index) index)).bind fun s =>
  (storeByte (1 + arrayIndex) (byteOf32 rxFifo 1) s).bind fun s =>
  (storeByte (2 + arrayIndex) (byteOf32 rxFifo 2) s).bind fun s =>
  storeByte (3 + arrayIndex) (byteOf32 rxFifo 3) s

/-- A turn of the loop over the bytes of the last word. -/
def readPartialByte (rxFifo : BitVec 32) (arrayIndex index : Nat) (s : State) : Option State :=
  if index * 8 < 32 then storeByte (arrayIndex + index) ((rxFifo >>> (index * 8)).setWidth 8) s
  else none

/-- The whole words, and the bytes of the word behind them. -/
def fetch (u : Uart) (valid : Nat → Nat) (words partialBytes : Nat) (s : State) : Option State :=
  (tryTurns (readWord u valid) words s).bind fun s =>
  if 0 < partialBytes then
    tryTurns (readPartialByte (s.value u) (4 * words)) partialBytes
      (s.popWord u (valid words) words)
  else some s

/-- The readings of the next fill, in the order of the reads. -/
def State.irqStatus (u : Uart) (s : State) : BitVec 32 := u.reads s.reads

def State.rxFifoStatus (u : Uart) (s : State) : BitVec 32 := u.reads (s.reads + 1)

def State.watermark (u : Uart) (s : State) : BitVec 32 := u.reads (s.reads + 2)

/-- The accesses that a fill begins with; the interrupts are cleared before the FIFO's status is
    read. -/
def poll (u : Uart) (s : State) : State :=
  let t := ((s.read u geniData geniSIrqStatusOffs).write u geniData geniSIrqClearOffs
    (s.irqStatus u)).read u geniData geniRxFifoStatusOffs
  if AtWatermark (s.irqStatus u) (s.rxFifoStatus u) then t.read u geniData geniRxWatermarkRegOffs
  else t

/-- What is done when no byte waits. -/
def fill (u : Uart) (s : State) : Option (Status × State) :=
  let polled := poll u { s with ptrToFifoBuffer := 0 }
  let words := wordsToRead (s.irqStatus u) (s.rxFifoStatus u) (s.watermark u)
  let available := availableBytes (s.irqStatus u) (s.rxFifoStatus u) (s.watermark u)
  -- Too much for the buffer: the port is set up again and nothing is read.
  if maxRxFifoSize < available.toNat then some (.notReady, (initializePort u polled).2)
  else
    (fetch u (validBytes (s.rxFifoStatus u) words) words.toNat
      (lastValidBytes (s.rxFifoStatus u)).toNat
      { polled with availableBytes := available }).map fun s => (.success, s)

/-- How `SDM845GetByte` ends. -/
inductive Got where
  | byte (b : Byte) (s : State)
  | failed (status : Status) (s : State)

/-- The end of `SDM845GetByte`. -/
def takeByte (s : State) : Option Got :=
  if s.availableBytes ≠ 0#32 then
    (loadByte s.ptrToFifoBuffer s).map fun b =>
      .byte b { s with
        ptrToFifoBuffer := s.ptrToFifoBuffer + 1
        availableBytes := s.availableBytes - 1#32 }
  else some (.failed .outOfResources s)

/-- `SDM845GetByte` -/
def getByte (u : Uart) (s : State) : Option Got :=
  -- A base of zero stands for no port.
  if u.base = 0#32 then some (.failed .notReady s)
  else
    (if s.availableBytes = 0#32 then fill u s else some (.success, s)).bind fun r =>
      if r.1.isError then some (.failed r.1 r.2) else takeByte r.2

/-- A call that is under way, and the bytes in the buffer of the caller; `i` is their number. -/
structure Call where
  state : State
  buff : List Byte

/-- A turn of the loop of `SerialPortRead`. -/
def turn (u : Uart) (numberOfBytes : BitVec 64) (c : Call) : Option (Turn Call) :=
  if c.buff.length < numberOfBytes.toNat then
    (getByte u c.state).map fun
      | .byte b s => .again ⟨s, c.buff ++ [b]⟩
      | .failed _ s => .leave ⟨s, c.buff⟩
  else some (.leave c)

/-- `SerialPortRead` -/
def serialPortRead (u : Uart) (numberOfBytes : BitVec 64) (s : State) : Option Call :=
  tryLoop (turn u numberOfBytes) (numberOfBytes.toNat + 1) ⟨s, []⟩

/-- The calls so far: the static data, and the bytes they have returned. -/
structure Session where
  state : State
  returned : List Byte

def readCall (u : Uart) (numberOfBytes : BitVec 64) (x : Session) : Option Session :=
  (serialPortRead u numberOfBytes x.state).map fun c => ⟨c.state, x.returned ++ c.buff⟩

/-! ## What is asked of a run -/

/-- The bytes that wait for the next call. -/
def State.waiting (s : State) : List Byte :=
  slice s.fifoBuffer s.ptrToFifoBuffer s.availableBytes.toNat

/-- The valid bytes that were popped are those that were returned and those that wait, and the
    accesses were the UART's. -/
structure Exact (u : Uart) (s : State) (returned : List Byte) : Prop where
  inOrder : s.popped = returned ++ s.waiting
  onBase : OnBase u s

/-- No access to `FifoBuffer` goes wrong, and the bytes are returned as they are popped. -/
def ReadsExactly (u : Uart) (calls : List (BitVec 64)) : Prop :=
  ∃ x, tryCalls (readCall u) calls ⟨State.initial, []⟩ = some x ∧ Exact u x.state x.returned

/-- The readings that the code does not go wrong on. -/
structure FillOk (irqStatus rxFifoStatus watermark : BitVec 32) : Prop where
  /-- Four valid bytes in the last word are counted twice, unless that is too much. -/
  four : (lastValidBytes rxFifoStatus).toNat = 4 → 31 < (wordCount rxFifoStatus).toNat
  /-- A word has no more than four bytes. -/
  more : 4 < (lastValidBytes rxFifoStatus).toNat →
    132 < 4 * (wordCount rxFifoStatus).toNat + (lastValidBytes rxFifoStatus).toNat
  /-- The size of the words at the watermark does not overflow. -/
  watermark : AtWatermark irqStatus rxFifoStatus →
    watermark.toNat ≤ 32 ∨ 128 < 4 * watermark.toNat % 2 ^ 32

/-- The condition on the state before a byte is asked for: when no byte waits, the base fits in
    a byte and the readings of the next fill are good ones. -/
def ByteOk (u : Uart) (s : State) : Prop :=
  u.base ≠ 0#32 → s.availableBytes = 0#32 →
    u.base.toNat < 256 ∧
      FillOk (s.irqStatus u) (s.rxFifoStatus u) (s.watermark u)

/-! ## The readings -/

theorem lastValidBytes_lt (rxFifoStatus : BitVec 32) : (lastValidBytes rxFifoStatus).toNat < 8 :=
  Nat.lt_of_le_of_lt (field_le rxFifoStatus rxLastValidBytesMask rxLastValidBytesShift) (by decide)

theorem wordCount_lt (rxFifoStatus : BitVec 32) : (wordCount rxFifoStatus).toNat < 2 ^ 25 :=
  Nat.lt_of_le_of_lt (masked_le rxFifoStatus rxFifoWc) (by decide)

/-- What a fill makes of its readings: `w` whole words and `p` bytes behind them, of which `m`
    are valid. -/
structure Counted (irqStatus rxFifoStatus watermark : BitVec 32) (w p m : Nat) : Prop where
  words : (wordsToRead irqStatus rxFifoStatus watermark).toNat = w
  last : (lastValidBytes rxFifoStatus).toNat = p
  available : (availableBytes irqStatus rxFifoStatus watermark).toNat = 4 * w + p
  fits : 4 * w + p ≤ 128
  part : p ≤ 4
  whole : ∀ j < w, validBytes rxFifoStatus (wordsToRead irqStatus rxFifoStatus watermark) j = 4
  valid : 0 < p → validBytes rxFifoStatus (wordsToRead irqStatus rxFifoStatus watermark) w = m
  le : m ≤ p

/-- The ways the readings come out. -/
inductive Reading (irqStatus rxFifoStatus watermark : BitVec 32) : Prop
  | full (h : 128 < (availableBytes irqStatus rxFifoStatus watermark).toNat)
      (hok : FillOk irqStatus rxFifoStatus watermark)
  | counted {w p : Nat} (h : Counted irqStatus rxFifoStatus watermark w p p)
      (hok : FillOk irqStatus rxFifoStatus watermark)
  | twice {w : Nat} (h : Counted irqStatus rxFifoStatus watermark w 4 0)
      (hbad : ¬FillOk irqStatus rxFifoStatus watermark)
  | wrong (h : (availableBytes irqStatus rxFifoStatus watermark).toNat ≤ 128)
      (hwrong : 32 < (wordsToRead irqStatus rxFifoStatus watermark).toNat ∨
        4 < (lastValidBytes rxFifoStatus).toNat)
      (hbad : ¬FillOk irqStatus rxFifoStatus watermark)

section Readings

variable {irqStatus rxFifoStatus watermark : BitVec 32}

theorem availableBytes_toNat (irqStatus rxFifoStatus watermark : BitVec 32) :
    (availableBytes irqStatus rxFifoStatus watermark).toNat =
      (4 * (wordsToRead irqStatus rxFifoStatus watermark).toNat
        + (lastValidBytes rxFifoStatus).toNat) % 2 ^ 32 := by
  rw [availableBytes, BitVec.toNat_add, BitVec.toNat_mul]
  show (_ * 4 % 2 ^ 32 + _) % 2 ^ 32 = _
  omega

/-- Only the watermark tells of words. -/
theorem reading_atWatermark (h : AtWatermark irqStatus rxFifoStatus) :
    Reading irqStatus rxFifoStatus watermark := by
  have hlast := h.1
  have hcount := h.2.1
  have hwords : wordsToRead irqStatus rxFifoStatus watermark = watermark := if_pos h
  have havail := availableBytes_toNat irqStatus rxFifoStatus watermark
  rw [hwords, hlast] at havail
  have hzero : (0#32).toNat = 0 := rfl
  have hok : (watermark.toNat ≤ 32 ∨ 128 < 4 * watermark.toNat % 2 ^ 32) →
      FillOk irqStatus rxFifoStatus watermark := fun hsmall =>
    ⟨fun hfour => by rw [hlast, hzero] at hfour; omega,
      fun hmore => by rw [hlast, hzero] at hmore; omega, fun _ => hsmall⟩
  -- The size in bytes is taken modulo 2 ^ 32, so it may be small for many words.
  by_cases hfull : 128 < (availableBytes irqStatus rxFifoStatus watermark).toNat
  · exact .full hfull (hok (.inr (by omega)))
  · by_cases hsmall : watermark.toNat ≤ 32
    · refine .counted (w := watermark.toNat) (p := 0) ?_ (hok (.inl hsmall))
      refine ⟨by rw [hwords], by rw [hlast, hzero], by omega, by omega, by omega, ?_, ?_, ?_⟩
      · intro j hj
        rw [validBytes, if_pos ⟨hlast, hcount⟩, hwords, if_pos hj]
      · omega
      · omega
    · refine .wrong (by omega) (.inl (by rw [hwords]; omega)) fun hbad => ?_
      have hover := hbad.watermark h
      omega

/-- The FIFO's status counts whole words only, or nothing. -/
theorem reading_whole (h : ¬AtWatermark irqStatus rxFifoStatus)
    (hlast : (lastValidBytes rxFifoStatus).toNat = 0) :
    Reading irqStatus rxFifoStatus watermark := by
  have hlast' : lastValidBytes rxFifoStatus = 0#32 := BitVec.eq_of_toNat_eq hlast
  have hwords : wordsToRead irqStatus rxFifoStatus watermark = wordCount rxFifoStatus := by
    rw [wordsToRead, if_neg h, if_neg fun hpart => hpart.1 hlast']
  have havail := availableBytes_toNat irqStatus rxFifoStatus watermark
  have hcount := wordCount_lt rxFifoStatus
  rw [hwords, hlast] at havail
  have hok : FillOk irqStatus rxFifoStatus watermark :=
    ⟨fun hfour => by omega, fun hmore => by omega, fun hat => absurd hat h⟩
  by_cases hfull : 128 < (availableBytes irqStatus rxFifoStatus watermark).toNat
  · exact .full hfull hok
  · -- All words count as whole ones, with no byte behind them.
    refine .counted (w := (wordCount rxFifoStatus).toNat) (p := 0) ?_ hok
    refine ⟨by rw [hwords], hlast, by omega, by omega, by omega, ?_, by omega, by omega⟩
    intro j hj
    have hsome : ¬(lastValidBytes rxFifoStatus = 0#32 ∧ wordCount rxFifoStatus = 0#32) := by
      rintro ⟨-, hzero⟩
      rw [hzero] at hj
      exact absurd hj (Nat.not_lt_zero j)
    rw [validBytes, if_neg hsome, if_pos hlast']
    split
    · rfl
    · rw [if_pos (by omega)]

/-- The last word is valid in full, and said to be so. -/
theorem reading_four (hlast : (lastValidBytes rxFifoStatus).toNat = 4) :
    Reading irqStatus rxFifoStatus watermark := by
  have hlast' : lastValidBytes rxFifoStatus = 4#32 := BitVec.eq_of_toNat_eq hlast
  have hne : lastValidBytes rxFifoStatus ≠ 0#32 := by
    rw [hlast']
    decide
  have hat : ¬AtWatermark irqStatus rxFifoStatus := fun h => hne h.1
  have hwords : wordsToRead irqStatus rxFifoStatus watermark = wordCount rxFifoStatus := by
    rw [wordsToRead, if_neg hat, if_neg fun hpart => hpart.2 hlast']
  have havail := availableBytes_toNat irqStatus rxFifoStatus watermark
  have hcount := wordCount_lt rxFifoStatus
  rw [hwords, hlast] at havail
  by_cases hfull : 128 < (availableBytes irqStatus rxFifoStatus watermark).toNat
  · exact .full hfull ⟨fun _ => by omega, fun hmore => by omega, fun h => absurd h hat⟩
  · -- The last word is among the whole ones and counted as four bytes more.
    refine .twice (w := (wordCount rxFifoStatus).toNat) ?_ fun hbad => ?_
    · refine ⟨by rw [hwords], hlast, by omega, by omega, by omega, ?_, ?_, by omega⟩
      · intro j hj
        rw [validBytes, if_neg fun hnone => hne hnone.1, hlast]
        split
        · rfl
        · rw [if_pos (by omega)]
          rfl
      · intro _
        rw [validBytes, if_neg fun hnone => hne hnone.1, if_neg (by omega), if_neg (by omega)]
    · have hmany := hbad.four hlast
      omega

/-- The last word is valid in part, or said to have more than four bytes. -/
theorem reading_part (hzero : (lastValidBytes rxFifoStatus).toNat ≠ 0)
    (hfour : (lastValidBytes rxFifoStatus).toNat ≠ 4) :
    Reading irqStatus rxFifoStatus watermark := by
  have hne : lastValidBytes rxFifoStatus ≠ 0#32 := fun h => hzero (by rw [h]; rfl)
  have hne' : lastValidBytes rxFifoStatus ≠ 4#32 := fun h => hfour (by rw [h]; rfl)
  have hat : ¬AtWatermark irqStatus rxFifoStatus := fun h => hne h.1
  have hwords : wordsToRead irqStatus rxFifoStatus watermark = wordCount rxFifoStatus - 1#32 := by
    rw [wordsToRead, if_neg hat, if_pos ⟨hne, hne'⟩]
  have hminus : (wordCount rxFifoStatus - 1#32).toNat
      = (2 ^ 32 - 1 + (wordCount rxFifoStatus).toNat) % 2 ^ 32 := BitVec.toNat_sub ..
  have havail := availableBytes_toNat irqStatus rxFifoStatus watermark
  have hcount := wordCount_lt rxFifoStatus
  have hlast := lastValidBytes_lt rxFifoStatus
  rw [hwords, hminus] at havail
  have hok : (4 < (lastValidBytes rxFifoStatus).toNat →
      132 < 4 * (wordCount rxFifoStatus).toNat + (lastValidBytes rxFifoStatus).toNat) →
      FillOk irqStatus rxFifoStatus watermark := fun hmore =>
    ⟨fun h => absurd h hfour, hmore, fun h => absurd h hat⟩
  by_cases hfull : 128 < (availableBytes irqStatus rxFifoStatus watermark).toNat
  · exact .full hfull (hok fun _ => by omega)
  · by_cases hmore : 4 < (lastValidBytes rxFifoStatus).toNat
    · refine .wrong (by omega) (.inr hmore) fun hbad => ?_
      have hmany := hbad.more hmore
      omega
    · -- With no word at all the count would be too large.
      have hsome : 0 < (wordCount rxFifoStatus).toNat := by omega
      refine .counted (w := (wordCount rxFifoStatus).toNat - 1)
        (p := (lastValidBytes rxFifoStatus).toNat) ?_ (hok fun h => absurd h hmore)
      refine ⟨by rw [hwords, hminus]; omega, rfl, by omega, by omega, by omega, ?_, ?_, le_refl _⟩
      · intro j hj
        rw [validBytes, if_neg fun hnone => hne hnone.1, if_pos (by omega)]
      · intro _
        rw [validBytes, if_neg fun hnone => hne hnone.1, if_neg (by omega), if_pos (by omega),
          if_neg hne, Nat.min_eq_left (by omega)]

theorem reading_cases (irqStatus rxFifoStatus watermark : BitVec 32) :
    Reading irqStatus rxFifoStatus watermark := by
  by_cases hat : AtWatermark irqStatus rxFifoStatus
  · exact reading_atWatermark hat
  · by_cases hzero : (lastValidBytes rxFifoStatus).toNat = 0
    · exact reading_whole hat hzero
    · by_cases hfour : (lastValidBytes rxFifoStatus).toNat = 4
      · exact reading_four hfour
      · exact reading_part hzero hfour

end Readings

/-! ## Words and bytes -/

section Store

variable {u : Uart} {s t v : State} {valid : Nat → Nat} {i n m w p : Nat}

/-- From `s` to `t` the next bytes were stored from `i` on, of which `n` were valid ones that
    were popped. -/
structure Stores (u : Uart) (i n : Nat) (s t : State) : Prop where
  availableBytes : t.availableBytes = s.availableBytes
  ptrToFifoBuffer : t.ptrToFifoBuffer = s.ptrToFifoBuffer
  below : ∀ j < i, t.fifoBuffer j = s.fifoBuffer j
  popped : t.popped = s.popped ++ slice t.fifoBuffer i n
  through : Through u s → Through u t
  grows : s.accesses ≠ [] → t.accesses ≠ []

theorem Stores.none (u : Uart) (i : Nat) (s : State) : Stores u i 0 s s :=
  ⟨rfl, rfl, fun _ _ => rfl, by rw [slice_zero, List.append_nil], id, id⟩

theorem Stores.trans (h : Stores u i n s t) (h' : Stores u (i + n) m t v) :
    Stores u i (n + m) s v := by
  have hkept : slice v.fifoBuffer i n = slice t.fifoBuffer i n :=
    slice_congr fun k hk => h'.below (i + k) (by omega)
  refine ⟨by rw [h'.availableBytes, h.availableBytes],
    by rw [h'.ptrToFifoBuffer, h.ptrToFifoBuffer], ?_, ?_, fun hs => h'.through (h.through hs),
    fun hs => h'.grows (h.grows hs)⟩
  · intro j hj
    rw [h'.below j (by omega), h.below j hj]
  · rw [h'.popped, h.popped, slice_add, hkept, List.append_assoc]

/-- A word whose first `m` bytes count, once `n` of its bytes are stored. -/
theorem Stores.popWord (u : Uart) (i k : Nat) (s : State) (hm : m ≤ n) :
    Stores u i m s { s.popWord u m k with
      fifoBuffer := put s.fifoBuffer i n (byteOf32 (s.value u)) } := by
  have htouches := read_touches u geniData (geniRxFifonOffs (BitVec.ofNat 32 k)) s
  refine ⟨rfl, rfl, fun j hj => put_outside (Or.inl hj), ?_, htouches.through, htouches.grows⟩
  -- The bytes that are popped are those that were stored last.
  show s.popped ++ _ = s.popped ++ slice (put s.fifoBuffer i n (byteOf32 (s.value u))) i m
  refine congrArg (s.popped ++ ·) (List.map_congr_left fun j hj => ?_)
  rw [put_inside (Nat.lt_of_lt_of_le (List.mem_range.mp hj) hm)]

theorem storeByte_some (hi : i < 128) (b : Byte) :
    storeByte i b s = some { s with fifoBuffer := put s.fifoBuffer i 1 fun _ => b } := if_pos hi

theorem readWord_some {k : Nat} (hfit : 4 * k + 4 ≤ 128) :
    readWord u valid k s = some { s.popWord u (valid k) k with
      fifoBuffer := put s.fifoBuffer (4 * k) 4 (byteOf32 (s.value u)) } := by
  rw [readWord, Nat.zero_add, Nat.add_comm 1, Nat.add_comm 2, Nat.add_comm 3]
  rw [storeByte_some (by omega), Option.bind_some, storeByte_some (by omega), Option.bind_some,
    storeByte_some (by omega), Option.bind_some, storeByte_some (by omega)]
  rw [← put_four]
  rfl

theorem readWords_some (hfit : 4 * w ≤ 128) (hvalid : ∀ k < w, valid k = 4) :
    ∃ t, tryTurns (readWord u valid) w s = some t ∧ Stores u 0 (4 * w) s t := by
  -- The invariant is that k words are stored and popped.
  refine tryTurns_some (I := fun k t => Stores u 0 (4 * k) s t) (Stores.none u 0 s) ?_
  intro k hk t ht
  refine ⟨_, readWord_some (by omega), ?_⟩
  rw [hvalid k hk]
  have hword := Stores.popWord u (0 + 4 * k) k t (m := 4) (n := 4) (Nat.le_refl 4)
  rw [Nat.zero_add] at hword
  exact ht.trans (by rwa [Nat.zero_add])

/-- The bytes of a word are stored one by one. -/
theorem readPartial_some (hfit : i + p ≤ 128) (hp : p ≤ 4) (word : BitVec 32) :
    tryTurns (readPartialByte word i) p s =
      some { s with fifoBuffer := put s.fifoBuffer i p (byteOf32 word) } := by
  obtain ⟨t, ht, hstored⟩ : ∃ t, tryTurns (readPartialByte word i) p s = some t ∧
      t = { s with fifoBuffer := put s.fifoBuffer i p (byteOf32 word) } := by
    refine tryTurns_some (I := fun k t =>
      t = { s with fifoBuffer := put s.fifoBuffer i k (byteOf32 word) }) ?_ ?_
    · rw [put_zero]
    · rintro k hk t rfl
      -- The shift by 8 * k and the cast pick byte k.
      have hbyte : (word >>> (k * 8)).setWidth 8 = byteOf32 word k := by
        rw [byteOf32, Nat.mul_comm]
      refine ⟨_, ?_, rfl⟩
      rw [readPartialByte, if_pos (by omega), storeByte_some (by omega), hbyte]
      dsimp only
      rw [put_succ]
  rw [ht, hstored]

/-- Whole words, and a last one of which `m` bytes count. -/
theorem fetch_some (hfit : 4 * w + p ≤ 128) (hp : p ≤ 4) (hwhole : ∀ k < w, valid k = 4)
    (hlast : 0 < p → valid w = m) (hm : m ≤ p) :
    ∃ t, fetch u valid w p s = some t ∧ Stores u 0 (4 * w + m) s t := by
  obtain ⟨t, hwords, hstores⟩ := readWords_some (u := u) (s := s) (by omega) hwhole
  rw [fetch, hwords, Option.bind_some]
  by_cases hzero : 0 < p
  · rw [if_pos hzero, hlast hzero, readPartial_some hfit hp]
    have hword := Stores.popWord u (0 + 4 * w) w t hm
    rw [Nat.zero_add] at hword
    exact ⟨_, rfl, hstores.trans (by rwa [Nat.zero_add])⟩
  · obtain rfl : m = 0 := by omega
    rw [if_neg hzero]
    exact ⟨t, rfl, hstores⟩

/-- The word behind the buffer, and the fifth byte of a word. -/
theorem fetch_none (h : 32 < w ∨ 4 < p) : fetch u valid w p s = none := by
  rw [fetch]
  rcases h with hw | hp
  · -- Word 32 begins behind the 128 bytes of the buffer.
    have hwords : tryTurns (readWord u valid) w s = none :=
      tryTurns_none (k := 32) hw fun t => by
        have hout : storeByte (0 + 4 * 32) (byteOf32 (t.value u) 0)
            (t.popWord u (valid 32) 32) = none := if_neg (by decide)
        rw [readWord, hout, Option.bind_none]
    rw [hwords, Option.bind_none]
  · cases tryTurns (readWord u valid) w s with
    | none => rfl
    | some t =>
        rw [Option.bind_some, if_pos (by omega)]
        -- Byte 4 of a word is a shift by 32.
        exact tryTurns_none (k := 4) hp fun _ => if_neg (by decide)

end Store

/-! ## One byte -/

section Byte

variable {u : Uart} {s t : State} {out : List Byte}

/-- The bytes that wait lie in `FifoBuffer`, no valid byte is lost, and the accesses went
    through the macro. -/
structure State.Inv (u : Uart) (s : State) (out : List Byte) : Prop where
  fits : s.ptrToFifoBuffer + s.availableBytes.toNat ≤ 128
  length_le : s.popped.length ≤ out.length + s.availableBytes.toNat
  through : Through u s

theorem State.Inv.initial (u : Uart) : State.initial.Inv u [] where
  fits := Nat.zero_le 128
  length_le := Nat.le_refl 0
  through := fun _ ha => absurd ha List.not_mem_nil

theorem poll_touches (u : Uart) (s : State) : Touches u s (poll u s) := by
  have hirq := (read_touches u geniData geniSIrqStatusOffs s).trans
    (write_touches u geniData geniSIrqClearOffs (s.irqStatus u) _)
  have hstatus := hirq.trans (read_touches u geniData geniRxFifoStatusOffs _)
  show Touches u s (if _ then _ else _)
  split
  · exact hstatus.trans (read_touches u geniData geniRxWatermarkRegOffs _)
  · exact hstatus

theorem poll_accesses (u : Uart) (s : State) : (poll u s).accesses ≠ [] := by
  show (if _ then _ else _ : State).accesses ≠ []
  split <;> simp [State.read]

/-- With no byte waiting, all that is valid has been returned. -/
theorem exact_iff_of_none (hnone : s.availableBytes = 0#32) :
    Exact u s out ↔ s.popped = out ∧ OnBase u s := by
  have hwaiting : s.waiting = [] := by
    rw [State.waiting, hnone]
    rfl
  constructor
  · rintro ⟨horder, hbase⟩
    rw [hwaiting, List.append_nil] at horder
    exact ⟨horder, hbase⟩
  · rintro ⟨horder, hbase⟩
    exact ⟨by rw [hwaiting, List.append_nil, horder], hbase⟩

/-- After an access, the accesses are right exactly when the base fits in a byte, and then those
    before it were. -/
theorem onBase_after (hs : Through u s) (ht : Through u t) (hne : t.accesses ≠ []) :
    OnBase u t ↔ OnBase u s ∧ u.base.toNat < 256 := by
  rw [onBase_iff ht hne]
  exact ⟨fun h => ⟨onBase_of_lt h hs, h⟩, fun h => h.2⟩

/-- What a fill leaves: the state stays good, and exact under the condition only. -/
def Keeps (u : Uart) (s t : State) (out : List Byte) (ok : Prop) : Prop :=
  t.Inv u out ∧ (Exact u t out ↔ Exact u s out ∧ u.base.toNat < 256 ∧ ok)

/-- Nothing was popped. -/
theorem keeps_of_touches (h : s.Inv u out) (hnone : s.availableBytes = 0#32)
    (ht : Touches u (poll u { s with ptrToFifoBuffer := 0 }) t) {ok : Prop} (hok : ok) :
    Keeps u s t out ok := by
  have hne := poll_accesses u { s with ptrToFifoBuffer := 0 }
  have hall := (poll_touches u { s with ptrToFifoBuffer := 0 }).trans ht
  have hthrough : Through u t := hall.through h.through
  have hbytes : t.availableBytes = 0#32 := hall.availableBytes.trans hnone
  have hpopped : t.popped = s.popped := hall.popped
  -- No byte waits before or after, so only the accesses matter.
  constructor
  · refine ⟨?_, ?_, hthrough⟩
    · rw [hbytes, hall.ptrToFifoBuffer]
      exact Nat.zero_le 128
    · have hlength := h.length_le
      rw [hnone] at hlength
      rw [hbytes, hpopped]
      exact hlength
  · rw [exact_iff_of_none hbytes, exact_iff_of_none hnone, hpopped,
      onBase_after h.through hthrough (ht.grows hne), and_assoc, and_iff_left hok]

/-- `w` words and `p` bytes were stored, of which `m` were valid. -/
theorem keeps_of_stores {avail : BitVec 32} {w p m : Nat} (h : s.Inv u out)
    (hnone : s.availableBytes = 0#32)
    (havail : avail.toNat = 4 * w + p) (hfit : 4 * w + p ≤ 128) (hm : m ≤ p)
    (ht : Stores u 0 (4 * w + m)
      { poll u { s with ptrToFifoBuffer := 0 } with availableBytes := avail } t) :
    Keeps u s t out (m = p) := by
  have hne := poll_accesses u { s with ptrToFifoBuffer := 0 }
  have hpolled := poll_touches u { s with ptrToFifoBuffer := 0 }
  have hthrough : Through u t := ht.through (hpolled.through h.through)
  have hptr : t.ptrToFifoBuffer = 0 := ht.ptrToFifoBuffer.trans hpolled.ptrToFifoBuffer
  have hbytes : t.availableBytes.toNat = 4 * w + p := by rw [ht.availableBytes, havail]
  have hpopped : t.popped = s.popped ++ slice t.fifoBuffer 0 (4 * w + m) :=
    ht.popped.trans (congrArg (· ++ _) hpolled.popped)
  have hlength := h.length_le
  rw [hnone, show (0#32).toNat = 0 from rfl, Nat.add_zero] at hlength
  constructor
  · refine ⟨by rw [hptr, hbytes]; omega, ?_, hthrough⟩
    rw [hpopped, hbytes, List.length_append, slice_length]
    omega
  · rw [exact_iff_of_none hnone]
    constructor
    · rintro ⟨horder, hbase⟩
      obtain ⟨hbefore, hlow⟩ := (onBase_after h.through hthrough (ht.grows hne)).mp hbase
      -- More bytes wait than were valid, unless the counts agree.
      have hsize := congrArg List.length horder
      rw [hpopped, State.waiting, hptr, hbytes, List.length_append, List.length_append,
        slice_length, slice_length] at hsize
      obtain rfl : m = p := by omega
      rw [hpopped, State.waiting, hptr, hbytes] at horder
      exact ⟨⟨List.append_cancel_right horder, hbefore⟩, hlow, rfl⟩
    · rintro ⟨⟨horder, hbefore⟩, hlow, rfl⟩
      refine ⟨?_, (onBase_after h.through hthrough (ht.grows hne)).mpr ⟨hbefore, hlow⟩⟩
      rw [hpopped, horder, State.waiting, hptr, hbytes]

/-- What is counted is stored. -/
theorem fill_counted {w p m : Nat} (h : s.Inv u out) (hnone : s.availableBytes = 0#32)
    (hcounted : Counted (s.irqStatus u) (s.rxFifoStatus u) (s.watermark u) w p m) :
    ∃ t, fill u s = some (.success, t) ∧ Keeps u s t out (m = p) := by
  have hsmall : ¬maxRxFifoSize
      < (availableBytes (s.irqStatus u) (s.rxFifoStatus u) (s.watermark u)).toNat := by
    rw [hcounted.available]
    exact Nat.not_lt.mpr hcounted.fits
  obtain ⟨t, ht, hstores⟩ := fetch_some (u := u) hcounted.fits hcounted.part hcounted.whole
    hcounted.valid hcounted.le
  refine ⟨t, ?_, keeps_of_stores h hnone hcounted.available hcounted.fits hcounted.le hstores⟩
  rw [fill, if_neg hsmall, hcounted.words, hcounted.last, ht, Option.map_some]

/-- A fill goes well, or its readings are not good ones. -/
theorem fill_spec (h : s.Inv u out) (hnone : s.availableBytes = 0#32) :
    (∀ r, fill u s = some r → Keeps u s r.2 out
      (FillOk (s.irqStatus u) (s.rxFifoStatus u) (s.watermark u))) ∧
    (fill u s = none → ¬FillOk (s.irqStatus u) (s.rxFifoStatus u) (s.watermark u)) := by
  cases reading_cases (s.irqStatus u) (s.rxFifoStatus u) (s.watermark u) with
  -- No more than the registers are touched.
  | full hfull hok =>
      have hfill : fill u s = some (.notReady,
          (initializePort u (poll u { s with ptrToFifoBuffer := 0 })).2) := if_pos hfull
      rw [hfill]
      exact ends_some (keeps_of_touches h hnone (initializePort_touches u _) hok)
  | counted hcounted hok =>
      obtain ⟨t, ht, hkeeps⟩ := fill_counted h hnone hcounted
      rw [ht]
      refine ends_some ⟨hkeeps.1, hkeeps.2.trans ?_⟩
      rw [iff_true_intro hok, eq_self]
  | twice hcounted hbad =>
      -- Of the last four bytes none is popped: the bytes are not exact.
      obtain ⟨t, ht, hkeeps⟩ := fill_counted h hnone hcounted
      rw [ht]
      refine ends_some ⟨hkeeps.1, hkeeps.2.trans ?_⟩
      rw [iff_false_intro hbad, iff_false_intro (show ¬(0 = 4) by decide)]
  | wrong hsmall hwrong hbad =>
      have hfits : ¬maxRxFifoSize
          < (availableBytes (s.irqStatus u) (s.rxFifoStatus u) (s.watermark u)).toNat :=
        Nat.not_lt.mpr hsmall
      have hfill : fill u s = none := by
        rw [fill, if_neg hfits, fetch_none hwrong, Option.map_none]
      rw [hfill]
      exact ends_none hbad

/-- How a byte that is asked for leaves the state. -/
def Got.Keeps (u : Uart) (s : State) (out : List Byte) (ok : Prop) : Got → Prop
  | .byte b t => t.Inv u (out ++ [b]) ∧ (Exact u t (out ++ [b]) ↔ Exact u s out ∧ ok)
  | .failed _ t => t.Inv u out ∧ (Exact u t out ↔ Exact u s out ∧ ok)

/-- The first of the bytes that wait is returned. -/
theorem takeByte_spec (h : s.Inv u out) : ∃ g, takeByte s = some g ∧ g.Keeps u s out True := by
  rw [takeByte]
  by_cases hnone : s.availableBytes = 0#32
  · rw [if_neg (not_not.mpr hnone)]
    exact ⟨_, rfl, h, (and_iff_left trivial).symm⟩
  · have hfits := h.fits
    have hpos : s.availableBytes.toNat ≠ 0 := fun hzero => hnone (BitVec.eq_of_toNat_eq hzero)
    have hbyte : loadByte s.ptrToFifoBuffer s = some (s.fifoBuffer s.ptrToFifoBuffer) :=
      if_pos (show s.ptrToFifoBuffer < 128 by omega)
    -- With a byte waiting the count does not wrap.
    have hless : (s.availableBytes - 1#32).toNat = s.availableBytes.toNat - 1 :=
      BitVec.toNat_sub_of_le (BitVec.le_def.mpr (Nat.one_le_iff_ne_zero.mpr hpos))
    have hwaiting : s.waiting = s.fifoBuffer s.ptrToFifoBuffer ::
        slice s.fifoBuffer (s.ptrToFifoBuffer + 1) (s.availableBytes.toNat - 1) := by
      have hsplit := slice_add s.fifoBuffer s.ptrToFifoBuffer 1 (s.availableBytes.toNat - 1)
      rw [show 1 + (s.availableBytes.toNat - 1) = s.availableBytes.toNat by omega] at hsplit
      exact hsplit
    rw [if_pos hnone, hbyte, Option.map_some]
    refine ⟨_, rfl, ⟨?_, ?_, h.through⟩, ?_⟩
    · show s.ptrToFifoBuffer + 1 + (s.availableBytes - 1#32).toNat ≤ 128
      omega
    · show s.popped.length ≤ _ + (s.availableBytes - 1#32).toNat
      have hlength := h.length_le
      rw [List.length_append, List.length_singleton]
      omega
    · rw [and_iff_left trivial]
      -- The byte moves from those that wait to those that were returned.
      have hafter : ∀ t : State, t = { s with
            ptrToFifoBuffer := s.ptrToFifoBuffer + 1
            availableBytes := s.availableBytes - 1#32 } →
          out ++ [s.fifoBuffer s.ptrToFifoBuffer] ++ t.waiting = out ++ s.waiting := by
        rintro t rfl
        rw [hwaiting, State.waiting, hless, List.append_assoc]
        rfl
      constructor
      · rintro ⟨horder, hbase⟩
        rw [hafter _ rfl] at horder
        exact ⟨horder, hbase⟩
      · rintro ⟨horder, hbase⟩
        refine ⟨?_, hbase⟩
        rw [hafter _ rfl]
        exact horder

theorem Got.keeps_trans {g : Got} {ok : Prop}
    (hs : t.Inv u out ∧ (Exact u t out ↔ Exact u s out ∧ ok))
    (hg : g.Keeps u t out True) : g.Keeps u s out ok := by
  cases g with
  | byte b v => exact ⟨hg.1, hg.2.trans ((and_iff_left trivial).trans hs.2)⟩
  | failed status v => exact ⟨hg.1, hg.2.trans ((and_iff_left trivial).trans hs.2)⟩

/-- Without a fill the condition asks for nothing. -/
theorem byteOk_of (h : u.base = 0#32 ∨ s.availableBytes ≠ 0#32) : ByteOk u s := by
  intro hbase hnone
  rcases h with hzero | hsome
  · exact absurd hzero hbase
  · exact absurd hnone hsome

theorem byteOk_iff_of_none (hbase : u.base ≠ 0#32) (hnone : s.availableBytes = 0#32) :
    ByteOk u s ↔ u.base.toNat < 256 ∧
      FillOk (s.irqStatus u) (s.rxFifoStatus u) (s.watermark u) :=
  ⟨fun h => h hbase hnone, fun h _ _ => h⟩

/-- `SDM845GetByte` goes well, or the condition fails. -/
theorem getByte_spec (h : s.Inv u out) :
    (∀ g, getByte u s = some g → g.Keeps u s out (ByteOk u s)) ∧
      (getByte u s = none → ¬ByteOk u s) := by
  rw [getByte]
  by_cases hbase : u.base = 0#32
  · rw [if_pos hbase]
    exact ends_some ⟨h, (and_iff_left (byteOk_of (.inl hbase))).symm⟩
  · rw [if_neg hbase]
    by_cases hnone : s.availableBytes = 0#32
    · obtain ⟨hsome, hfail⟩ := fill_spec h hnone
      rw [if_pos hnone, byteOk_iff_of_none hbase hnone]
      cases hfill : fill u s with
      | none => exact ends_none fun hok => hfail hfill hok.2
      | some r =>
          -- A fill that ends in an error returns no byte, any other returns the first one.
          have hkeeps := hsome r hfill
          obtain ⟨g', hg', htaken⟩ := takeByte_spec hkeeps.1
          rw [Option.bind_some]
          by_cases herror : r.1.isError = true
          · rw [if_pos herror]
            exact ends_some hkeeps
          · rw [if_neg herror, hg']
            exact ends_some (Got.keeps_trans hkeeps htaken)
    · -- A byte waits, so there is no fill.
      obtain ⟨g', hg', htaken⟩ := takeByte_spec h
      rw [if_neg hnone, Option.bind_some]
      show (∀ g, takeByte s = some g → _) ∧ (takeByte s = none → _)
      rw [hg']
      exact ends_some (Got.keeps_trans ⟨h, (and_iff_left (byteOk_of (.inr hnone))).symm⟩ htaken)

end Byte

/-! ## One call -/

section Call

variable {u : Uart} {n : BitVec 64} {c : Call} {s : State} {before : List Byte}

/-- A call that is under way, after earlier calls returned `before`. -/
def Call.Inv (u : Uart) (before : List Byte) (c : Call) : Prop := c.state.Inv u (before ++ c.buff)

/-- The condition on the state before a turn. -/
def TurnOk (u : Uart) (n : BitVec 64) (c : Call) : Prop :=
  c.buff.length < n.toNat → ByteOk u c.state

theorem turn_fails (h : c.Inv u before) (hturn : turn u n c = none) : ¬TurnOk u n c := by
  rw [turn] at hturn
  split at hturn
  · rename_i hmore
    have hgot : getByte u c.state = none := Option.map_eq_none_iff.mp hturn
    exact fun hok => (getByte_spec h).2 hgot (hok hmore)
  · exact absurd hturn (Option.some_ne_none _)

/-- A turn keeps the invariant, and the bytes exact just when the condition holds. -/
theorem turn_keeps {r : Turn Call} (h : c.Inv u before) (hturn : turn u n c = some r) :
    r.state.Inv u before ∧
      (Exact u r.state.state (before ++ r.state.buff) ↔
        Exact u c.state (before ++ c.buff) ∧ TurnOk u n c) ∧
      ∀ c', r = .again c' → n.toNat - c'.buff.length < n.toNat - c.buff.length := by
  rw [turn] at hturn
  split at hturn
  · rename_i hmore
    have hok : TurnOk u n c ↔ ByteOk u c.state := ⟨fun hok => hok hmore, fun hok _ => hok⟩
    obtain ⟨g, hg, hr⟩ := Option.map_eq_some_iff.mp hturn
    have hkeeps := (getByte_spec h).1 g hg
    rw [hok]
    cases g with
    | byte b t =>
        subst hr
        -- One more byte is in the buffer of the caller, so the measure goes down.
        obtain ⟨hinv, hexact⟩ := hkeeps
        rw [List.append_assoc] at hinv hexact
        refine ⟨hinv, hexact, fun c' hagain => ?_⟩
        rw [← Turn.again.inj hagain]
        show n.toNat - (c.buff ++ [b]).length < _
        rw [List.length_append, List.length_singleton]
        omega
    | failed status t =>
        subst hr
        exact ⟨hkeeps.1, hkeeps.2, fun c' hagain => absurd hagain (by simp)⟩
  · rename_i hdone
    rw [← Option.some.inj hturn]
    refine ⟨h, (and_iff_left fun hmore => absurd hmore hdone).symm, fun c' hagain => ?_⟩
    exact absurd hagain (by simp)

/-- The condition on the steps of one call. -/
def CallOk (u : Uart) (n : BitVec 64) (s : State) : Prop :=
  EveryTurn (TurnOk u n) (turn u n) (n.toNat + 1) ⟨s, []⟩

theorem Call.Inv.start (h : s.Inv u before) : Call.Inv u before ⟨s, []⟩ := by
  show s.Inv u (before ++ [])
  rwa [List.append_nil]

theorem serialPortRead_inv (h : s.Inv u before) (hrun : serialPortRead u n s = some c) :
    c.Inv u before :=
  tryLoop_invariant (I := Call.Inv u before) (fun _ _ hc hturn => (turn_keeps hc hturn).1)
    (Call.Inv.start h) hrun

theorem serialPortRead_iff (h : s.Inv u before) :
    (∃ c, serialPortRead u n s = some c ∧ Exact u c.state (before ++ c.buff)) ↔
      Exact u s before ∧ CallOk u n s := by
  have hexact : (∃ c, serialPortRead u n s = some c ∧ Exact u c.state (before ++ c.buff)) ↔
      Exact u s (before ++ []) ∧ CallOk u n s := tryLoop_iff (I := Call.Inv u before)
    (G := fun c => Exact u c.state (before ++ c.buff)) (P := TurnOk u n)
    (fun c => n.toNat - c.buff.length) (fun _ hc hturn => turn_fails hc hturn)
    (fun _ _ hc hturn => ⟨(turn_keeps hc hturn).1, (turn_keeps hc hturn).2.1⟩)
    (fun _ _ hc hturn => (turn_keeps hc hturn).2.2 _ rfl)
    (Call.Inv.start h) (Nat.lt_succ_of_le (Nat.sub_le _ _))
  rwa [List.append_nil] at hexact

end Call

/-! ## All calls -/

/-- The condition on the steps of a run: whenever no byte waits and one is asked for, the base
    fits in a byte and the status registers give good readings. -/
def StepsOk (u : Uart) (calls : List (BitVec 64)) : Prop :=
  EveryCall (fun n x => CallOk u n x.state) (readCall u) calls ⟨State.initial, []⟩

theorem readCall_inv {u : Uart} {n : BitVec 64} {x y : Session} (h : x.state.Inv u x.returned)
    (hrun : readCall u n x = some y) : y.state.Inv u y.returned := by
  obtain ⟨c, hc, rfl⟩ := Option.map_eq_some_iff.mp hrun
  exact serialPortRead_inv h hc

theorem readCall_iff {u : Uart} {n : BitVec 64} {x : Session} (h : x.state.Inv u x.returned) :
    (∃ y, readCall u n x = some y ∧ Exact u y.state y.returned) ↔
      Exact u x.state x.returned ∧ CallOk u n x.state := by
  rw [← serialPortRead_iff h]
  constructor
  · rintro ⟨y, hy, hexact⟩
    obtain ⟨c, hc, rfl⟩ := Option.map_eq_some_iff.mp hy
    exact ⟨c, hc, hexact⟩
  · rintro ⟨c, hc, hexact⟩
    exact ⟨_, congrArg (Option.map _) hc, hexact⟩

/-- The bytes returned are the valid bytes popped, from the registers of the UART and without a
    wrong access, exactly when every step meets the condition. -/
theorem serialPortRead_exactly_iff (u : Uart) (calls : List (BitVec 64)) :
    ReadsExactly u calls ↔ StepsOk u calls := by
  have hstart : Exact u State.initial [] :=
    ⟨rfl, fun _ ha => absurd ha List.not_mem_nil⟩
  have hexact : ReadsExactly u calls ↔ Exact u State.initial [] ∧ StepsOk u calls :=
    tryCalls_iff (I := fun x : Session => x.state.Inv u x.returned)
      (G := fun x => Exact u x.state x.returned) (P := fun n x => CallOk u n x.state)
      (fun _ _ h => readCall_iff h) (fun _ _ _ h hrun => readCall_inv h hrun)
      (s := ⟨State.initial, []⟩) (State.Inv.initial u)
  rw [hexact]
  exact and_iff_right hstart

/-- The UART at its default base, with one word received. -/
def defaultUart : Uart where
  base := 0x0098c000#32
  baudRate := 115200#32
  reads k := if k = 1 then 1#32 else 0x44434241#32

/-- The same with a base of one byte, and a status that says that all four bytes are valid. -/
def fullWordUart : Uart where
  base := 0x80#32
  baudRate := 115200#32
  reads k := if k = 1 then 0x40000001#32 else 0x44434241#32

/-- The first access goes to 0x640 instead of 0x98c640; and for one word eight bytes are
    returned. -/
theorem serialPortRead_not_exact :
    ((tryCalls (readCall defaultUart) [1#64] ⟨State.initial, []⟩).map fun x =>
      x.state.accesses.head?.map Access.address) = some (some 0x640#32) ∧
    ¬ReadsExactly defaultUart [1#64] ∧
    ((tryCalls (readCall fullWordUart) [8#64] ⟨State.initial, []⟩).map fun x =>
      (x.returned.length, x.state.popped.length)) = some (8, 4) ∧
    ¬ReadsExactly fullWordUart [8#64] := by
  have hfirst : ((tryCalls (readCall defaultUart) [1#64] ⟨State.initial, []⟩).map fun x =>
      x.state.accesses.head?.map fun a => (a.register, a.address))
        = some (some (0x640#32, 0x640#32)) := by decide +kernel
  have hsecond : ((tryCalls (readCall fullWordUart) [8#64] ⟨State.initial, []⟩).map fun x =>
      (x.returned.length, x.state.popped.length)) = some (8, 4) := by decide +kernel
  refine ⟨by decide +kernel, ?_, hsecond, ?_⟩
  · rintro ⟨x, hx, hexact⟩
    rw [hx, Option.map_some, Option.some.injEq] at hfirst
    -- The first access is not at the base.
    obtain ⟨a, ha, haccess⟩ := Option.map_eq_some_iff.mp hfirst
    have hbase := hexact.onBase a (List.mem_of_head? ha)
    rw [(Prod.mk.inj haccess).1, (Prod.mk.inj haccess).2] at hbase
    exact absurd hbase (by decide)
  · rintro ⟨x, hx, hexact⟩
    rw [hx, Option.map_some, Option.some.injEq, Prod.mk.injEq] at hsecond
    have hlength := congrArg List.length hexact.inOrder
    rw [List.length_append] at hlength
    omega

end Sdm845
