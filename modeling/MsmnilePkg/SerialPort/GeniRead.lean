/-
  MsmnilePkg.SerialPort.GeniRead

  `SerialPortRead` of QcomGeniSerialPortLib.c.

  Bytes wait in `RxBuffer` between the words of GENI_RX_FIFO and the buffer of
  the caller.  The registers give any values.  An access outside `RxBuffer`
  and a shift by the width of a word or more let the call fail.
-/

import MsmnilePkg.Lib.LittleEndian
import MsmnilePkg.Lib.Loop
import MsmnilePkg.Lib.Transit
import MsmnilePkg.SerialPort.GeniSerial

namespace GeniRead

open ByteMem GeniSerial LittleEndian Loop Transit

/-! ## The code -/

/-- What the registers give, read by read, and where `RxBuffer` lies. -/
structure Env where
  irqStatus : Nat → BitVec 32
  fifoStatus : Nat → BitVec 32
  rxFifo : Nat → BitVec 32
  rxBuffer : Addr

/-- The static data, and what has been read and written. -/
structure State where
  readIndex : BitVec 32
  writeIndex : BitVec 32
  rxBuffer : Buffer
  statusReads : Nat
  fifoReads : Nat
  writes : List RegWrite
  /-- The valid bytes of the words popped from GENI_RX_FIFO. -/
  popped : List Byte

/-- The static data before the first call. -/
def State.initial : State :=
  { readIndex := 0#32, writeIndex := 0#32, rxBuffer := fun _ => 0#8, statusReads := 0,
    fifoReads := 0, writes := [], popped := [] }

/-- `sizeof(RxBuffer)` -/
def sizeofRxBuffer : BitVec 64 := 255#64

/-- `sizeof(RxBuffer)-WriteIndex` -/
def State.free (s : State) : BitVec 64 := sizeofRxBuffer - s.writeIndex.setWidth 64

def State.write (s : State) (w : RegWrite) : State := { s with writes := s.writes ++ [w] }

/-- The word that is popped next. -/
def State.word (env : Env) (s : State) : BitVec 32 := env.rxFifo s.fifoReads &&& geniRxFifoMask

/-- Pop a word whose first `valid` bytes count. -/
def State.pop (env : Env) (valid : Nat) (s : State) : State :=
  { s with
    fifoReads := s.fifoReads + 1
    popped := s.popped ++ (List.range valid).map (byteOf32 (s.word env)) }

def lastValidBytes (fifoStatus : BitVec 32) : BitVec 32 :=
  (fifoStatus &&& rxLastValidBytesMask) >>> rxLastValidBytesShift

def wordCount (fifoStatus : BitVec 32) : BitVec 32 := fifoStatus &&& rxFifoWc

/-- The number of valid bytes in word `j` of a fill: of the words that the FIFO's status counts
    the last one may be valid in part. -/
def validBytes (fifoStatus : BitVec 32) (j : Nat) : Nat :=
  if j + 1 < (wordCount fifoStatus).toNat then 4
  else if j + 1 = (wordCount fifoStatus).toNat then
    if lastValidBytes fifoStatus = 0#32 then 4 else min (lastValidBytes fifoStatus).toNat 4
  else 0

def loadByte (i : Nat) (s : State) : Option Byte :=
  if i < sizeofRxBuffer.toNat then some (s.rxBuffer i) else none

def storeByte (i : Nat) (v : Byte) (s : State) : Option State :=
  if i < sizeofRxBuffer.toNat then some { s with rxBuffer := put s.rxBuffer i 1 fun _ => v }
  else none

/-- The four bytes of a word one by one, or at once where `ReadBuffer` is aligned. -/
def storeWord (status : Bool) (i : Nat) (word : BitVec 32) (s : State) : Option State :=
  if status then
    (storeByte i (byteOf32 word 0) s).bind fun s =>
    (storeByte (i + 1) (byteOf32 word 1) s).bind fun s =>
    (storeByte (i + 2) (byteOf32 word 2) s).bind fun s =>
    storeByte (i + 3) (byteOf32 word 3) s
  else if i + 4 ≤ sizeofRxBuffer.toNat then
    some { s with rxBuffer := put s.rxBuffer i 4 (byteOf32 word) }
  else none

/-- A turn of the loop over the whole words. -/
def readWord (env : Env) (fifoStatus : BitVec 32) (status : Bool) (readBuffer index : Nat)
    (s : State) : Option State :=
  storeWord status (readBuffer + 4 * index) (s.word env) (s.pop env (validBytes fifoStatus index))

/-- A turn of the loop over the bytes of the last word. -/
def readTailByte (word : BitVec 32) (readBuffer index : Nat) (s : State) : Option State :=
  if index * 8 < 32 then storeByte (readBuffer + index) ((word >>> (index * 8)).setWidth 8) s
  else none

/-- The last word, of which only `bytesRead` bytes are taken. -/
def readTail (env : Env) (valid readBuffer bytesRead : Nat) (s : State) : Option State :=
  tryTurns (readTailByte (s.word env) readBuffer) bytesRead (s.pop env valid)

/-- From `ReadBuffer+=WriteOffset` to the line at the label `ok`. -/
def receive (env : Env) (irqStatus fifoStatus wordsRead bytesRead availBytes : BitVec 32)
    (s : State) : Option State :=
  let readBuffer := s.writeIndex.toNat
  let status := (env.rxBuffer + BitVec.ofNat 64 readBuffer) &&& 3#64 ≠ 0#64
  (tryTurns (readWord env fifoStatus status readBuffer) wordsRead.toNat s).bind fun s =>
  (if bytesRead ≠ 0#32 then
    readTail env (validBytes fifoStatus wordsRead.toNat) (readBuffer + 4 * wordsRead.toNat)
      bytesRead.toNat s
    else some s).bind fun s =>
  let s := s.write (memWrite geni4Data geniSIrqClearAddr (irqStatus &&& rxFifoWatermarkIrq))
  some { s with writeIndex := s.writeIndex + availBytes }

/-- An interrupt says that there is something to read. -/
def Pending (irqStatus : BitVec 32) : Prop :=
  irqStatus &&& (rxLastIrq ||| rxFifoWatermarkIrq) ≠ 0#32

instance (irqStatus : BitVec 32) : Decidable (Pending irqStatus) :=
  inferInstanceAs (Decidable (_ ≠ _))

/-- `WordsRead` and `BytesRead` -/
def toRead (irqStatus fifoStatus : BitVec 32) : BitVec 32 × BitVec 32 :=
  if Pending irqStatus then
    if lastValidBytes fifoStatus ≠ 0#32 ∧ lastValidBytes fifoStatus ≠ 4#32 then
      (wordCount fifoStatus - 1#32, lastValidBytes fifoStatus)
    else (wordCount fifoStatus, 0#32)
  else (0#32, 0#32)

/-- The readings of the next fill. -/
def State.irqStatus (env : Env) (s : State) : BitVec 32 :=
  env.irqStatus s.statusReads &&& geniSIrqStatusMask

def State.fifoStatus (env : Env) (s : State) : BitVec 32 :=
  env.fifoStatus s.statusReads &&& geniRxFifoStatusMask

/-- What is done when more than four bytes are free.  `WriteOffset` is `0` until the label
    `ok`. -/
def fill (env : Env) (s : State) : Option State :=
  let irqStatus := s.irqStatus env
  let fifoStatus := s.fifoStatus env
  let s := { s.write (memWrite geni4Data geniSIrqEnSetAddr (rxLastIrq ||| rxFifoWatermarkIrq)) with
    statusReads := s.statusReads + 1 }
  let wordsRead := (toRead irqStatus fifoStatus).1
  let bytesRead := (toRead irqStatus fifoStatus).2
  let availBytes := wordsRead * 4#32 + bytesRead
  if availBytes.setWidth 64 > s.free then
    if s.free < 4#64 then
      some ((s.write (memWrite geni4Data geniSIrqClearAddr irqStatus)).write
        (memWrite geni4Data geniSIrqEnClearAddr (rxLastIrq ||| rxFifoWatermarkIrq)))
    else
      let wordsRead := ((s.free &&& 3#64) >>> 2).setWidth 32
      receive env irqStatus fifoStatus wordsRead 0#32 (wordsRead * 4#32) s
  else
    receive env irqStatus fifoStatus wordsRead bytesRead availBytes
      (s.write (memWrite geni4Data geniSIrqClearAddr (irqStatus &&& rxLastIrq)))

/-- `if(ReadIndex==WriteIndex)ReadIndex=WriteIndex=0` -/
def State.rewind (s : State) : State :=
  if s.readIndex = s.writeIndex then { s with readIndex := 0#32, writeIndex := 0#32 } else s

/-- A turn of `while(1)` up to `Avail`. -/
def stage (env : Env) (s : State) : Option State :=
  if s.rewind.free > 4#64 then fill env s.rewind else some s.rewind

def State.avail (s : State) : BitVec 32 :=
  if s.readIndex < s.writeIndex then s.writeIndex - s.readIndex else 0#32

/-- A call that is under way. -/
structure Call where
  state : State
  room : BitVec 32
  copied : BitVec 32
  /-- The bytes in the buffer of the caller. -/
  buff : List Byte

/-- `Num` -/
def num (room : BitVec 32) (s : State) : BitVec 32 := if room < s.avail then room else s.avail

/-- `*Buff++=RxBuffer[ReadIndex++&(sizeof(RxBuffer)-1)]` -/
def copyByte (_index : Nat) (c : Call) : Option Call :=
  (loadByte (c.state.readIndex.setWidth 64 &&& (sizeofRxBuffer - 1#64)).toNat c.state).map fun b =>
    { c with
      state := { c.state with readIndex := c.state.readIndex + 1#32 }
      buff := c.buff ++ [b] }

/-- A turn of `while(1)`. -/
def turn (env : Env) (c : Call) : Option (Turn Call) :=
  (stage env c.state).bind fun s =>
  if num c.room s = 0#32 then some (.leave { c with state := s })
  else
    (tryTurns copyByte (num c.room s).toNat { c with state := s }).map fun c' =>
      .again { c' with copied := c'.copied + num c.room s, room := c'.room - num c.room s }

def Call.start (bytes : BitVec 64) (s : State) : Call :=
  { state := s, room := bytes.setWidth 32, copied := 0#32, buff := [] }

/-- `SerialPortRead`.  Every turn but the last makes `Room` smaller. -/
def serialPortRead (env : Env) (bytes : BitVec 64) (s : State) : Option Call :=
  tryLoop (turn env) ((Call.start bytes s).room.toNat + 1) (Call.start bytes s)

/-- The calls so far: the static data, and the bytes they have returned. -/
structure Session where
  state : State
  returned : List Byte

def readCall (env : Env) (bytes : BitVec 64) (x : Session) : Option Session :=
  (serialPortRead env bytes x.state).map fun c =>
    ⟨c.state, x.returned ++ c.buff.take c.copied.toNat⟩

/-- No access goes wrong, and the bytes that are returned begin the valid bytes that are
    popped. -/
def ReadsInOrder (env : Env) (calls : List (BitVec 64)) : Prop :=
  ∃ x, tryCalls (readCall env) calls ⟨State.initial, []⟩ = some x ∧
    InOrder x.state.popped x.returned

/-! ## Words and bytes -/

/-- Byte `j` of the words that are popped next. -/
def State.incoming (env : Env) (s : State) (j : Nat) : Byte :=
  byteOf32 (env.rxFifo (s.fifoReads + j / 4) &&& geniRxFifoMask) (j % 4)

section Store

variable {env : Env} {s t u : State} {word fifo : BitVec 32} {i n m : Nat}

/-- From `s` to `t` the `n` bytes of `RxBuffer` from `i` on were popped, and those before `i`
    kept. -/
structure Stores (env : Env) (i n : Nat) (s t : State) : Prop where
  readIndex : t.readIndex = s.readIndex
  writeIndex : t.writeIndex = s.writeIndex
  fifoReads : t.fifoReads = s.fifoReads + (n + 3) / 4
  below : ∀ j < i, t.rxBuffer j = s.rxBuffer j
  incoming : ∀ j < n, t.rxBuffer (i + j) = s.incoming env j
  popped : t.popped = s.popped ++ slice t.rxBuffer i n

theorem Stores.none (i : Nat) (s : State) : Stores env i 0 s s :=
  ⟨rfl, rfl, rfl, fun _ _ => rfl, fun _ hj => absurd hj (Nat.not_lt_zero _),
    by rw [slice_zero, List.append_nil]⟩

/-- Behind whole words. -/
theorem Stores.trans (h : Stores env i (4 * n) s t) (h' : Stores env (i + 4 * n) m t u) :
    Stores env i (4 * n + m) s u := by
  have hkept : slice u.rxBuffer i (4 * n) = slice t.rxBuffer i (4 * n) :=
    slice_congr fun k hk => h'.below (i + k) (by omega)
  have hreads : t.fifoReads = s.fifoReads + n := by
    rw [h.fifoReads]
    omega
  refine ⟨by rw [h'.readIndex, h.readIndex], by rw [h'.writeIndex, h.writeIndex], ?_, ?_, ?_, ?_⟩
  · rw [h'.fifoReads, hreads]
    omega
  · intro j hj
    rw [h'.below j (by omega), h.below j hj]
  · intro j hj
    by_cases hfirst : j < 4 * n
    · rw [h'.below _ (by omega), h.incoming j hfirst]
    · obtain ⟨k, rfl⟩ : ∃ k, j = 4 * n + k := ⟨j - 4 * n, by omega⟩
      rw [← Nat.add_assoc, h'.incoming k (by omega), State.incoming, State.incoming, hreads,
        Nat.add_assoc, Nat.mul_add_mod, Nat.mul_add_div (by decide)]
  · rw [h'.popped, h.popped, slice_add, hkept, List.append_assoc]

theorem storeByte_some (hi : i < 255) (v : Byte) :
    storeByte i v s = some { s with rxBuffer := put s.rxBuffer i 1 fun _ => v } := if_pos hi

/-- Aligned or not, a word is stored as its four bytes. -/
theorem storeWord_some (status : Bool) (hi : i + 4 ≤ 255) :
    storeWord status i word s = some { s with rxBuffer := put s.rxBuffer i 4 (byteOf32 word) } := by
  cases status with
  | true =>
      rw [storeWord, if_pos rfl, storeByte_some (by omega), Option.bind_some,
        storeByte_some (by omega), Option.bind_some, storeByte_some (by omega), Option.bind_some,
        storeByte_some (by omega)]
      -- four single stores are one store of four bytes
      rw [put_four]
  | false =>
      rw [storeWord, if_neg Bool.false_ne_true]
      exact if_pos hi

/-- A word whose first `valid` bytes count, once these are stored. -/
theorem Stores.pop (i : Nat) {valid : Nat} (hpos : 0 < valid) (hvalid : valid ≤ 4) (s : State) :
    Stores env i valid s { s.pop env valid with
      rxBuffer := put s.rxBuffer i valid (byteOf32 (s.word env)) } := by
  refine ⟨rfl, rfl, ?_, fun j hj => put_outside (Or.inl hj), fun j hj => ?_, ?_⟩
  · show s.fifoReads + 1 = _
    omega
  · show put s.rxBuffer i valid (byteOf32 (s.word env)) (i + j) = _
    rw [put, if_pos ⟨by omega, by omega⟩, Nat.add_sub_cancel_left, State.incoming,
      Nat.div_eq_of_lt (by omega), Nat.mod_eq_of_lt (by omega)]
    rfl
  · show s.popped ++ _ = _
    rw [slice_put]

theorem readWords_some (status : Bool) (hfit : i + 4 * n ≤ 255)
    (hvalid : ∀ k < n, validBytes fifo k = 4) :
    ∃ t, tryTurns (readWord env fifo status i) n s = some t ∧ Stores env i (4 * n) s t := by
  refine tryTurns_some (I := fun k t => Stores env i (4 * k) s t) (Stores.none i s) ?_
  intro k hk t ht
  have hword : readWord env fifo status i k t = some { t.pop env 4 with
      rxBuffer := put t.rxBuffer (i + 4 * k) 4 (byteOf32 (t.word env)) } := by
    rw [readWord, hvalid k hk]
    exact storeWord_some status (by omega)
  exact ⟨_, hword, ht.trans (Stores.pop (i + 4 * k) (by decide) (Nat.le_refl 4) t)⟩

theorem readTail_some (hfit : i + n ≤ 255) (hpos : 0 < n) (hn : n ≤ 4) :
    ∃ t, readTail env n i n s = some t ∧ Stores env i n s t := by
  have hrun : ∃ t, readTail env n i n s = some t ∧ t = { s.pop env n with
      rxBuffer := put s.rxBuffer i n (byteOf32 (s.word env)) } := by
    refine tryTurns_some (I := fun k t => t = { s.pop env n with
      rxBuffer := put s.rxBuffer i k (byteOf32 (s.word env)) }) ?_ ?_
    · rw [put_zero]
      rfl
    · rintro k hk t rfl
      have hbyte : ((s.word env) >>> (k * 8)).setWidth 8 = byteOf32 (s.word env) k := by
        rw [byteOf32, Nat.mul_comm]
      refine ⟨_, ?_, rfl⟩
      rw [readTailByte, if_pos (by omega), storeByte_some (by omega), hbyte]
      dsimp only
      rw [put_succ]
  obtain ⟨t, ht, rfl⟩ := hrun
  exact ⟨_, ht, Stores.pop i hpos hn s⟩

/-- The fifth byte of a word is shifted by the width of the word. -/
theorem readTail_none {valid : Nat} (hn : 5 ≤ n) : readTail env valid i n s = none :=
  tryTurns_none (k := 4) (by omega) fun _ => if_neg (by decide)

end Store

/-! ## Filling `RxBuffer` -/

section Fill

variable {env : Env} {s t : State} {irq fifo words bytes avail : BitVec 32} {n : Nat}

/-- From `s` to `t` the next `n` bytes were popped and put behind those that wait. -/
structure Fills (env : Env) (n : Nat) (s t : State) : Prop where
  readIndex : t.readIndex = s.readIndex
  writeIndex : t.writeIndex.toNat = s.writeIndex.toNat + n
  below : ∀ j < s.writeIndex.toNat, t.rxBuffer j = s.rxBuffer j
  incoming : ∀ j < n, t.rxBuffer (s.writeIndex.toNat + j) = s.incoming env j
  popped : t.popped = s.popped ++ slice t.rxBuffer s.writeIndex.toNat n

/-- `WordsRead` and `BytesRead` take the bytes that the FIFO's status calls valid. -/
structure Takes (fifo words bytes : BitVec 32) : Prop where
  whole : ∀ k < words.toNat, validBytes fifo k = 4
  part : bytes ≠ 0#32 → validBytes fifo words.toNat = bytes.toNat
  part_le : bytes.toNat ≤ 4

theorem receive_some (htakes : Takes fifo words bytes)
    (havail : avail.toNat = 4 * words.toNat + bytes.toNat)
    (hfit : s.writeIndex.toNat + avail.toNat ≤ 255) :
    ∃ t, receive env irq fifo words bytes avail s = some t ∧
      Fills env avail.toNat s t := by
  obtain ⟨t, hwords, ht⟩ : ∃ t, tryTurns (readWord env fifo
        ((env.rxBuffer + BitVec.ofNat 64 s.writeIndex.toNat) &&& 3#64 ≠ 0#64) s.writeIndex.toNat)
        words.toNat s = some t ∧ Stores env s.writeIndex.toNat (4 * words.toNat) s t :=
    readWords_some _ (by omega) htakes.whole
  have htail : ∃ u, (if bytes ≠ 0#32 then
      readTail env (validBytes fifo words.toNat) (s.writeIndex.toNat + 4 * words.toNat)
        bytes.toNat t else some t)
        = some u ∧ Stores env (s.writeIndex.toNat + 4 * words.toNat) bytes.toNat t u := by
    by_cases hzero : bytes = 0#32
    · -- no part of a word is left
      subst hzero
      exact ⟨t, rfl, Stores.none _ t⟩
    · have hpos : 0 < bytes.toNat := Nat.pos_of_ne_zero fun h => hzero (BitVec.eq_of_toNat_eq h)
      rw [if_pos hzero, htakes.part hzero]
      exact readTail_some (by omega) hpos htakes.part_le
  obtain ⟨u, hu, hstores⟩ := htail
  have hall := ht.trans hstores
  rw [← havail] at hall
  refine ⟨_, by rw [receive, hwords, Option.bind_some, hu, Option.bind_some], ?_⟩
  refine ⟨hall.readIndex, ?_, hall.below, hall.incoming, hall.popped⟩
  show (u.writeIndex + avail).toNat = _
  rw [BitVec.toNat_add, hall.writeIndex, Nat.mod_eq_of_lt (by omega)]

theorem receive_none (hbytes : 5 ≤ bytes.toNat) :
    receive env irq fifo words bytes avail s = none := by
  have hne : bytes ≠ 0#32 := by
    rintro rfl
    exact absurd hbytes (by decide)
  rw [receive]
  cases tryTurns _ words.toNat s with
  | none => rfl
  | some t => rw [Option.bind_some, if_pos hne, readTail_none hbytes, Option.bind_none]

theorem free_toNat (hW : s.writeIndex.toNat ≤ 255) :
    s.free.toNat = 255 - s.writeIndex.toNat := by
  unfold State.free sizeofRxBuffer
  bv_omega

/-- `AvailBytes`, before it is compared with what is free. -/
def State.availBytes (env : Env) (s : State) : BitVec 32 :=
  (toRead (s.irqStatus env) (s.fifoStatus env)).1 * 4#32
    + (toRead (s.irqStatus env) (s.fifoStatus env)).2

theorem fill_fits (hW : s.writeIndex.toNat ≤ 255)
    (hfit : s.writeIndex.toNat + (s.availBytes env).toNat ≤ 255) :
    ∃ s', fill env s = receive env (s.irqStatus env) (s.fifoStatus env)
        (toRead (s.irqStatus env) (s.fifoStatus env)).1
        (toRead (s.irqStatus env) (s.fifoStatus env)).2 (s.availBytes env) s' ∧
      s'.writeIndex = s.writeIndex ∧ ∀ n t, Fills env n s' t → Fills env n s t := by
  have hfree := free_toNat hW
  have hle : ¬(s.availBytes env).setWidth 64 > s.free := by
    rw [gt_iff_lt, BitVec.lt_def, BitVec.toNat_setWidth, hfree]
    omega
  refine ⟨_, if_neg hle, rfl, ?_⟩
  intro n t h
  exact ⟨h.readIndex, h.writeIndex, h.below, h.incoming, h.popped⟩

/-- When more waits than fits, nothing is popped. -/
theorem fill_full (hW : s.writeIndex.toNat ≤ 250)
    (hfull : 255 < s.writeIndex.toNat + (s.availBytes env).toNat) :
    ∃ t, fill env s = some t ∧ Fills env 0 s t := by
  have hfree := free_toNat (s := s) (by omega)
  have hgt : (s.availBytes env).setWidth 64 > s.free := by
    rw [gt_iff_lt, BitVec.lt_def, BitVec.toNat_setWidth, hfree]
    omega
  have hlarge : ¬s.free < 4#64 := by
    rw [BitVec.lt_def, hfree]
    exact Nat.not_lt.mpr (show 4 ≤ 255 - s.writeIndex.toNat by omega)
  -- the mask 3 and the shift by 2 leave no whole word of what is free
  have hwords : ((s.free &&& 3#64) >>> 2).setWidth 32 = 0#32 := by
    have hlow : ((s.free &&& 3#64) >>> 2).toNat ≤ 3 / 2 ^ 2 := field_le s.free 3#64 2
    apply BitVec.eq_of_toNat_eq
    rw [BitVec.toNat_setWidth]
    show _ = 0
    omega
  obtain ⟨s', hs', hfill⟩ : ∃ s', fill env s
      = receive env (s.irqStatus env) (s.fifoStatus env) 0#32 0#32 0#32 s' ∧
      s'.writeIndex = s.writeIndex ∧ ∀ t, Fills env 0 s' t → Fills env 0 s t := by
    refine ⟨{ s.write (memWrite geni4Data geniSIrqEnSetAddr (rxLastIrq ||| rxFifoWatermarkIrq)) with
      statusReads := s.statusReads + 1 }, ?_, rfl, ?_⟩
    · refine (if_pos hgt).trans ((if_neg hlarge).trans ?_)
      show receive env _ _ (((s.free &&& 3#64) >>> 2).setWidth 32) 0#32
        (((s.free &&& 3#64) >>> 2).setWidth 32 * 4#32) _ = _
      rw [hwords]
      rfl
    · intro t h
      exact ⟨h.readIndex, h.writeIndex, h.below, h.incoming, h.popped⟩
  have hnone : Takes (s.fifoStatus env) 0#32 0#32 :=
    ⟨fun k hk => absurd hk (Nat.not_lt_zero k), fun h => absurd rfl h, by decide⟩
  obtain ⟨t, ht, hnothing⟩ : ∃ t, receive env (s.irqStatus env) (s.fifoStatus env) 0#32 0#32 0#32 s'
      = some t ∧ Fills env 0 s' t := by
    refine receive_some hnone (by decide) ?_
    rw [hfill.1]
    show s.writeIndex.toNat + 0 ≤ 255
    omega
  exact ⟨t, by rw [hs', ht], hfill.2 t hnothing⟩

theorem lastValidBytes_lt (fifo : BitVec 32) : (lastValidBytes fifo).toNat < 8 :=
  Nat.lt_of_le_of_lt (field_le fifo rxLastValidBytesMask rxLastValidBytesShift) (by decide)

theorem wordCount_lt (fifo : BitVec 32) : (wordCount fifo).toNat < 2 ^ 25 :=
  Nat.lt_of_le_of_lt (masked_le fifo rxFifoWc) (by decide)

/-- The last word is not said to have more than four valid bytes, or more waits than fits. -/
def FillOk (env : Env) (s : State) : Prop :=
  Pending (s.irqStatus env) → 5 ≤ (lastValidBytes (s.fifoStatus env)).toNat →
    259 < s.writeIndex.toNat + 4 * (wordCount (s.fifoStatus env)).toNat
      + (lastValidBytes (s.fifoStatus env)).toNat

/-- The number of bytes that the FIFO's status tells. -/
def told (fifoStatus : BitVec 32) : Nat :=
  if (wordCount fifoStatus).toNat = 0 then 0
  else if (lastValidBytes fifoStatus).toNat = 0 then 4 * (wordCount fifoStatus).toNat
  else 4 * ((wordCount fifoStatus).toNat - 1) + (lastValidBytes fifoStatus).toNat

/-- The number of bytes that the readings of the next fill bring in. -/
def State.arriving (env : Env) (s : State) : Nat :=
  if Pending (s.irqStatus env) ∧ s.writeIndex.toNat ≤ 250 ∧
      s.writeIndex.toNat + told (s.fifoStatus env) ≤ 255 then told (s.fifoStatus env)
  else 0

/-- The three ways `WordsRead` and `BytesRead` come out. -/
theorem toRead_cases (env : Env) (s : State) :
    (¬Pending (s.irqStatus env) ∧
      toRead (s.irqStatus env) (s.fifoStatus env) = (0#32, 0#32)) ∨
    (Pending (s.irqStatus env) ∧ ((lastValidBytes (s.fifoStatus env)).toNat = 0 ∨
        (lastValidBytes (s.fifoStatus env)).toNat = 4) ∧
      toRead (s.irqStatus env) (s.fifoStatus env) = (wordCount (s.fifoStatus env), 0#32)) ∨
    Pending (s.irqStatus env) ∧ (lastValidBytes (s.fifoStatus env)).toNat ≠ 0 ∧
      (lastValidBytes (s.fifoStatus env)).toNat ≠ 4 ∧
      toRead (s.irqStatus env) (s.fifoStatus env)
        = (wordCount (s.fifoStatus env) - 1#32, lastValidBytes (s.fifoStatus env)) := by
  have hvalue : ∀ n < 2 ^ 32, (lastValidBytes (s.fifoStatus env)).toNat = n ↔
      lastValidBytes (s.fifoStatus env) = BitVec.ofNat 32 n := by
    intro n hn
    rw [← BitVec.toNat_inj, BitVec.toNat_ofNat, Nat.mod_eq_of_lt hn]
  rw [Ne, Ne, hvalue 0 (by decide), hvalue 4 (by decide)]
  by_cases hpending : Pending (s.irqStatus env)
  · by_cases hpart : lastValidBytes (s.fifoStatus env) ≠ 0#32 ∧
        lastValidBytes (s.fifoStatus env) ≠ 4#32
    · exact Or.inr (Or.inr ⟨hpending, hpart.1, hpart.2, by rw [toRead, if_pos hpending, if_pos hpart]⟩)
    · refine Or.inr (Or.inl ⟨hpending, ?_, by rw [toRead, if_pos hpending, if_neg hpart]⟩)
      rwa [not_and_or, not_not, not_not] at hpart
  · exact Or.inl ⟨hpending, by rw [toRead, if_neg hpending]⟩

/-- What fits is made of whole words and at most four bytes, as the FIFO's status tells. -/
theorem toRead_of_fits (hok : FillOk env s)
    (hfit : s.writeIndex.toNat + (s.availBytes env).toNat ≤ 255) :
    Takes (s.fifoStatus env) (toRead (s.irqStatus env) (s.fifoStatus env)).1
        (toRead (s.irqStatus env) (s.fifoStatus env)).2 ∧
      (s.availBytes env).toNat = 4 * (toRead (s.irqStatus env) (s.fifoStatus env)).1.toNat
        + (toRead (s.irqStatus env) (s.fifoStatus env)).2.toNat := by
  have hv := lastValidBytes_lt (s.fifoStatus env)
  have hw := wordCount_lt (s.fifoStatus env)
  rw [State.availBytes] at hfit ⊢
  obtain ⟨-, h⟩ | ⟨-, hwhole, h⟩ | ⟨hpending, hzero, hfour, h⟩ := toRead_cases env s
  · rw [h]
    exact ⟨⟨fun k hk => absurd hk (Nat.not_lt_zero k), fun h => absurd rfl h, by decide⟩, rfl⟩
  · rw [h]
    dsimp only
    refine ⟨⟨fun k hk => ?_, fun h => absurd rfl h, by decide⟩, ?_⟩
    · rw [validBytes]
      split_ifs with hlast hend hzero
      · rfl
      · rfl
      · have hne : (lastValidBytes (s.fifoStatus env)).toNat ≠ 0 :=
          fun h => hzero (BitVec.eq_of_toNat_eq h)
        omega
      · omega
    · bv_omega
  · -- a part of a word: the readings fit only when it has at most four bytes
    rw [h] at hfit ⊢
    dsimp only at hfit ⊢
    have hok := hok hpending
    have hsum : (wordCount (s.fifoStatus env) - 1#32).toNat + 1
          = (wordCount (s.fifoStatus env)).toNat ∧
        (lastValidBytes (s.fifoStatus env)).toNat ≤ 4 ∧
        ((wordCount (s.fifoStatus env) - 1#32) * 4#32 + lastValidBytes (s.fifoStatus env)).toNat
          = 4 * (wordCount (s.fifoStatus env) - 1#32).toNat
            + (lastValidBytes (s.fifoStatus env)).toNat := by
      generalize wordCount (s.fifoStatus env) = w at *
      generalize lastValidBytes (s.fifoStatus env) = v at *
      generalize s.writeIndex = i at *
      refine ⟨?_, ?_, ?_⟩ <;> bv_omega
    obtain ⟨hcount, hpart, hsum⟩ := hsum
    refine ⟨⟨fun k hk => ?_, fun hne => ?_, hpart⟩, hsum⟩
    · rw [validBytes, if_pos (by omega)]
    · rw [validBytes, if_neg (by omega), if_pos hcount, if_neg hne, Nat.min_eq_left hpart]

/-- The bytes that arrive are those of `AvailBytes`, or none when they do not fit. -/
theorem arriving_eq (hW : s.writeIndex.toNat ≤ 250) (hok : FillOk env s) :
    s.arriving env = if s.writeIndex.toNat + (s.availBytes env).toNat ≤ 255
      then (s.availBytes env).toNat else 0 := by
  have hv := lastValidBytes_lt (s.fifoStatus env)
  have hw := wordCount_lt (s.fifoStatus env)
  rw [State.arriving, State.availBytes, told]
  obtain ⟨hpending, h⟩ | ⟨hpending, hwhole, h⟩ | ⟨hpending, hzero, hfour, h⟩ := toRead_cases env s
  · rw [h, if_neg (fun h => hpending h.1)]
    split_ifs <;> rfl
  · have havail : (wordCount (s.fifoStatus env) * 4#32 + 0#32).toNat
        = 4 * (wordCount (s.fifoStatus env)).toNat := by bv_omega
    rw [h]
    simp only [hpending, hW, true_and]
    rw [havail]
    split_ifs <;> omega
  · have hok := hok hpending
    rw [h]
    simp only [hpending, hW, true_and]
    generalize wordCount (s.fifoStatus env) = w at *
    generalize lastValidBytes (s.fifoStatus env) = v at *
    generalize s.writeIndex = i at *
    by_cases hw0 : w.toNat = 0
    · have hfull : ¬i.toNat + ((w - 1#32) * 4#32 + v).toNat ≤ 255 := by bv_omega
      rw [if_pos hw0, if_neg hfull]
      split_ifs <;> rfl
    · have havail : ((w - 1#32) * 4#32 + v).toNat = 4 * (w.toNat - 1) + v.toNat := by bv_omega
      rw [if_neg hw0, if_neg hzero, havail]

theorem fill_some (hW : s.writeIndex.toNat ≤ 250) (hok : FillOk env s) :
    ∃ t, fill env s = some t ∧ s.writeIndex.toNat + s.arriving env ≤ 255 ∧
      Fills env (s.arriving env) s t := by
  rw [arriving_eq hW hok]
  by_cases hfit : s.writeIndex.toNat + (s.availBytes env).toNat ≤ 255
  · obtain ⟨htakes, havail⟩ := toRead_of_fits hok hfit
    obtain ⟨s', hs', hindex, hfills⟩ := fill_fits (by omega) hfit
    obtain ⟨t, ht, h⟩ := receive_some (s := s') htakes havail (by rw [hindex]; exact hfit)
    rw [if_pos hfit]
    exact ⟨t, by rw [hs', ht], hfit, hfills _ t h⟩
  · -- more waits than fits, and nothing is popped
    obtain ⟨t, ht, h⟩ : ∃ t, fill env s = some t ∧ Fills env 0 s t := fill_full hW (by omega)
    rw [if_neg hfit]
    exact ⟨t, ht, by omega, h⟩

theorem fill_none (hW : s.writeIndex.toNat ≤ 255) (hbad : ¬FillOk env s) :
    fill env s = none := by
  rw [FillOk, Classical.not_imp, Classical.not_imp] at hbad
  obtain ⟨hpending, hfive, hfit⟩ := hbad
  -- Five bytes or more count as a word that is valid in part.
  have hread : toRead (s.irqStatus env) (s.fifoStatus env)
      = (wordCount (s.fifoStatus env) - 1#32, lastValidBytes (s.fifoStatus env)) := by
    rw [toRead, if_pos hpending, if_pos]
    constructor
    · rintro h
      rw [h] at hfive
      exact absurd hfive (by decide)
    · rintro h
      rw [h] at hfive
      exact absurd hfive (by decide)
  have havail : s.writeIndex.toNat + (s.availBytes env).toNat ≤ 255 := by
    rw [State.availBytes, hread]
    dsimp only
    bv_omega
  obtain ⟨s', hs', _⟩ := fill_fits hW havail
  rw [hs']
  refine receive_none ?_
  rw [hread]
  exact hfive

end Fill

/-! ## One turn -/

section Turn

variable {env : Env} {s t : State} {out : List Byte} {n : Nat}

/-- What lies between the indices is on its way to the caller, to whom `out` was returned. -/
structure State.Inv (s : State) (out : List Byte) : Prop where
  readIndex_le : s.readIndex.toNat ≤ s.writeIndex.toNat
  writeIndex_le : s.writeIndex.toNat ≤ 255
  transit : InTransit s.popped
    (slice s.rxBuffer s.readIndex.toNat (s.writeIndex.toNat - s.readIndex.toNat)) out

theorem State.Inv.initial : State.initial.Inv [] where
  readIndex_le := Nat.le_refl 0
  writeIndex_le := Nat.zero_le 255
  transit := InTransit.empty

theorem State.rewind_popped (s : State) : s.rewind.popped = s.popped := by
  rw [State.rewind]
  split_ifs <;> rfl

theorem State.Inv.rewind (h : s.Inv out) : s.rewind.Inv out := by
  rw [State.rewind]
  split_ifs with heq
  · refine ⟨Nat.le_refl 0, Nat.zero_le 255, ?_⟩
    have htransit := h.transit
    rw [heq, Nat.sub_self, slice_zero] at htransit
    exact htransit
  · exact h

/-- The bytes that fill `RxBuffer` arrive behind those that wait. -/
theorem State.Inv.fills (h : s.Inv out) (hfit : s.writeIndex.toNat + n ≤ 255)
    (hfills : Fills env n s t) :
    t.Inv out ∧ (InOrder t.popped out ↔ InOrder s.popped out) := by
  have hle := h.readIndex_le
  have hsum : s.readIndex.toNat + (s.writeIndex.toNat - s.readIndex.toNat)
      = s.writeIndex.toNat := by omega
  have hcount : s.writeIndex.toNat + n - s.readIndex.toNat
      = s.writeIndex.toNat - s.readIndex.toNat + n := by omega
  -- What waits keeps its place below the bytes that arrive.
  have hkept : slice t.rxBuffer s.readIndex.toNat (s.writeIndex.toNat - s.readIndex.toNat)
      = slice s.rxBuffer s.readIndex.toNat (s.writeIndex.toNat - s.readIndex.toNat) :=
    slice_congr fun k hk => hfills.below _ (by omega)
  have hwaiting : slice t.rxBuffer t.readIndex.toNat (t.writeIndex.toNat - t.readIndex.toNat)
      = slice s.rxBuffer s.readIndex.toNat (s.writeIndex.toNat - s.readIndex.toNat)
        ++ slice t.rxBuffer s.writeIndex.toNat n := by
    rw [hfills.readIndex, hfills.writeIndex, hcount, slice_add, hkept, hsum]
  constructor
  · constructor
    · rw [hfills.readIndex, hfills.writeIndex]
      omega
    · rw [hfills.writeIndex]
      exact hfit
    · rw [hwaiting, hfills.popped]
      exact h.transit.arrive _
  · rw [hfills.popped]
    exact h.transit.inOrder_arrive _

/-- The condition on the state before a fill. -/
def StageOk (env : Env) (s : State) : Prop :=
  s.rewind.writeIndex.toNat ≤ 250 → FillOk env s.rewind

theorem free_gt_iff (hW : s.writeIndex.toNat ≤ 255) :
    s.free > 4#64 ↔ s.writeIndex.toNat ≤ 250 := by
  rw [gt_iff_lt, BitVec.lt_def, free_toNat hW]
  show 4 < _ ↔ _
  omega

theorem stage_some (h : s.Inv out) (hok : StageOk env s) :
    ∃ t, stage env s = some t ∧ t.Inv out ∧ (InOrder t.popped out ↔ InOrder s.popped out) ∧
      Fills env (s.rewind.arriving env) s.rewind t := by
  have hrewind := h.rewind
  rw [stage, ← s.rewind_popped]
  by_cases hfree : s.rewind.free > 4#64
  · rw [if_pos hfree]
    have hW := (free_gt_iff hrewind.writeIndex_le).mp hfree
    obtain ⟨t, ht, hfit, hfills⟩ := fill_some hW (hok hW)
    obtain ⟨hinv, horder⟩ := hrewind.fills hfit hfills
    exact ⟨t, ht, hinv, horder, hfills⟩
  · -- at most four bytes are free, and no word is popped
    have hW : ¬s.rewind.writeIndex.toNat ≤ 250 :=
      fun hW => hfree ((free_gt_iff hrewind.writeIndex_le).mpr hW)
    have hnone : s.rewind.arriving env = 0 := if_neg fun h => hW h.2.1
    rw [if_neg hfree, hnone]
    refine ⟨s.rewind, rfl, hrewind, Iff.rfl, rfl, rfl, fun _ _ => rfl,
      fun j hj => absurd hj (Nat.not_lt_zero j), ?_⟩
    rw [slice_zero, List.append_nil]

theorem stage_none (h : s.Inv out) (hbad : ¬StageOk env s) : stage env s = none := by
  have hrewind := h.rewind
  rw [StageOk, Classical.not_imp] at hbad
  obtain ⟨hW, hfill⟩ := hbad
  rw [stage, if_pos ((free_gt_iff hrewind.writeIndex_le).mpr hW)]
  exact fill_none hrewind.writeIndex_le hfill

/-- Of the next `n` bytes of `b` from index `r` on, one at an odd index is the byte in front of
    it. -/
def OddAsBefore (b : Buffer) (r n : Nat) : Prop :=
  ∀ k < n, (r + k) % 2 = 1 → b (r + k - 1) = b (r + k)

/-- The bytes of `RxBuffer` and those that the next fill brings in. -/
def State.waiting (env : Env) (s : State) : Buffer := fun i =>
  if i < s.writeIndex.toNat then s.rxBuffer i else s.incoming env (i - s.writeIndex.toNat)

/-- The condition on the state before a turn that returns up to `room` bytes. -/
def CopyOk (env : Env) (room : Nat) (s : State) : Prop :=
  OddAsBefore (s.waiting env) s.readIndex.toNat
    (min room (s.writeIndex.toNat + s.arriving env - s.readIndex.toNat))

/-- What a turn returns is known before it. -/
theorem copyOk_of_fills (room : BitVec 32) (hle : s.readIndex.toNat ≤ s.writeIndex.toNat)
    (hfills : Fills env (s.arriving env) s t) :
    CopyOk env room.toNat s ↔ OddAsBefore t.rxBuffer t.readIndex.toNat (num room t).toNat := by
  have hnum : (num room t).toNat
      = min room.toNat (s.writeIndex.toNat + s.arriving env - s.readIndex.toNat) := by
    have havail : t.avail.toNat = t.writeIndex.toNat - t.readIndex.toNat := by
      rw [State.avail]
      split_ifs with h
      · bv_omega
      · show 0 = _
        bv_omega
    rw [← hfills.writeIndex, ← hfills.readIndex, ← havail, num]
    split_ifs with h
    · exact (Nat.min_eq_left (Nat.le_of_lt h)).symm
    · exact (Nat.min_eq_right (Nat.not_lt.mp h)).symm
  have hbyte : ∀ i < s.writeIndex.toNat + s.arriving env, t.rxBuffer i = s.waiting env i := by
    intro i hi
    rw [State.waiting]
    split_ifs with hbelow
    · exact hfills.below i hbelow
    · rw [← hfills.incoming _ (by omega), Nat.add_sub_cancel' (Nat.not_lt.mp hbelow)]
  rw [CopyOk, OddAsBefore, OddAsBefore, hnum, hfills.readIndex]
  refine forall_congr' fun k => imp_congr_right fun hk => imp_congr_right fun _ => ?_
  have hk := Nat.lt_of_lt_of_le hk (Nat.min_le_right _ _)
  rw [hbyte _ (by omega), hbyte _ (by omega)]

/-- The mask clears the lowest bit of an index. -/
theorem mask_index (r : BitVec 32) (hr : r.toNat < 255) :
    (r.setWidth 64 &&& (sizeofRxBuffer - 1#64)).toNat = r.toNat - r.toNat % 2 := by
  have hmask : ∀ j < 255, j &&& 254 = j - j % 2 := by decide +kernel
  rw [BitVec.toNat_and, BitVec.toNat_setWidth, Nat.mod_eq_of_lt (by omega)]
  exact hmask r.toNat hr

/-- From `c` to `c'` the next `n` bytes went to the caller, as the mask has them. -/
structure Copies (n : Nat) (c c' : Call) : Prop where
  readIndex : c'.state.readIndex.toNat = c.state.readIndex.toNat + n
  writeIndex : c'.state.writeIndex = c.state.writeIndex
  rxBuffer : c'.state.rxBuffer = c.state.rxBuffer
  popped : c'.state.popped = c.state.popped
  room : c'.room = c.room
  copied : c'.copied = c.copied
  buff : c'.buff = c.buff ++ (List.range n).map fun k =>
    c.state.rxBuffer (c.state.readIndex.toNat + k - (c.state.readIndex.toNat + k) % 2)

theorem copyBytes_some {c : Call} (hfit : c.state.readIndex.toNat + n ≤ 255) :
    ∃ c', tryTurns copyByte n c = some c' ∧ Copies n c c' := by
  refine tryTurns_some (I := fun k c' => Copies k c c') ?_ ?_
  · exact ⟨rfl, rfl, rfl, rfl, rfl, rfl, (List.append_nil _).symm⟩
  · intro k hk c' h
    have hindex := h.readIndex
    have hbyte : loadByte (c'.state.readIndex.setWidth 64 &&& (sizeofRxBuffer - 1#64)).toNat
        c'.state = some (c.state.rxBuffer
          (c.state.readIndex.toNat + k - (c.state.readIndex.toNat + k) % 2)) := by
      rw [loadByte, mask_index _ (by omega), hindex, h.rxBuffer]
      exact if_pos (show _ < 255 by omega)
    refine ⟨_, by rw [copyByte, hbyte, Option.map_some], ?_⟩
    refine ⟨?_, h.writeIndex, h.rxBuffer, h.popped, h.room, h.copied, ?_⟩
    · show (c'.state.readIndex + 1#32).toNat = _
      bv_omega
    · show c'.buff ++ _ = _
      rw [h.buff, List.range_succ, List.map_append, List.append_assoc]
      rfl

/-- The mask returns the bytes that wait exactly under the condition. -/
theorem oddAsBefore_iff (s : State) (n : Nat) :
    ((List.range n).map fun k =>
      s.rxBuffer (s.readIndex.toNat + k - (s.readIndex.toNat + k) % 2))
        = slice s.rxBuffer s.readIndex.toNat n ↔
      OddAsBefore s.rxBuffer s.readIndex.toNat n := by
  rw [slice, List.map_inj_left, OddAsBefore]
  constructor
  · intro h k hk hodd
    have hk := h k (List.mem_range.mpr hk)
    rwa [hodd] at hk
  · intro h k hk
    rcases Nat.mod_two_eq_zero_or_one (s.readIndex.toNat + k) with heven | hodd
    · rw [heven, Nat.sub_zero]
    · -- an odd index, whose lowest bit the mask clears
      rw [hodd]
      exact h k (List.mem_range.mp hk) hodd

/-- The bytes that are returned leave, and the order is kept exactly under the condition. -/
theorem Copies.inv {c c' : Call} {before : List Byte} (hcopies : Copies n c c')
    (h : c.state.Inv (before ++ c.buff))
    (hn : c.state.readIndex.toNat + n ≤ c.state.writeIndex.toNat) :
    c'.state.Inv (before ++ c'.buff) ∧ (InOrder c'.state.popped (before ++ c'.buff) ↔
      InOrder c.state.popped (before ++ c.buff) ∧
        OddAsBefore c.state.rxBuffer c.state.readIndex.toNat n) := by
  have hcount : c.state.writeIndex.toNat - c.state.readIndex.toNat
      = n + (c.state.writeIndex.toNat - (c.state.readIndex.toNat + n)) := by omega
  have htransit := h.transit
  rw [hcount, slice_add] at htransit
  have hlen : ((List.range n).map fun k => c.state.rxBuffer
      (c.state.readIndex.toNat + k - (c.state.readIndex.toNat + k) % 2)).length
        = (slice c.state.rxBuffer c.state.readIndex.toNat n).length := by
    rw [List.length_map, List.length_range, slice_length]
  rw [hcopies.buff, ← List.append_assoc, hcopies.popped, ← oddAsBefore_iff]
  refine ⟨⟨?_, ?_, ?_⟩, htransit.inOrder_leave hlen⟩
  · rw [hcopies.readIndex, hcopies.writeIndex]
    exact hn
  · rw [hcopies.writeIndex]
    exact h.writeIndex_le
  · rw [hcopies.popped, hcopies.readIndex, hcopies.writeIndex, hcopies.rxBuffer]
    exact htransit.leave hlen

end Turn

/-! ## One call -/

section Call

variable {env : Env} {c : Call} {before : List Byte}

/-- A call that is under way, after earlier calls returned `before`. -/
structure Call.Inv (before : List Byte) (c : Call) : Prop where
  state : c.state.Inv (before ++ c.buff)
  copied : c.copied.toNat = c.buff.length
  room : c.copied.toNat + c.room.toNat < 2 ^ 32

/-- The condition on the state before a turn. -/
def TurnOk (env : Env) (c : Call) : Prop :=
  StageOk env c.state ∧ CopyOk env c.room.toNat c.state.rewind

theorem num_le_room (room : BitVec 32) (s : State) : (num room s).toNat ≤ room.toNat := by
  rw [num]
  split_ifs with h
  · exact Nat.le_refl _
  · exact Nat.not_lt.mp h

theorem num_le_waiting {s : State} (hle : s.readIndex.toNat ≤ s.writeIndex.toNat)
    (room : BitVec 32) : s.readIndex.toNat + (num room s).toNat ≤ s.writeIndex.toNat := by
  have havail : s.readIndex.toNat + s.avail.toNat ≤ s.writeIndex.toNat := by
    rw [State.avail]
    split_ifs with h
    · bv_omega
    · exact hle
  have hnum : (num room s).toNat ≤ s.avail.toNat := by
    rw [num]
    split_ifs with h
    · exact Nat.le_of_lt h
    · exact Nat.le_refl _
  omega

/-- A turn that goes well, given what `stage` leaves. -/
theorem turn_of_stage {s : State} (h : c.Inv before) (hs : s.Inv (before ++ c.buff))
    (hstage : stage env c.state = some s) :
    ∃ r, turn env c = some r ∧ r.state.Inv before ∧
      (InOrder r.state.state.popped (before ++ r.state.buff) ↔
        InOrder s.popped (before ++ c.buff) ∧
          OddAsBefore s.rxBuffer s.readIndex.toNat (num c.room s).toNat) ∧
      ∀ c', r = .again c' → c'.room.toNat < c.room.toNat := by
  have hroom := num_le_room c.room s
  have hwaiting := num_le_waiting hs.readIndex_le c.room
  have hcopied := h.room
  by_cases hzero : num c.room s = 0#32
  · -- nothing to return: the loop is left
    refine ⟨.leave { c with state := s }, ?_, ⟨hs, h.copied, hcopied⟩, ?_, ?_⟩
    · rw [turn, hstage, Option.bind_some, if_pos hzero]
    · have hnone : OddAsBefore s.rxBuffer s.readIndex.toNat (num c.room s).toNat := by
        rw [hzero]
        exact fun k hk => absurd hk (Nat.not_lt_zero k)
      exact (and_iff_left hnone).symm
    · intro c' hagain
      exact absurd hagain (by simp)
  · -- `Num` bytes are returned, and `Room` gets smaller by as many
    have hpos : (num c.room s).toNat ≠ 0 := fun hnum => hzero (BitVec.eq_of_toNat_eq hnum)
    have hle := hs.writeIndex_le
    obtain ⟨c', hrun, hcopies⟩ : ∃ c', tryTurns copyByte (num c.room s).toNat
        { c with state := s } = some c' ∧ Copies (num c.room s).toNat { c with state := s } c' :=
      copyBytes_some (show s.readIndex.toNat + _ ≤ 255 by omega)
    obtain ⟨hinv, horder⟩ := hcopies.inv hs hwaiting
    have hcount : (c'.copied + num c.room s).toNat = c.copied.toNat + (num c.room s).toNat := by
      have hsum : c.copied.toNat + (num c.room s).toNat < 2 ^ 32 := by omega
      rw [hcopies.copied, BitVec.toNat_add]
      exact Nat.mod_eq_of_lt hsum
    have hleft : (c'.room - num c.room s).toNat = c.room.toNat - (num c.room s).toNat := by
      rw [hcopies.room, BitVec.toNat_sub_of_le (BitVec.le_def.mpr hroom)]
    refine ⟨.again { c' with copied := c'.copied + num c.room s, room := c'.room - num c.room s },
      ?_, ⟨hinv, ?_, ?_⟩, horder, ?_⟩
    · rw [turn, hstage, Option.bind_some, if_neg hzero, hrun, Option.map_some]
    · show (c'.copied + num c.room s).toNat = c'.buff.length
      rw [hcount, hcopies.buff, List.length_append, List.length_map, List.length_range, ← h.copied]
    · show (c'.copied + num c.room s).toNat + (c'.room - num c.room s).toNat < 2 ^ 32
      rw [hcount, hleft]
      omega
    · intro c'' hagain
      obtain rfl := Turn.again.inj hagain
      show (c'.room - num c.room s).toNat < _
      rw [hleft]
      omega

theorem turn_fails (h : c.Inv before) (hturn : turn env c = none) : ¬TurnOk env c := by
  intro hok
  obtain ⟨s, hstage, hs, _, _⟩ := stage_some h.state hok.1
  obtain ⟨r, hr, _⟩ := turn_of_stage h hs hstage
  rw [hturn] at hr
  exact absurd hr (Option.some_ne_none r).symm

/-- A turn keeps the invariant, and the order exactly under the condition. -/
theorem turn_inv {r : Turn Call} (h : c.Inv before) (hturn : turn env c = some r) :
    r.state.Inv before ∧
      (InOrder r.state.state.popped (before ++ r.state.buff) ↔
        InOrder c.state.popped (before ++ c.buff) ∧ TurnOk env c) ∧
      ∀ c', r = .again c' → c'.room.toNat < c.room.toNat := by
  have hok : StageOk env c.state := by
    by_contra hbad
    rw [turn, stage_none h.state hbad, Option.bind_none] at hturn
    exact absurd hturn (Option.some_ne_none r).symm
  obtain ⟨s, hstage, hs, harrive, hfills⟩ := stage_some h.state hok
  obtain ⟨r', hr', hinv, horder, hless⟩ := turn_of_stage h hs hstage
  obtain rfl : r' = r := Option.some.inj (hr'.symm.trans hturn)
  refine ⟨hinv, ?_, hless⟩
  have hcopy := copyOk_of_fills c.room h.state.rewind.readIndex_le hfills
  rw [horder, harrive, TurnOk, hcopy, and_iff_right hok]

/-- The condition on the steps of one call. -/
def CallOk (env : Env) (bytes : BitVec 64) (s : State) : Prop :=
  EveryTurn (TurnOk env) (turn env) ((Call.start bytes s).room.toNat + 1) (Call.start bytes s)

variable {s : State} {bytes : BitVec 64}

theorem Call.Inv.start (h : s.Inv before) (bytes : BitVec 64) :
    (Call.start bytes s).Inv before where
  state := by
    show s.Inv (before ++ [])
    rw [List.append_nil]
    exact h
  copied := rfl
  room := by
    rw [Call.start]
    show 0 + (bytes.setWidth 32).toNat < 2 ^ 32
    omega

theorem serialPortRead_inv (h : s.Inv before) (hrun : serialPortRead env bytes s = some c) :
    c.Inv before := by
  rw [serialPortRead] at hrun
  exact tryLoop_invariant (I := Call.Inv before) (fun _ _ hc hturn => (turn_inv hc hturn).1)
    (Call.Inv.start h bytes) hrun

theorem serialPortRead_iff (h : s.Inv before) :
    (∃ c, serialPortRead env bytes s = some c ∧ InOrder c.state.popped (before ++ c.buff)) ↔
      InOrder s.popped before ∧ CallOk env bytes s := by
  have hstart : before ++ (Call.start bytes s).buff = before := List.append_nil before
  have hexact := tryLoop_iff (I := Call.Inv before)
    (G := fun c => InOrder c.state.popped (before ++ c.buff)) (P := TurnOk env)
    (fun c => c.room.toNat) (fun _ hc hturn => turn_fails hc hturn)
    (fun _ _ hc hturn => ⟨(turn_inv hc hturn).1, (turn_inv hc hturn).2.1⟩)
    (fun _ _ hc hturn => (turn_inv hc hturn).2.2 _ rfl)
    (Call.Inv.start h bytes) (Nat.lt_succ_self _)
  rw [hstart] at hexact
  exact hexact

end Call

/-! ## All calls -/

/-- The condition on the steps of a run: no fill reads more than four valid bytes for a word,
    and every byte that is to be returned from an odd `ReadIndex` is the byte in front of it. -/
def StepsOk (env : Env) (calls : List (BitVec 64)) : Prop :=
  EveryCall (fun bytes x => CallOk env bytes x.state) (readCall env) calls ⟨State.initial, []⟩

theorem readCall_eq {env : Env} {bytes : BitVec 64} {x : Session} {c : Call}
    (h : x.state.Inv x.returned) (hrun : serialPortRead env bytes x.state = some c) :
    readCall env bytes x = some ⟨c.state, x.returned ++ c.buff⟩ := by
  have hcall := serialPortRead_inv h hrun
  rw [readCall, hrun, Option.map_some, hcall.copied, List.take_length]

theorem readCall_inv {env : Env} {bytes : BitVec 64} {x y : Session}
    (h : x.state.Inv x.returned) (hrun : readCall env bytes x = some y) :
    y.state.Inv y.returned := by
  cases hcall : serialPortRead env bytes x.state with
  -- a call that fails returns no bytes
  | none =>
      rw [readCall, hcall] at hrun
      exact absurd hrun (Option.some_ne_none y).symm
  | some c =>
      rw [readCall_eq h hcall] at hrun
      obtain rfl := Option.some.inj hrun
      exact (serialPortRead_inv h hcall).state

theorem readCall_iff {env : Env} {bytes : BitVec 64} {x : Session}
    (h : x.state.Inv x.returned) :
    (∃ y, readCall env bytes x = some y ∧ InOrder y.state.popped y.returned) ↔
      InOrder x.state.popped x.returned ∧ CallOk env bytes x.state := by
  rw [← serialPortRead_iff h]
  constructor
  · rintro ⟨y, hy, horder⟩
    cases hcall : serialPortRead env bytes x.state with
    | none =>
        rw [readCall, hcall] at hy
        exact absurd hy (Option.some_ne_none y).symm
    | some c =>
        rw [readCall_eq h hcall] at hy
        obtain rfl := Option.some.inj hy
        exact ⟨c, rfl, horder⟩
  · rintro ⟨c, hc, horder⟩
    exact ⟨_, readCall_eq h hc, horder⟩

/-- The bytes returned begin the valid bytes popped, and nothing goes wrong, exactly when every
    step meets the condition. -/
theorem serialPortRead_in_order_iff (env : Env) (calls : List (BitVec 64)) :
    ReadsInOrder env calls ↔ StepsOk env calls := by
  have hexact : ReadsInOrder env calls ↔ InOrder [] [] ∧ StepsOk env calls :=
    tryCalls_iff (I := fun x : Session => x.state.Inv x.returned)
      (G := fun x => InOrder x.state.popped x.returned)
      (P := fun bytes x => CallOk env bytes x.state)
      (fun _ _ h => readCall_iff h) (fun _ _ _ h hrun => readCall_inv h hrun)
      (s := ⟨State.initial, []⟩) State.Inv.initial
  rw [hexact]
  exact and_iff_right List.nil_prefix

/-- One word is received, with the bytes `0x41` to `0x44`. -/
def oneWord : Env where
  irqStatus := fun k => if k = 0 then rxLastIrq else 0#32
  fifoStatus := fun _ => 1#32
  rxFifo := fun _ => 0x44434241#32
  rxBuffer := 0#64

/-- Two bytes are read of the word, and the first one comes twice. -/
theorem serialPortRead_byte_twice : ¬∀ env calls, ReadsInOrder env calls := by
  have hrun : (tryCalls (readCall oneWord) [2#64] ⟨State.initial, []⟩).map
      (fun x => (x.returned, x.state.popped))
        = some ([0x41#8, 0x41#8], [0x41#8, 0x42#8, 0x43#8, 0x44#8]) := by decide +kernel
  intro h
  obtain ⟨x, hx, horder⟩ := h oneWord [2#64]
  rw [hx] at hrun
  obtain ⟨hreturned, hpopped⟩ := Prod.mk.inj (Option.some.inj hrun)
  rw [hreturned, hpopped, InOrder] at horder
  exact absurd horder (by decide)

end GeniRead
