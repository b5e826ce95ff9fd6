/-
  MsmnilePkg.SerialPort.GeniWrite

  `SerialPortWrite` of QcomGeniSerialPortLib.c.

  The buffer is sent in transfers of at most four bytes for each word of the
  transmit FIFO.  How much of a transfer is pushed depends on the words that
  are still in the FIFO; how much of it counts as sent does not.  `MsgBuff` is
  left out, nothing reads it.
-/

import MsmnilePkg.Lib.LittleEndian
import MsmnilePkg.Lib.Loop
import MsmnilePkg.SerialPort.GeniSerial

namespace GeniWrite

open ByteMem GeniSerial LittleEndian Loop

/-! ## The code -/

/-- What the registers give, read by read. -/
structure Env where
  hwParam0 : BitVec 32
  geniStatus : Nat → BitVec 32
  txFifoStatus : Nat → BitVec 32

/-- `FIFOSize` -/
def fifoSize (env : Env) : BitVec 32 :=
  (env.hwParam0 &&& seHwParam0Mask &&& txFifoDepthMask) >>> txFifoDepthShift

/-- `if(TxFIFOSize==0)TxFIFOSize=FIFOSize<<2` -/
def initTxFifoSize (env : Env) (txFifoSize : BitVec 32) : BitVec 32 :=
  if txFifoSize = 0#32 then fifoSize env <<< 2 else txFifoSize

/-- The words in the FIFO at a reading of GENI_TX_FIFO_STATUS. -/
def occupancy (env : Env) (k : Nat) : BitVec 32 :=
  env.txFifoStatus k &&& geniTxFifoStatusMask &&& txFifoWc

/-- A command is active at a reading of GENI_STATUS. -/
def Busy (env : Env) (k : Nat) : Prop :=
  env.geniStatus k &&& geniStatusMask &&& mGeniCmdActive ≠ 0#32

instance (env : Env) (k : Nat) : Decidable (Busy env k) := inferInstanceAs (Decidable (_ ≠ _))

structure State where
  buffer : Addr
  bytesRemain : BitVec 64
  statusReads : Nat
  fifoReads : Nat
  log : List RegWrite

def State.start (buffer : Addr) (bytes : BitVec 64) : State :=
  { buffer := buffer, bytesRemain := bytes, statusReads := 0, fifoReads := 0, log := [] }

def State.write (s : State) (w : RegWrite) : State := { s with log := s.log ++ [w] }

def txFifoWrite (word : BitVec 32) : RegWrite := memWrite geni4Data geniTxFifoAddr word

/-- The next word of the buffer, byte by byte where the buffer is not aligned. -/
def bufferWord (m : Mem) (k : Bool) (buffer : Addr) : BitVec 32 :=
  if k then word32 (m buffer) (m (buffer + 1#64)) (m (buffer + 2#64)) (m (buffer + 3#64))
  else read32 m buffer

/-- A turn of the loop over the whole words. -/
def pushWord (m : Mem) (k : Bool) (_index : Nat) (s : State) : State :=
  { s.write (txFifoWrite (bufferWord m k s.buffer)) with buffer := s.buffer + 4#64 }

/-- `WordValue` -/
def wordValue (m : Mem) (buffer : Addr) (bytesSend : Nat) : BitVec 32 :=
  forTurns (fun index w => w ||| (m (buffer + BitVec.ofNat 64 index)).setWidth 32 <<< (index * 8))
    bytesSend 0#32

/-- `WordsSend` and `BytesSend` -/
def toSend (full tail slots : BitVec 32) : BitVec 32 × BitVec 32 :=
  (if full > slots then slots else full, if full ≥ slots then 0#32 else tail)

/-- The write at the end of a transfer of which `sent` bytes are pushed. -/
def watermarkWrite (send : BitVec 64) (sent : BitVec 32) : RegWrite :=
  memWrite geni4Data (if send = sent.setWidth 64 then geniMIrqEnClearAddr else geniMIrqEnSetAddr)
    txFifoWatermarkIrq

/-- The body of `if(Send)`. -/
def sendChunk (env : Env) (m : Mem) (send : BitVec 64) (s : State) : State :=
  let full := (send >>> 2).setWidth 32
  let tail := (send &&& 3#64).setWidth 32
  let slots := fifoSize env - occupancy env s.fifoReads
  let s := { s with fifoReads := s.fifoReads + 1 }
  let wordsSend := (toSend full tail slots).1
  let bytesSend := (toSend full tail slots).2
  let k : Bool := s.buffer &&& 3#64 ≠ 0#64
  let s := forTurns (pushWord m k) wordsSend.toNat s
  let s := if bytesSend ≠ 0#32 then
      s.write (txFifoWrite (wordValue m s.buffer bytesSend.toNat)) else s
  s.write (watermarkWrite send (wordsSend * 4#32 + bytesSend))

/-- `Send` -/
def send (txFifoSize : BitVec 32) (bytesRemain : BitVec 64) : BitVec 64 :=
  if bytesRemain > txFifoSize.setWidth 64 then txFifoSize.setWidth 64 else bytesRemain

/-- A turn of the loop. -/
def turn (env : Env) (m : Mem) (txFifoSize : BitVec 32) (s : State) : State :=
  let send := send txFifoSize s.bytesRemain
  if Busy env s.statusReads then { s with statusReads := s.statusReads + 1 }
  else
    let s := { s with statusReads := s.statusReads + 1 }
    let s := s.write (memWrite geni4ImageRegs uartTxTransLenAddr (send.setWidth 32))
    let s := s.write (memWrite geni4Data geniMCmd0Addr 0x08000000#32)
    let s := if send ≠ 0#64 then sendChunk env m send s else s
    { s with bytesRemain := s.bytesRemain - send }

/-- `BytesRemain>0` -/
def State.unsent (s : State) : Bool := s.bytesRemain > 0#64

/-- What a call returns, and what it leaves. -/
structure Result where
  returned : BitVec 64
  txFifoSize : BitVec 32
  log : List RegWrite

/-- `SerialPortWrite`, which turns until no byte remains. -/
def serialPortWrite (env : Env) (m : Mem) (buffer : Addr) (bytes : BitVec 64)
    (txFifoSize : BitVec 32) (fuel : Nat) : Option Result :=
  (whileFuel State.unsent (turn env m (initTxFifoSize env txFifoSize)) fuel
    (State.start buffer bytes)).map fun s =>
      { returned := bytes, txFifoSize := initTxFifoSize env txFifoSize, log := s.log }

/-- The static `TxFIFOSize` when a call begins, on a device with the given parameter. -/
inductive Reached (hwParam0 : BitVec 32) : BitVec 32 → Prop where
  | start : Reached hwParam0 0#32
  | call {env : Env} {m : Mem} {buffer : Addr} {bytes : BitVec 64} {txFifoSize : BitVec 32}
      {fuel : Nat} {r : Result} (hbefore : Reached hwParam0 txFifoSize)
      (hdevice : env.hwParam0 = hwParam0)
      (hrun : serialPortWrite env m buffer bytes txFifoSize fuel = some r) :
      Reached hwParam0 r.txFifoSize

/-! ## What the device sees -/

/-- A transfer: the programmed length, and the words pushed for it. -/
structure Transfer where
  len : BitVec 32
  words : List (BitVec 32)

/-- The bytes of a word, the lowest first. -/
def wordBytes (w : BitVec 32) : List Byte := (List.range 4).map (byteOf32 w)

/-- The payload bytes that are pushed for a transfer. -/
def Transfer.payload (t : Transfer) : List Byte := (t.words.flatMap wordBytes).take t.len.toNat

/-- The length is the number of payload bytes, and every word has one. -/
def Transfer.Complete (t : Transfer) : Prop :=
  t.payload.length = t.len.toNat ∧ 4 * t.words.length < t.len.toNat + 4

/-- A write to UART_TX_TRANS_LEN begins a transfer, a write to GENI_TX_FIFO goes on with it.
    The last transfer comes first. -/
def addWrite (ts : List Transfer) (w : RegWrite) : List Transfer :=
  if w.offset = geni4ImageRegs + uartTxTransLenAddr then ⟨w.value, []⟩ :: ts
  else if w.offset = geni4Data + geniTxFifoAddr then
    match ts with
    | [] => []
    | t :: ts => { t with words := t.words ++ [w.value] } :: ts
  else ts

/-- The transfers of a log, the last one first. -/
def recent (log : List RegWrite) : List Transfer := log.foldl addWrite []

def transfers (log : List RegWrite) : List Transfer := (recent log).reverse

/-- The bytes behind an address. -/
def bytesAt (m : Mem) (a : Addr) : Buffer := fun i => m (a + BitVec.ofNat 64 i)

/-- The buffer is delivered, as the lengths and the returned value say. -/
structure Delivered (m : Mem) (buffer : Addr) (bytes : BitVec 64) (r : Result) : Prop where
  payload : (transfers r.log).flatMap Transfer.payload = slice (bytesAt m buffer) 0 bytes.toNat
  lengths : ∀ t ∈ transfers r.log, t.Complete
  returned : r.returned.toNat = ((transfers r.log).flatMap Transfer.payload).length

/-! ## The depth of the FIFO -/

section Depth

variable {env : Env} {txFifoSize : BitVec 32}

def depth (env : Env) : Nat := (fifoSize env).toNat

theorem depth_lt (env : Env) : depth env < 64 :=
  Nat.lt_of_le_of_lt (field_le (env.hwParam0 &&& seHwParam0Mask) txFifoDepthMask txFifoDepthShift)
    (by decide)

theorem Reached.init_eq {hwParam0 : BitVec 32} (h : Reached hwParam0 txFifoSize) :
    ∀ {env : Env}, env.hwParam0 = hwParam0 →
      initTxFifoSize env txFifoSize = fifoSize env <<< 2 := by
  induction h with
  | start => exact fun _ => if_pos rfl
  | @call env' m buffer bytes v fuel r hbefore hdevice hrun ih =>
      intro env henv
      have hsize : fifoSize env' = fifoSize env := by rw [fifoSize, fifoSize, hdevice, henv]
      have hr : r.txFifoSize = fifoSize env <<< 2 := by
        rw [← hsize, ← ih hdevice]
        rw [serialPortWrite, Option.map_eq_some_iff] at hrun
        obtain ⟨t, _, rfl⟩ := hrun
        rfl
      rw [hr, initTxFifoSize, ite_id]

/-- Whatever calls came before, a full transfer is four bytes for each word of the FIFO. -/
theorem Reached.toNat (h : Reached env.hwParam0 txFifoSize) :
    (initTxFifoSize env txFifoSize).toNat = 4 * depth env := by
  have hlt := depth_lt env
  rw [h.init_eq rfl, BitVec.toNat_shiftLeft, Nat.shiftLeft_eq, ← depth]
  omega

end Depth

/-! ## The words of a transfer -/

section Words

variable {m : Mem} {buffer : Addr}

/-- `w` whole words of the buffer, and `p` bytes behind them. -/
def chunkWords (m : Mem) (buffer : Addr) (w p : Nat) : List (BitVec 32) :=
  ((List.range w).map fun i => read32 m (buffer + BitVec.ofNat 64 (4 * i))) ++
    if p ≠ 0 then [wordValue m (buffer + BitVec.ofNat 64 (4 * w)) p] else []

theorem chunkWords_length (m : Mem) (buffer : Addr) (w p : Nat) :
    (chunkWords m buffer w p).length = w + if p ≠ 0 then 1 else 0 := by
  rw [chunkWords, List.length_append, List.length_map, List.length_range]
  split_ifs <;> rfl

theorem pushWords_eq (m : Mem) (k : Bool) (n : Nat) (s : State) :
    forTurns (pushWord m k) n s = { s with
      buffer := s.buffer + BitVec.ofNat 64 (4 * n)
      log := s.log ++ ((List.range n).map fun i =>
        read32 m (s.buffer + BitVec.ofNat 64 (4 * i))).map txFifoWrite } := by
  induction n with
  | zero =>
      rw [forTurns]
      simp
  | succ n ih =>
      have hword : ∀ a, bufferWord m k a = read32 m a := by
        intro a
        cases k <;> rfl
      have hnext : s.buffer + BitVec.ofNat 64 (4 * n) + 4#64
          = s.buffer + BitVec.ofNat 64 (4 * (n + 1)) := by
        rw [Nat.mul_succ, BitVec.ofNat_add, BitVec.add_assoc]
      rw [forTurns, ih, pushWord, hword, List.range_succ, List.map_append, List.map_append,
        ← List.append_assoc, ← hnext]
      rfl

/-- The bytes before `p` of the last word are those of the buffer. -/
theorem byteOf32_wordValue {p i : Nat} (hp : p ≤ 3) (hi : i < p) :
    byteOf32 (wordValue m buffer p) i = m (buffer + BitVec.ofNat 64 i) := by
  -- the last word is put together from one, two or three bytes
  obtain rfl | rfl | rfl : p = 1 ∨ p = 2 ∨ p = 3 := by omega
  · have hvalue : wordValue m buffer 1 = word32 (m buffer) 0#8 0#8 0#8 := by
      simp [wordValue, forTurns, word32]
    obtain rfl : i = 0 := by omega
    rw [hvalue, (byteOf32_word32 ..).1, BitVec.add_zero]
  · have hvalue : wordValue m buffer 2 = word32 (m buffer) (m (buffer + 1#64)) 0#8 0#8 := by
      simp [wordValue, forTurns, word32]
    rw [hvalue]
    obtain rfl | rfl : i = 0 ∨ i = 1 := by omega
    · rw [(byteOf32_word32 ..).1, BitVec.add_zero]
    · rw [(byteOf32_word32 ..).2.1]
  · have hvalue : wordValue m buffer 3
        = word32 (m buffer) (m (buffer + 1#64)) (m (buffer + 2#64)) 0#8 := by
      simp [wordValue, forTurns, word32]
    rw [hvalue]
    obtain rfl | rfl | rfl : i = 0 ∨ i = 1 ∨ i = 2 := by omega
    · rw [(byteOf32_word32 ..).1, BitVec.add_zero]
    · rw [(byteOf32_word32 ..).2.1]
    · rw [(byteOf32_word32 ..).2.2.1]

theorem bytesAt_add (m : Mem) (a : Addr) (i j : Nat) :
    bytesAt m (a + BitVec.ofNat 64 i) j = bytesAt m a (i + j) := by
  rw [bytesAt, bytesAt, BitVec.ofNat_add, BitVec.add_assoc]

theorem wordBytes_read32 (m : Mem) (buffer : Addr) (i : Nat) :
    wordBytes (read32 m (buffer + BitVec.ofNat 64 i)) = slice (bytesAt m buffer) i 4 := by
  refine List.map_congr_left fun j hj => ?_
  rw [byteOf32_read32 m _ (List.mem_range.mp hj), ← bytesAt_add]
  rfl

theorem wholeWords_bytes (m : Mem) (buffer : Addr) (w : Nat) :
    ((List.range w).map fun i => read32 m (buffer + BitVec.ofNat 64 (4 * i))).flatMap wordBytes
      = slice (bytesAt m buffer) 0 (4 * w) := by
  induction w with
  | zero => rfl
  | succ w ih =>
      rw [List.range_succ, List.map_append, List.flatMap_append, ih, Nat.mul_succ, slice_add,
        Nat.zero_add, ← wordBytes_read32, List.map_singleton, List.flatMap_singleton]

/-- The words of a transfer that is pushed as a whole hold its bytes. -/
theorem chunkWords_payload {w p : Nat} (hp : p ≤ 3) :
    ((chunkWords m buffer w p).flatMap wordBytes).take (4 * w + p)
      = slice (bytesAt m buffer) 0 (4 * w + p) := by
  have hwhole := wholeWords_bytes m buffer w
  rw [chunkWords, List.flatMap_append, hwhole, slice_add, Nat.zero_add]
  have hlen : (slice (bytesAt m buffer) 0 (4 * w)).length = 4 * w := slice_length ..
  rw [List.take_append, List.take_of_length_le (by omega), hlen, Nat.add_sub_cancel_left]
  congr 1
  -- behind the whole words come the bytes of the last one, if any
  by_cases hzero : p = 0
  · subst hzero
    rfl
  · rw [if_pos hzero, List.flatMap_singleton, wordBytes, ← List.map_take, List.take_range,
      Nat.min_eq_left (by omega)]
    refine List.map_congr_left fun i hi => ?_
    rw [byteOf32_wordValue hp (List.mem_range.mp hi), ← bytesAt_add]
    rfl

end Words

/-! ## The log -/

section Log

variable {log : List RegWrite} {t : Transfer} {ts : List Transfer}

theorem recent_append (log ws : List RegWrite) :
    recent (log ++ ws) = ws.foldl addWrite (recent log) := by
  rw [recent, List.foldl_append]
  rfl

theorem recent_transLen (log : List RegWrite) (v : BitVec 32) :
    recent (log ++ [memWrite geni4ImageRegs uartTxTransLenAddr v]) = ⟨v, []⟩ :: recent log := by
  rw [recent_append]
  rfl

/-- Other registers have no part in a transfer. -/
theorem recent_other (log : List RegWrite) {w : RegWrite}
    (hlen : w.offset ≠ geni4ImageRegs + uartTxTransLenAddr)
    (hfifo : w.offset ≠ geni4Data + geniTxFifoAddr) : recent (log ++ [w]) = recent log := by
  rw [recent_append]
  exact (if_neg hlen).trans (if_neg hfifo)

theorem recent_watermark (log : List RegWrite) (send : BitVec 64) (sent : BitVec 32) :
    recent (log ++ [watermarkWrite send sent]) = recent log := by
  refine recent_other log ?_ ?_
  · rw [watermarkWrite, memWrite]
    split_ifs
    · decide
    · decide
  · rw [watermarkWrite, memWrite]
    split_ifs
    · decide
    · decide

theorem recent_words (words : List (BitVec 32)) (h : recent log = t :: ts) :
    recent (log ++ words.map txFifoWrite) = { t with words := t.words ++ words } :: ts := by
  induction words generalizing log t with
  | nil =>
      rw [List.map_nil, List.append_nil, List.append_nil]
      exact h
  | cons word words ih =>
      have hword : recent (log ++ [txFifoWrite word])
          = { t with words := t.words ++ [word] } :: ts := by
        rw [recent_append, h]
        rfl
      have hrest := ih hword
      rw [List.append_assoc, List.append_assoc] at hrest
      exact hrest

end Log

/-! ## One turn -/

section Turn

variable {env : Env} {m : Mem} {txFifoSize : BitVec 32} {s : State}

theorem payload_length (t : Transfer) :
    t.payload.length = min t.len.toNat (4 * t.words.length) := by
  have hbytes : (t.words.flatMap wordBytes).length = 4 * t.words.length := by
    induction t.words with
    | nil => rfl
    | cons w ws ih =>
        rw [List.flatMap_cons, List.length_append, ih, List.length_cons]
        show 4 + _ = _
        omega
  rw [Transfer.payload, List.length_take, hbytes]

/-- A transfer is complete when it has as many words as its length asks for. -/
theorem complete_iff (t : Transfer) : t.Complete ↔ t.words.length = (t.len.toNat + 3) / 4 := by
  rw [Transfer.Complete, payload_length]
  omega

/-- The whole words that are pushed of `c` bytes when `free` words of the FIFO are free. -/
def wholeWords (c free : Nat) : Nat := min (c / 4) free

/-- The bytes that are pushed behind them. -/
def tailBytes (c free : Nat) : Nat := if free ≤ c / 4 then 0 else c % 4

theorem toSend_toNat {full tail : BitVec 32} {c : Nat} (hfull : full.toNat = c / 4)
    (htail : tail.toNat = c % 4) (slots : BitVec 32) :
    (toSend full tail slots).1.toNat = wholeWords c slots.toNat ∧
      (toSend full tail slots).2.toNat = tailBytes c slots.toNat := by
  constructor
  · show (if full > slots then slots else full).toNat = _
    rw [wholeWords, ← hfull]
    split_ifs with h
    · exact (Nat.min_eq_right (Nat.le_of_lt h)).symm
    · exact (Nat.min_eq_left (Nat.not_lt.mp h)).symm
  · show (if full ≥ slots then 0#32 else tail).toNat = _
    rw [tailBytes, ← hfull, ← htail]
    by_cases h : full ≥ slots
    · rw [if_pos h, if_pos (BitVec.le_def.mp h)]
      rfl
    · rw [if_neg h, if_neg fun hle => h (BitVec.le_def.mpr hle)]

/-- The words that are pushed of `c` bytes. -/
def pushedWords (m : Mem) (buffer : Addr) (c free : Nat) : List (BitVec 32) :=
  chunkWords m buffer (wholeWords c free) (tailBytes c free)

theorem pushedWords_length (m : Mem) (buffer : Addr) (c free : Nat) :
    (pushedWords m buffer c free).length = min ((c + 3) / 4) free := by
  rw [pushedWords, chunkWords_length, wholeWords, tailBytes]
  by_cases h : free ≤ c / 4
  · rw [if_pos h, if_neg (not_not.mpr rfl)]
    omega
  · rw [if_neg h]
    split_ifs
    · omega
    · omega

/-- When all the words fit, they hold the bytes. -/
theorem pushedWords_payload {buffer : Addr} {c free : Nat} (hfit : (c + 3) / 4 ≤ free) :
    ((pushedWords m buffer c free).flatMap wordBytes).take c = slice (bytesAt m buffer) 0 c := by
  have hwhole : wholeWords c free = c / 4 := Nat.min_eq_left (by omega)
  have htail : tailBytes c free = c % 4 := by
    rw [tailBytes]
    split_ifs
    · omega
    · rfl
  have hc : 4 * (c / 4) + c % 4 = c := Nat.div_add_mod c 4
  have hpayload : ((chunkWords m buffer (c / 4) (c % 4)).flatMap wordBytes).take
      (4 * (c / 4) + c % 4) = slice (bytesAt m buffer) 0 (4 * (c / 4) + c % 4) :=
    chunkWords_payload (by omega)
  rw [hc] at hpayload
  rw [pushedWords, hwhole, htail]
  exact hpayload

theorem sendChunk_eq {send : BitVec 64} (hsend : send.toNat < 2 ^ 32)
    (hocc : occupancy env s.fifoReads ≤ fifoSize env) :
    ∃ sent, sendChunk env m send s = { s with
      fifoReads := s.fifoReads + 1
      buffer := s.buffer + BitVec.ofNat 64
        (4 * wholeWords send.toNat (depth env - (occupancy env s.fifoReads).toNat))
      log := s.log ++ (pushedWords m s.buffer send.toNat
        (depth env - (occupancy env s.fifoReads).toNat)).map txFifoWrite
          ++ [watermarkWrite send sent] } := by
  have hslots : (fifoSize env - occupancy env s.fifoReads).toNat
      = depth env - (occupancy env s.fifoReads).toNat := BitVec.toNat_sub_of_le hocc
  have hfull : ((send >>> 2).setWidth 32).toNat = send.toNat / 4 := by
    rw [BitVec.toNat_setWidth, BitVec.toNat_ushiftRight, Nat.shiftRight_eq_div_pow]
    omega
  have htail : ((send &&& 3#64).setWidth 32).toNat = send.toNat % 4 := by
    have hmod : send.toNat &&& 3 = send.toNat % 4 := Nat.and_two_pow_sub_one_eq_mod send.toNat 2
    rw [BitVec.toNat_setWidth, BitVec.toNat_and]
    show (send.toNat &&& 3) % _ = _
    rw [hmod]
    omega
  obtain ⟨hwords, hbytes⟩ :=
    toSend_toNat hfull htail (fifoSize env - occupancy env s.fifoReads)
  rw [hslots] at hwords hbytes
  rw [sendChunk]
  dsimp only
  rw [hwords, pushWords_eq, hbytes]
  generalize hsent : (toSend _ _ _).2 = bytesSend at hbytes ⊢
  -- the loop over the bytes is entered only for a part of a word
  by_cases hzero : bytesSend = 0#32
  · have hnone : tailBytes send.toNat (depth env - (occupancy env s.fifoReads).toNat) = 0 := by
      rw [← hbytes, hzero]
      rfl
    refine ⟨?_, ?_⟩
    rotate_left
    · rw [if_neg (not_not.mpr hzero), pushedWords, hnone, chunkWords, if_neg (not_not.mpr rfl),
        List.append_nil]
      rfl
  · have hsome : tailBytes send.toNat (depth env - (occupancy env s.fifoReads).toNat) ≠ 0 := by
      rw [← hbytes]
      exact fun h => hzero (BitVec.eq_of_toNat_eq h)
    refine ⟨?_, ?_⟩
    rotate_left
    · rw [if_pos hzero, pushedWords, chunkWords, if_pos hsome, List.map_append, List.map_singleton,
        ← List.append_assoc]
      rfl

theorem send_toNat (txFifoSize : BitVec 32) (bytesRemain : BitVec 64) :
    (send txFifoSize bytesRemain).toNat = min bytesRemain.toNat txFifoSize.toNat := by
  have hsize : (txFifoSize.setWidth 64).toNat = txFifoSize.toNat := by
    rw [BitVec.toNat_setWidth]
    omega
  rw [send, ← hsize]
  split_ifs with h
  · exact (Nat.min_eq_right (Nat.le_of_lt h)).symm
  · exact (Nat.min_eq_left (Nat.not_lt.mp h)).symm

theorem turn_busy (h : Busy env s.statusReads) :
    turn env m txFifoSize s = { s with statusReads := s.statusReads + 1 } := if_pos h

/-- From `s` to `t` a transfer of `c` bytes was begun, and its words pushed as far as `free`
    words were free. -/
structure Transfers (m : Mem) (c free : Nat) (s t : State) : Prop where
  fifoReads : t.fifoReads = s.fifoReads + 1
  bytesRemain : t.bytesRemain.toNat = s.bytesRemain.toNat - c
  buffer : t.buffer = s.buffer + BitVec.ofNat 64 (4 * wholeWords c free)
  log : ∃ len : BitVec 32, len.toNat = c ∧
    recent t.log = ⟨len, pushedWords m s.buffer c free⟩ :: recent s.log

theorem turn_idle (hsize : txFifoSize.toNat = 4 * depth env) (hdepth : 0 < depth env)
    (hocc : occupancy env s.fifoReads ≤ fifoSize env) (hremain : 0 < s.bytesRemain.toNat)
    (h : ¬Busy env s.statusReads) :
    Transfers m (min s.bytesRemain.toNat (4 * depth env))
      (depth env - (occupancy env s.fifoReads).toNat) s (turn env m txFifoSize s) := by
  have hsend := send_toNat txFifoSize s.bytesRemain
  rw [hsize] at hsend
  have hne : send txFifoSize s.bytesRemain ≠ 0#64 := by
    intro hzero
    rw [hzero] at hsend
    have hmin : 0 = min s.bytesRemain.toNat (4 * depth env) := hsend
    omega
  rw [turn]
  dsimp only
  rw [if_neg h, if_pos hne]
  generalize send txFifoSize s.bytesRemain = c at *
  obtain ⟨s', hs', hfifo, hbuffer, hbytes, hlog⟩ : ∃ s' : State, s' = (({ s with
      statusReads := s.statusReads + 1 } : State).write (memWrite geni4ImageRegs
        uartTxTransLenAddr (c.setWidth 32))).write (memWrite geni4Data geniMCmd0Addr 0x08000000#32)
      ∧ s'.fifoReads = s.fifoReads ∧ s'.buffer = s.buffer ∧ s'.bytesRemain = s.bytesRemain ∧
      recent s'.log = ⟨c.setWidth 32, []⟩ :: recent s.log := by
    refine ⟨_, rfl, rfl, rfl, rfl, ?_⟩
    refine (recent_other _ (by decide) (by decide)).trans ?_
    exact recent_transLen s.log _
  -- the length and the command are written: a new transfer without words
  rw [← hs']
  obtain ⟨sent, hchunk⟩ : ∃ sent, sendChunk env m c s' = { s' with
      fifoReads := s'.fifoReads + 1
      buffer := s'.buffer + BitVec.ofNat 64
        (4 * wholeWords c.toNat (depth env - (occupancy env s'.fifoReads).toNat))
      log := s'.log ++ (pushedWords m s'.buffer c.toNat
        (depth env - (occupancy env s'.fifoReads).toNat)).map txFifoWrite
          ++ [watermarkWrite c sent] } := by
    refine sendChunk_eq (by omega) ?_
    rw [hfifo]
    exact hocc
  rw [hfifo, hbuffer] at hchunk
  rw [hchunk, ← hsend]
  refine ⟨rfl, ?_, rfl, c.setWidth 32, ?_, ?_⟩
  · show (s'.bytesRemain - c).toNat = _
    rw [hbytes, BitVec.toNat_sub_of_le (BitVec.le_def.mpr (by omega))]
  · rw [BitVec.toNat_setWidth]
    omega
  · rw [recent_watermark, recent_words _ hlog]
    rfl

end Turn

/-! ## The loop -/

section Loop

variable {env : Env} {m : Mem} {buffer : Addr} {n : Nat} {txFifoSize : BitVec 32} {s t : State}

/-- The bytes of transfer `j` of `n` bytes. -/
def chunk (env : Env) (n j : Nat) : Nat := min (n - 4 * depth env * j) (4 * depth env)

/-- The words of transfer `j` fit into the FIFO. -/
def Fits (env : Env) (n j : Nat) : Prop :=
  (occupancy env j).toNat + (chunk env n j + 3) / 4 ≤ depth env

instance (env : Env) (n j : Nat) : Decidable (Fits env n j) := inferInstanceAs (Decidable (_ ≤ _))

/-- The state after `fifoReads` transfers of `n` bytes. -/
structure Inv (env : Env) (m : Mem) (buffer : Addr) (n : Nat) (s : State) : Prop where
  remain : s.bytesRemain.toNat = n - 4 * depth env * s.fifoReads
  begun : ∀ j < s.fifoReads, 4 * depth env * j < n
  complete : (∀ t ∈ recent s.log, t.Complete) ↔ ∀ j < s.fifoReads, Fits env n j
  sent : (∀ j < s.fifoReads, Fits env n j) →
    (recent s.log).reverse.flatMap Transfer.payload
      = slice (bytesAt m buffer) 0 (n - s.bytesRemain.toNat) ∧
    (0 < s.bytesRemain.toNat → s.buffer = buffer + BitVec.ofNat 64 (n - s.bytesRemain.toNat))

theorem Inv.start (env : Env) (m : Mem) (buffer : Addr) (bytes : BitVec 64) :
    Inv env m buffer bytes.toNat (State.start buffer bytes) := by
  refine ⟨rfl, fun j hj => absurd hj (Nat.not_lt_zero j), ?_, fun _ => ?_⟩
  · constructor
    · exact fun _ j hj => absurd hj (Nat.not_lt_zero j)
    · exact fun _ t ht => absurd ht List.not_mem_nil
  · show ([] : List Byte) = slice _ 0 (bytes.toNat - bytes.toNat) ∧
      (_ → buffer = buffer + BitVec.ofNat 64 (bytes.toNat - bytes.toNat))
    rw [Nat.sub_self]
    exact ⟨rfl, fun _ => (BitVec.add_zero buffer).symm⟩

/-- A transfer is complete exactly when its words fit. -/
theorem pushedWords_complete_iff {c free : Nat} {len : BitVec 32} (hlen : len.toNat = c)
    (b : Addr) : (⟨len, pushedWords m b c free⟩ : Transfer).Complete ↔ (c + 3) / 4 ≤ free := by
  rw [complete_iff, pushedWords_length, hlen]
  omega

/-- A transfer whose words fit sends the bytes at the pointer of the buffer. -/
theorem pushedWords_sends {c free k : Nat} {len : BitVec 32} (hlen : len.toNat = c)
    (hfit : (c + 3) / 4 ≤ free) :
    (⟨len, pushedWords m (buffer + BitVec.ofNat 64 k) c free⟩ : Transfer).payload
      = slice (bytesAt m buffer) k c := by
  rw [Transfer.payload, hlen, pushedWords_payload hfit]
  apply List.map_congr_left
  intro i _
  rw [bytesAt_add, Nat.zero_add]

/-- One more transfer. -/
theorem Inv.transfers (h : Inv env m buffer n s) (hdepth : 0 < depth env)
    (hocc : (occupancy env s.fifoReads).toNat ≤ depth env) (hremain : 0 < s.bytesRemain.toNat)
    (ht : Transfers m (min s.bytesRemain.toNat (4 * depth env))
      (depth env - (occupancy env s.fifoReads).toNat) s t) : Inv env m buffer n t := by
  have hchunk : min s.bytesRemain.toNat (4 * depth env) = chunk env n s.fifoReads := by
    rw [chunk, h.remain]
  have hnext : 4 * depth env * (s.fifoReads + 1)
      = 4 * depth env * s.fifoReads + 4 * depth env := Nat.mul_succ ..
  have hbegun : 4 * depth env * s.fifoReads < n := by
    have hrem := h.remain
    omega
  have hfits : (min s.bytesRemain.toNat (4 * depth env) + 3) / 4
      ≤ depth env - (occupancy env s.fifoReads).toNat ↔ Fits env n s.fifoReads := by
    rw [Fits, ← hchunk]
    omega
  have hsucc : ∀ P : Nat → Prop,
      (∀ j < t.fifoReads, P j) ↔ P s.fifoReads ∧ ∀ j < s.fifoReads, P j := by
    intro P
    rw [ht.fifoReads, Nat.forall_lt_succ_right, and_comm]
  obtain ⟨len, hlen, hlog⟩ := ht.log
  constructor
  · rw [ht.bytesRemain, ht.fifoReads, hnext, h.remain]
    omega
  · rw [hsucc]
    exact ⟨hbegun, h.begun⟩
  · rw [hlog, hsucc, List.forall_mem_cons, pushedWords_complete_iff hlen, hfits, h.complete]
  · rw [hsucc]
    rintro ⟨hfit, hbefore⟩
    obtain ⟨hpayload, hbuffer⟩ := h.sent hbefore
    have hbuffer := hbuffer hremain
    have hremainLe : s.bytesRemain.toNat ≤ n := by
      have hrem := h.remain
      omega
    constructor
    · have hsum : n - t.bytesRemain.toNat
          = n - s.bytesRemain.toNat + min s.bytesRemain.toNat (4 * depth env) := by
        rw [ht.bytesRemain]
        omega
      rw [hlog, List.reverse_cons, List.flatMap_append, hpayload, List.flatMap_singleton, hbuffer,
        pushedWords_sends hlen (hfits.mpr hfit), hsum, slice_add, Nat.zero_add]
    · intro hmore
      -- More is to be sent, so that the transfer was a full one.
      rw [Fits, ← hchunk] at hfit
      rw [ht.bytesRemain] at hmore
      have hwhole : 4 * wholeWords (min s.bytesRemain.toNat (4 * depth env))
          (depth env - (occupancy env s.fifoReads).toNat) = 4 * depth env := by
        rw [wholeWords]
        omega
      have hsum : n - t.bytesRemain.toNat = n - s.bytesRemain.toNat + 4 * depth env := by
        rw [ht.bytesRemain]
        omega
      rw [ht.buffer, hwhole, hbuffer, hsum, BitVec.ofNat_add, BitVec.add_assoc]

theorem Inv.busy (h : Inv env m buffer n s) :
    Inv env m buffer n { s with statusReads := s.statusReads + 1 } :=
  ⟨h.remain, h.begun, h.complete, h.sent⟩

/-- A turn keeps the invariant. -/
theorem Inv.turn (h : Inv env m buffer n s) (hsize : txFifoSize.toNat = 4 * depth env)
    (hdepth : 0 < depth env) (hocc : ∀ k, (occupancy env k).toNat ≤ depth env)
    (hremain : 0 < s.bytesRemain.toNat) : Inv env m buffer n (turn env m txFifoSize s) := by
  by_cases hbusy : Busy env s.statusReads
  · rw [turn_busy hbusy]
    exact h.busy
  · exact h.transfers hdepth (hocc _) hremain (turn_idle hsize hdepth (hocc _) hremain hbusy)

/-- The device becomes idle again and again. -/
def Idles (env : Env) : Prop := ∀ k, ∃ i, k ≤ i ∧ ¬Busy env i

theorem unsent_iff (s : State) : s.unsent = true ↔ 0 < s.bytesRemain.toNat := by
  rw [State.unsent, decide_eq_true_iff, gt_iff_lt, BitVec.lt_def]
  rfl

/-- A turn sends bytes, or comes nearer to a reading at which the device is idle. -/
theorem loop_ends (hsize : txFifoSize.toNat = 4 * depth env) (hdepth : 0 < depth env)
    (hocc : ∀ k, (occupancy env k).toNat ≤ depth env) (hidle : Idles env) (s : State) :
    ∃ fuel t, whileFuel State.unsent (turn env m txFifoSize) fuel s = some t := by
  have hwf := (Prod.lex ⟨(· < ·), Nat.lt_wfRel.wf⟩ ⟨(· < ·), Nat.lt_wfRel.wf⟩).wf
  refine exists_whileFuel (InvImage.wf (fun s : State =>
    (s.bytesRemain.toNat, Nat.find (hidle s.statusReads) - s.statusReads)) hwf) ?_ s
  intro s hs
  rw [unsent_iff] at hs
  by_cases hbusy : Busy env s.statusReads
  · -- busy: nearer to the reading at which it is idle
    rw [turn_busy hbusy]
    refine Prod.Lex.right _ ?_
    obtain ⟨hle, hnot⟩ := Nat.find_spec (hidle s.statusReads)
    have hne : Nat.find (hidle s.statusReads) ≠ s.statusReads := by
      intro heq
      rw [heq] at hnot
      exact hnot hbusy
    have hsame : Nat.find (hidle (s.statusReads + 1)) ≤ Nat.find (hidle s.statusReads) :=
      Nat.find_min' _ ⟨by omega, hnot⟩
    show Nat.find (hidle (s.statusReads + 1)) - (s.statusReads + 1) < _
    omega
  · -- idle: fewer bytes remain
    have ht := turn_idle (m := m) hsize hdepth (hocc _) hs hbusy
    have hlt : (turn env m txFifoSize s).bytesRemain.toNat < s.bytesRemain.toNat := by
      rw [ht.bytesRemain]
      omega
    exact Prod.Lex.left _ _ hlt

end Loop

/-! ## The whole call -/

section Call

variable {env : Env} {m : Mem} {buffer : Addr} {bytes : BitVec 64} {txFifoSize : BitVec 32}

/-- Every transfer fits into the FIFO: the words of transfer `j` and those that are still in
    the FIFO when it is pushed are at most the depth. -/
def AllFit (env : Env) (bytes : BitVec 64) : Prop :=
  ∀ j, 4 * depth env * j < bytes.toNat → Fits env bytes.toNat j

/-- A call that returns has delivered the buffer exactly when every transfer fitted. -/
theorem delivered_iff (hreached : Reached env.hwParam0 txFifoSize) (hdepth : 0 < depth env)
    (hocc : ∀ k, (occupancy env k).toNat ≤ depth env) {fuel : Nat} {r : Result}
    (hrun : serialPortWrite env m buffer bytes txFifoSize fuel = some r) :
    Delivered m buffer bytes r ↔ AllFit env bytes := by
  rw [serialPortWrite, Option.map_eq_some_iff] at hrun
  obtain ⟨t, ht, rfl⟩ := hrun
  obtain ⟨hinv, hdone⟩ := whileFuel_invariant (I := Inv env m buffer bytes.toNat)
    (fun s hs hmore => hs.turn hreached.toNat hdepth hocc ((unsent_iff s).mp hmore))
    (Inv.start env m buffer bytes) ht
  have hzero : t.bytesRemain.toNat = 0 := by
    rw [← Bool.not_eq_true, unsent_iff] at hdone
    omega
  -- The transfers that were begun are all that the bytes ask for.
  have hrange : (∀ j < t.fifoReads, Fits env bytes.toNat j) ↔ AllFit env bytes := by
    constructor
    · intro h j hj
      refine h j ?_
      have hremain := hinv.remain
      by_contra hge
      have hmul := Nat.mul_le_mul_left (4 * depth env) (Nat.not_lt.mp hge)
      omega
    · exact fun h j hj => h j (hinv.begun j hj)
  rw [← hrange, ← hinv.complete]
  constructor
  · intro h t' ht'
    exact h.lengths t' (List.mem_reverse.mpr ht')
  · intro h
    obtain ⟨hpayload, _⟩ := hinv.sent (hinv.complete.mp h)
    rw [hzero, Nat.sub_zero] at hpayload
    refine ⟨hpayload, fun t' ht' => h t' (List.mem_reverse.mp ht'), ?_⟩
    show bytes.toNat = _
    rw [transfers, hpayload, slice_length]

/-- After any earlier calls, a call that returns has delivered the buffer exactly when every
    transfer fitted into the FIFO, and on a device that finishes its commands it returns. -/
theorem serialPortWrite_delivers_iff (hreached : Reached env.hwParam0 txFifoSize)
    (hdepth : 0 < depth env) (hocc : ∀ k, (occupancy env k).toNat ≤ depth env) :
    (∀ fuel r, serialPortWrite env m buffer bytes txFifoSize fuel = some r →
      (Delivered m buffer bytes r ↔ AllFit env bytes)) ∧
    (Idles env → ∃ fuel r, serialPortWrite env m buffer bytes txFifoSize fuel = some r) := by
  constructor
  · exact fun fuel r hrun => delivered_iff hreached hdepth hocc hrun
  · intro hidle
    obtain ⟨fuel, t, ht⟩ := loop_ends (m := m) hreached.toNat hdepth hocc hidle
      (State.start buffer bytes)
    refine ⟨fuel, ⟨bytes, initTxFifoSize env txFifoSize, t.log⟩, ?_⟩
    rw [serialPortWrite, ht]
    rfl

/-- An idle device whose FIFO of 16 words always holds the same number of words. -/
def steady (words : BitVec 32) : Env where
  hwParam0 := 0x100000#32
  geniStatus := fun _ => 0#32
  txFifoStatus := fun _ => words

theorem steady_occupancy (words : BitVec 32) (k : Nat) :
    occupancy (steady words) k = words &&& geniTxFifoStatusMask &&& txFifoWc := rfl

theorem steady_idles (words : BitVec 32) : Idles (steady words) := by
  intro k
  refine ⟨k, Nat.le_refl k, ?_⟩
  show ¬0#32 &&& geniStatusMask &&& mGeniCmdActive ≠ 0#32
  decide

theorem steady_empty_allFit : AllFit (steady 0#32) 100#64 := by
  intro j hj
  have hdepth : depth (steady 0#32) = 16 := rfl
  have hbytes : (100#64).toNat = 100 := rfl
  have hlt : j < 2 := by
    rw [hdepth, hbytes] at hj
    omega
  exact (by decide : ∀ j < 2, Fits (steady 0#32) (100#64).toNat j) j hlt

/-- A hundred bytes are delivered in two transfers to an empty FIFO. -/
theorem serialPortWrite_delivers_hundred :
    ∃ fuel r, serialPortWrite (steady 0#32) (fun a => a.setWidth 8) 0x1000#64 100#64 0#32 fuel
      = some r ∧ Delivered (fun a => a.setWidth 8) 0x1000#64 100#64 r :=
  have hocc : ∀ k, (occupancy (steady 0#32) k).toNat ≤ depth (steady 0#32) := fun k => by
    rw [steady_occupancy]
    decide
  have ⟨hdelivered, hends⟩ := serialPortWrite_delivers_iff .start (by decide) hocc
  have ⟨fuel, r, hrun⟩ := hends (steady_idles 0#32)
  ⟨fuel, r, hrun, (hdelivered fuel r hrun).mpr steady_empty_allFit⟩

/-- The FIFO is full when four bytes are to be sent: nothing is pushed, and four is returned. -/
theorem serialPortWrite_drops : ¬∀ env m buffer bytes, 0 < depth env →
    (∀ k, (occupancy env k).toNat ≤ depth env) → Idles env →
    ∃ fuel r, serialPortWrite env m buffer bytes 0#32 fuel = some r ∧
      Delivered m buffer bytes r := by
  have hocc : ∀ k, (occupancy (steady 16#32) k).toNat ≤ depth (steady 16#32) := by
    intro k
    rw [steady_occupancy]
    decide
  intro h
  obtain ⟨fuel, r, hrun, hdelivered⟩ :=
    h (steady 16#32) (fun _ => 0#8) 0#64 4#64 (by decide) hocc (steady_idles 16#32)
  have hfit := (delivered_iff .start (by decide) hocc hrun).mp hdelivered 0 (by decide)
  exact absurd hfit (by decide)

end Call

end GeniWrite
