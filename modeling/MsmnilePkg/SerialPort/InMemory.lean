/-
  MsmnilePkg.SerialPort.InMemory

  The log in the PStore region: InMemorySerialPortLib.c, and the same code in
  BaseDebugLibInMemory/DebugLib.c.

  The last eight bytes of the region are the position of the log.  They
  survive a reboot, so the position may be any value when the first character
  comes.  Left out are the interrupt state and the cache.
-/

import MsmnilePkg.Lib.ByteMem
import MsmnilePkg.Lib.RingLog

namespace InMemorySerialPort

open ByteMem RingLog

/-- The fields of `PStore` that are used. -/
structure PStore where
  address : Addr
  length : BitVec 64

namespace PStore

/-- `PStore.Length - sizeof(UINTN)` -/
def size (p : PStore) : BitVec 64 := p.length - 8#64

/-- `offset`, behind the characters. -/
def offset (p : PStore) : Addr := p.address + p.size

end PStore

/-- `*offset = *offset % size` -/
def normalize (p : PStore) (m : Mem) : Mem :=
  write64 m p.offset (read64 m p.offset % p.size)

/-- `&base[*offset]` -/
def charAddr (p : PStore) (m : Mem) : Addr := p.address + read64 m p.offset

/-- `mem_putchar` -/
def memPutchar (p : PStore) (m : Mem) (c : Byte) : Mem :=
  let m := normalize p m
  let m := write8 m (charAddr p m) c
  write64 m p.offset ((read64 m p.offset + 1#64) % p.size)

/-- `SerialPortWrite`: the number of bytes, and the memory. -/
def serialPortWrite (p : PStore) (m : Mem) (buffer : List Byte) : Nat × Mem :=
  (buffer.length, buffer.foldl (memPutchar p) m)

/-- `InMemoryWrite` of DebugLib.c -/
def inMemoryWrite (p : PStore) (m : Mem) (buffer : List Byte) : Nat × Mem :=
  serialPortWrite p m buffer

/-- A call of one of the two libraries. -/
inductive Call where
  | serialPortWrite (buffer : List Byte)
  | inMemoryWrite (buffer : List Byte)

/-- The bytes a call writes. -/
def Call.buffer : Call → List Byte
  | .serialPortWrite buffer => buffer
  | .inMemoryWrite buffer => buffer

def Call.run (p : PStore) (m : Mem) : Call → Mem
  | .serialPortWrite buffer => (InMemorySerialPort.serialPortWrite p m buffer).2
  | .inMemoryWrite buffer => (InMemorySerialPort.inMemoryWrite p m buffer).2

/-- One call after the other. -/
def runCalls (p : PStore) (m : Mem) (calls : List Call) : Mem := calls.foldl (Call.run p) m

/-- However the stream is split into calls, its characters are put one after the other. -/
theorem runCalls_eq (p : PStore) (calls : List Call) (m : Mem) :
    runCalls p m calls = (calls.flatMap Call.buffer).foldl (memPutchar p) m := by
  induction calls generalizing m with
  | nil => rfl
  | cons call calls ih =>
      have hcall : Call.run p m call = call.buffer.foldl (memPutchar p) m := by
        cases call with
        | serialPortWrite buffer => rfl
        | inMemoryWrite buffer => rfl
      rw [runCalls, List.foldl_cons, ← runCalls, ih, hcall, List.flatMap_cons, List.foldl_append]

/-! ## One character -/

section Char

variable {p : PStore} {m : Mem}

/-- Byte `j` of the region. -/
def byteAddr (p : PStore) (j : Nat) : Addr := p.address + BitVec.ofNat 64 j

theorem size_toNat (hL : 16 < p.length.toNat) : p.size.toNat = p.length.toNat - 8 := by
  unfold PStore.size
  bv_omega

theorem byteAddr_inj {i j : Nat} (hi : i < 2 ^ 64) (hj : j < 2 ^ 64)
    (h : byteAddr p i = byteAddr p j) : i = j := by
  unfold byteAddr at h
  bv_omega

/-- The offset word lies behind the characters. -/
theorem offset_outside (hL : 16 < p.length.toNat) {j : Nat} (hj : j < p.size.toNat) :
    8 ≤ (byteAddr p j - p.offset).toNat := by
  have hsize := size_toNat hL
  unfold byteAddr PStore.offset
  bv_omega

theorem offset_eq (i : Nat) :
    p.offset + BitVec.ofNat 64 i = byteAddr p (p.size.toNat + i) := by
  unfold byteAddr PStore.offset
  rw [BitVec.ofNat_add, BitVec.add_assoc, BitVec.ofNat_toNat, BitVec.setWidth_eq]

/-- A character does not change the offset word. -/
theorem read64_putchar (hL : 16 < p.length.toNat) {j : Nat} (hj : j < p.size.toNat) (c : Byte) :
    read64 (write8 m (byteAddr p j) c) p.offset = read64 m p.offset := by
  have hsize := size_toNat hL
  refine read64_congr fun i hi => write8_of_ne fun heq => ?_
  rw [offset_eq] at heq
  have hindex := byteAddr_inj (by omega) (by omega) heq
  omega

/-- The memory holds the log. -/
structure Represents (p : PStore) (m : Mem) (r : Log Byte) : Prop where
  position : (read64 m p.offset).toNat = r.position
  cell : ∀ j < p.size.toNat, m (byteAddr p j) = r.cell j

theorem charAddr_normalize (p : PStore) (m : Mem) :
    charAddr p (normalize p m) = byteAddr p ((read64 m p.offset).toNat % p.size.toNat) := by
  rw [charAddr, normalize, read64_write64_self, byteAddr, ← BitVec.toNat_umod, BitVec.ofNat_toNat,
    BitVec.setWidth_eq]

/-- The address of a character is in front of the offset word. -/
theorem charAddr_inside (hL : 16 < p.length.toNat) (m : Mem) :
    (charAddr p (normalize p m) - p.address).toNat < p.size.toNat := by
  have hsize := size_toNat hL
  have hmod := Nat.mod_lt (read64 m p.offset).toNat (show 0 < p.size.toNat by omega)
  rw [charAddr_normalize]
  unfold byteAddr
  bv_omega

/-- `mem_putchar` stores an entry of the log. -/
theorem Represents.memPutchar (hL : 16 < p.length.toNat) {r : Log Byte} (h : Represents p m r)
    (c : Byte) : Represents p (memPutchar p m c) (r.push p.size.toNat c) := by
  have hsize := size_toNat hL
  have hpos : r.position % p.size.toNat < p.size.toNat := Nat.mod_lt _ (by omega)
  -- The character goes to the cell that the log writes next.
  have haddr : charAddr p (normalize p m) = byteAddr p (r.position % p.size.toNat) := by
    rw [charAddr_normalize, h.position]
  have hword : read64 (write8 (normalize p m) (charAddr p (normalize p m)) c) p.offset
      = read64 m p.offset % p.size := by
    rw [haddr, read64_putchar hL hpos, normalize, read64_write64_self]
  rw [InMemorySerialPort.memPutchar]
  constructor
  · rw [read64_write64_self, hword, BitVec.toNat_umod, BitVec.toNat_add, BitVec.toNat_umod,
      h.position, show (1#64).toNat = 1 from rfl,
      Nat.mod_eq_of_lt (show r.position % p.size.toNat + 1 < 2 ^ 64 by omega)]
    rfl
  · intro j hj
    rw [write64_of_outside (offset_outside hL hj), haddr]
    show _ = if j = r.position % p.size.toNat then c else r.cell j
    by_cases hhere : j = r.position % p.size.toNat
    · rw [if_pos hhere, hhere, write8_same]
    · -- Another cell is another byte of the buffer.
      have hne : byteAddr p j ≠ byteAddr p (r.position % p.size.toNat) := fun heq =>
        hhere (byteAddr_inj (by omega) (by omega) heq)
      rw [if_neg hhere, write8_of_ne hne, normalize, write64_of_outside (offset_outside hL hj),
        h.cell j hj]

/-- Nothing outside the region is changed. -/
theorem memPutchar_outside (hL : 16 < p.length.toNat) (c : Byte) {b : Addr}
    (hb : p.length.toNat ≤ (b - p.address).toNat) : memPutchar p m c b = m b := by
  have hsize := size_toNat hL
  have hinside := charAddr_inside hL m
  have hoffset : 8 ≤ (b - p.offset).toNat := by
    unfold PStore.offset PStore.size
    bv_omega
  have hne : b ≠ charAddr p (normalize p m) := by
    rintro rfl
    omega
  rw [InMemorySerialPort.memPutchar, write64_of_outside hoffset, write8_of_ne hne, normalize,
    write64_of_outside hoffset]

end Char

/-! ## The stream -/

/-- The law of the log, for a stream written to the memory `m`. -/
structure RingLaw (p : PStore) (m : Mem) (stream : List Byte) (m' : Mem) : Prop where
  offset : (read64 m' p.offset).toNat
    = ((read64 m p.offset).toNat % p.size.toNat + stream.length) % p.size.toNat
  recent : ∀ i (hi : i < stream.length),
    stream.length - min stream.length p.size.toNat ≤ i →
    m' (byteAddr p (((read64 m p.offset).toNat % p.size.toNat + i) % p.size.toNat)) = stream[i]
  other : ∀ j < p.size.toNat,
    (∀ i < stream.length, stream.length - min stream.length p.size.toNat ≤ i →
      ((read64 m p.offset).toNat % p.size.toNat + i) % p.size.toNat ≠ j) →
    m' (byteAddr p j) = m (byteAddr p j)
  /-- Every character goes in front of the offset word. -/
  inside : ∀ k < stream.length, (charAddr p (normalize p ((stream.take k).foldl (memPutchar p) m))
    - p.address).toNat < p.size.toNat
  outside : ∀ b, p.length.toNat ≤ (b - p.address).toNat → m' b = m b

section Stream

variable {p : PStore} {m : Mem}

theorem foldl_represents (hL : 16 < p.length.toNat) (stream : List Byte) {r : Log Byte}
    (h : Represents p m r) :
    Represents p (stream.foldl (memPutchar p) m) (r.pushAll p.size.toNat stream) := by
  induction stream generalizing m r with
  | nil => exact h
  | cons c stream ih => exact ih (h.memPutchar hL c)

theorem foldl_outside (hL : 16 < p.length.toNat) (stream : List Byte) {b : Addr}
    (hb : p.length.toNat ≤ (b - p.address).toNat) :
    stream.foldl (memPutchar p) m b = m b := by
  induction stream generalizing m with
  | nil => rfl
  | cons c stream ih => rw [List.foldl_cons, ih, memPutchar_outside hL c hb]

/-- The log of the region, whatever is in it. -/
def ringOf (p : PStore) (m : Mem) : Log Byte where
  position := (read64 m p.offset).toNat
  cell := fun j => m (byteAddr p j)

/-- Any sequence of calls that writes something leaves the region as the law says. -/
theorem pstore_ring_law (hL : 16 < p.length.toNat) (m : Mem) (calls : List Call)
    (hn : 0 < (calls.flatMap Call.buffer).length) :
    RingLaw p m (calls.flatMap Call.buffer) (runCalls p m calls) := by
  -- The area represents some log at the start, whatever it holds.
  have hstart : Represents p m (ringOf p m) := ⟨rfl, fun _ _ => rfl⟩
  rw [runCalls_eq]
  obtain ⟨stream, hstream⟩ : ∃ stream, stream = calls.flatMap Call.buffer := ⟨_, rfl⟩
  rw [← hstream] at hn ⊢
  have hend := foldl_represents hL stream hstart
  have hmod : ∀ i, ((read64 m p.offset).toNat % p.size.toNat + i) % p.size.toNat
      = ((ringOf p m).position + i) % p.size.toNat := fun i => Nat.mod_add_mod ..
  constructor
  · rw [hend.position, Log.pushAll_position hn, hmod]
  · intro i hi hrecent
    rw [hmod, hend.cell _ (Nat.mod_lt _ (by omega)), Log.pushAll_kept stream i hi (by omega)]
  · intro j hj hother
    rw [hend.cell j hj, Log.pushAll_other (by omega) stream fun i hi => ?_]
    · rfl
    · obtain ⟨hlt, hkept⟩ := hi
      rw [← hmod]
      exact hother i hlt (by omega)
  · exact fun k _ => charAddr_inside hL _
  · exact fun b hb => foldl_outside hL stream hb

/-- A region of 24 bytes with an offset word that is out of range, and a stream that goes
    around. -/
theorem pstore_ring_law_wraps : RingLaw ⟨0x1000#64, 24#64⟩
    (write64 (fun _ => 0#8) 0x1010#64 0xFFFFFFFFFFFFFFFF#64)
    ([.serialPortWrite [0x41, 0x42], .inMemoryWrite [0x43]].flatMap Call.buffer)
    (runCalls ⟨0x1000#64, 24#64⟩ (write64 (fun _ => 0#8) 0x1010#64 0xFFFFFFFFFFFFFFFF#64)
      [.serialPortWrite [0x41, 0x42], .inMemoryWrite [0x43]]) :=
  pstore_ring_law (by decide) _ _ (by decide)

end Stream

end InMemorySerialPort
