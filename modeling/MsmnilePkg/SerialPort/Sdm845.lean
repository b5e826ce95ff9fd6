/-
  MsmnilePkg.SerialPort.Sdm845

  The registers of the SDM845 UART and how the driver gets at them: sdm845.h, and
  `SDM845v2InitializePort` of UartSerialPortLib.c.

  The registers give any values, one for each read.  Every access is logged with the
  address it goes to and with the register that is meant, as an offset from the base
  address of the UART.
-/

import MsmnilePkg.Lib.LittleEndian

namespace Sdm845

open ByteMem LittleEndian

/-! ## Registers -/

def geniCfg : BitVec 32 := 0x0#32
def geniImageRegs : BitVec 32 := 0x100#32
def geniData : BitVec 32 := 0x600#32
def qupv3SeDma : BitVec 32 := 0xc00#32

def geniForceDefaultRegOffs : BitVec 32 := 0x20#32
def geniOutputCtrlOffs : BitVec 32 := 0x24#32
def geniCgcCtrlOffs : BitVec 32 := 0x28#32
def geniStatusOffs : BitVec 32 := 0x40#32
def geniSerMClkCfgOffs : BitVec 32 := 0x48#32
def geniSerSClkCfgOffs : BitVec 32 := 0x4c#32
def geniDfsIfCfgOffs : BitVec 32 := 0x80#32

def geniDmaModeEnOffs : BitVec 32 := 0x158#32
def uartTxTransCfgOffs : BitVec 32 := 0x15c#32
def uartTxWordLenOffs : BitVec 32 := 0x168#32
def uartTxStopBitLenOffs : BitVec 32 := 0x16c#32
def uartRxTransCfgOffs : BitVec 32 := 0x180#32
def uartRxWordLenOffs : BitVec 32 := 0x18c#32
def uartRxStaleCntOffs : BitVec 32 := 0x194#32
def uartTxParityCfgOffs : BitVec 32 := 0x1a4#32
def uartRxParityCfgOffs : BitVec 32 := 0x1a8#32

def geniMIrqEnableOffs : BitVec 32 := 0x14#32
def geniSCmd0Offs : BitVec 32 := 0x30#32
def geniSIrqStatusOffs : BitVec 32 := 0x40#32
def geniSIrqEnableOffs : BitVec 32 := 0x44#32
def geniSIrqClearOffs : BitVec 32 := 0x48#32
def geniRxFifoStatusOffs : BitVec 32 := 0x204#32
def geniTxWatermarkRegOffs : BitVec 32 := 0x20c#32
def geniRxWatermarkRegOffs : BitVec 32 := 0x210#32
def geniRxRfrWatermarkRegOffs : BitVec 32 := 0x214#32

def seGsiEventEnOffs : BitVec 32 := 0x218#32
def seIrqEnOffs : BitVec 32 := 0x21c#32
def seHwParam0Offs : BitVec 32 := 0x224#32
def seHwParam1Offs : BitVec 32 := 0x228#32
def dmaGeneralCfgOffs : BitVec 32 := 0x230#32

/-- `HWIO_GENI_RX_FIFOn_OFFS` -/
def geniRxFifonOffs (n : BitVec 32) : BitVec 32 := 0x180#32 + 0x4#32 * n

def geniStatusMGeniCmdActive : BitVec 32 := 0x1#32
def rxFifoWatermarkIrq : BitVec 32 := 0x4000000#32
def rxLastValidBytesMask : BitVec 32 := 0x70000000#32
def rxLastValidBytesShift : Nat := 0x1c
def rxFifoWc : BitVec 32 := 0x1ffffff#32
def rxFifoDepthMask : BitVec 32 := 0x3f0000#32
def rxFifoDepthShift : Nat := 0x10

def maxRxFifoSize : Nat := 128
def maxRetries : Nat := 0x100000

/-! ## Accesses -/

/-- `PcdUartSerialBase`, `PcdUartDefaultBaudRate`, and what each read of a register gives. -/
structure Uart where
  base : BitVec 32
  baudRate : BitVec 32
  reads : Nat → BitVec 32

/-- The register that is meant, the address that is used, and the value of a write. -/
structure Access where
  register : BitVec 32
  address : BitVec 32
  written : Option (BitVec 32)

/-- `Transfer`, with the offset of `PtrToFifoBuffer` in `FifoBuffer`, and what has been read
    and written. -/
structure State where
  fifoBuffer : Buffer
  availableBytes : BitVec 32
  ptrToFifoBuffer : Nat
  reads : Nat
  accesses : List Access
  /-- The valid bytes of the words popped from the receive FIFO. -/
  popped : List Byte

/-- The static data before the first call. -/
def State.initial : State :=
  { fifoBuffer := fun _ => 0#8, availableBytes := 0#32, ptrToFifoBuffer := 0, reads := 0,
    accesses := [], popped := [] }

/-- `(UINT8)addr + offset` of the macros, where `addr` is the base and a module's offset: the
    cast is applied to the base alone. -/
def regAddress (u : Uart) (module offs : BitVec 32) : BitVec 32 :=
  (u.base.setWidth 8).setWidth 32 + module + offs

/-- The state after `UART_DM_READ_REG`. -/
def State.read (u : Uart) (module offs : BitVec 32) (s : State) : State :=
  { s with
    reads := s.reads + 1
    accesses := s.accesses ++ [⟨module + offs, regAddress u module offs, none⟩] }

/-- The value that `UART_DM_READ_REG` gives. -/
def State.value (u : Uart) (s : State) : BitVec 32 := u.reads s.reads

/-- `UART_DM_WRITE_REG` -/
def State.write (u : Uart) (module offs val : BitVec 32) (s : State) : State :=
  { s with accesses := s.accesses ++ [⟨module + offs, regAddress u module offs, some val⟩] }

/-- Writes in a row: the module, the offset and the value of each. -/
def State.writes (u : Uart) (ws : List (BitVec 32 × BitVec 32 × BitVec 32)) (s : State) : State :=
  ws.foldl (fun s w => s.write u w.1 w.2.1 w.2.2) s

/-! ## SDM845v2InitializePort -/

/-- The `switch` over `Rate` -/
def divisorLatch (rate : BitVec 32) : BitVec 32 :=
  match rate.toNat with
  | 7200 => 0x40#32
  | 9600 => 0x30#32
  | 14400 => 0x20#32
  | 19200 => 0x18#32
  | 28800 => 0x10#32
  | 38400 => 0xc#32
  | 57600 => 0x8#32
  | 115200 => 0x4#32
  | _ => 0x1#32

/-- `SDM845v2SetBaud` -/
def setBaud (u : Uart) (s : State) : Bool × State :=
  if u.base = 0#32 then (false, s)
  else
    let latch := s.value u
    let s := s.read u geniCfg geniSerMClkCfgOffs
    if latch = 0x11#32 then (false, s)
    else
      let mask := (divisorLatch u.baudRate <<< 4) ||| 0x1#32
      (true, s.writes u [(geniCfg, geniSerMClkCfgOffs, mask), (geniCfg, geniSerSClkCfgOffs, mask)])

/-- The loop that waits for the state machine, with the retries that are left. -/
def waitIdle (u : Uart) : Nat → State → Bool × State
  | 0, s => (false, s)
  | retries + 1, s =>
      if s.value u &&& geniStatusMGeniCmdActive = 0#32 then
        (true, s.read u geniCfg geniStatusOffs)
      else waitIdle u retries (s.read u geniCfg geniStatusOffs)

/-- The writes up to the first read of a FIFO's depth. -/
def configWrites : List (BitVec 32 × BitVec 32 × BitVec 32) :=
  [(geniCfg, geniDfsIfCfgOffs, 0x0#32), (qupv3SeDma, dmaGeneralCfgOffs, 0x55#32),
    (geniCfg, geniCgcCtrlOffs, 0x7f#32), (geniCfg, geniForceDefaultRegOffs, 0x1#32),
    (geniCfg, geniOutputCtrlOffs, 0x7f#32), (geniImageRegs, geniDmaModeEnOffs, 0#32),
    (qupv3SeDma, seIrqEnOffs, 0xffffffff#32), (qupv3SeDma, seGsiEventEnOffs, 0#32),
    (geniData, geniMIrqEnableOffs, 0xb300005f#32), (geniData, geniSIrqEnableOffs, 0xb3007e5f#32)]

/-- The writes after the baud rate. -/
def portWrites : List (BitVec 32 × BitVec 32 × BitVec 32) :=
  [(geniImageRegs, uartTxWordLenOffs, 0x8#32), (geniImageRegs, uartRxWordLenOffs, 0x8#32),
    (geniImageRegs, uartTxParityCfgOffs, 0x0#32), (geniImageRegs, uartTxTransCfgOffs, 0x2#32),
    (geniImageRegs, uartRxParityCfgOffs, 0x0#32), (geniImageRegs, uartRxTransCfgOffs, 0x0#32),
    (geniImageRegs, uartTxStopBitLenOffs, 0x0#32),
    (geniImageRegs, uartRxStaleCntOffs, 0x16#32 * 10#32), (geniData, geniSCmd0Offs, 0x8000000#32)]

/-- `SDM845v2InitializePort` behind the loop. -/
def configure (u : Uart) (s : State) : State :=
  -- The depth of the transmit FIFO is read and not used.
  let s := ((s.writes u configWrites).read u qupv3SeDma seHwParam0Offs).write u geniData
    geniTxWatermarkRegOffs 4#32
  let depth := (s.value u &&& rxFifoDepthMask) >>> rxFifoDepthShift
  let s := (s.read u qupv3SeDma seHwParam1Offs).writes u
    [(geniData, geniRxWatermarkRegOffs, depth - 8#32),
      (geniData, geniRxRfrWatermarkRegOffs, depth - 4#32)]
  (setBaud u s).2.writes u portWrites

/-- `SDM845v2InitializePort` -/
def initializePort (u : Uart) (s : State) : Bool × State :=
  let waited := waitIdle u maxRetries s
  if waited.1 = false then waited else (true, configure u waited.2)

/-! ## Where the accesses go -/

/-- Every access goes to the lowest byte of the base and the offset of the register. -/
def Through (u : Uart) (s : State) : Prop :=
  ∀ a ∈ s.accesses, a.address = (u.base.setWidth 8).setWidth 32 + a.register

/-- Every access goes to the base and the offset of the register. -/
def OnBase (u : Uart) (s : State) : Prop := ∀ a ∈ s.accesses, a.address = u.base + a.register

/-- The registers are accessed from `s` to `t`, and nothing else is done. -/
structure Touches (u : Uart) (s t : State) : Prop where
  fifoBuffer : t.fifoBuffer = s.fifoBuffer
  availableBytes : t.availableBytes = s.availableBytes
  ptrToFifoBuffer : t.ptrToFifoBuffer = s.ptrToFifoBuffer
  popped : t.popped = s.popped
  through : Through u s → Through u t
  grows : s.accesses ≠ [] → t.accesses ≠ []

section Touches

variable {u : Uart} {s t v : State}

theorem Touches.refl (u : Uart) (s : State) : Touches u s s :=
  ⟨rfl, rfl, rfl, rfl, id, id⟩

theorem Touches.trans (h : Touches u s t) (h' : Touches u t v) : Touches u s v where
  fifoBuffer := h'.fifoBuffer.trans h.fifoBuffer
  availableBytes := h'.availableBytes.trans h.availableBytes
  ptrToFifoBuffer := h'.ptrToFifoBuffer.trans h.ptrToFifoBuffer
  popped := h'.popped.trans h.popped
  through hs := h'.through (h.through hs)
  grows hs := h'.grows (h.grows hs)

/-- One more access keeps to the macro. -/
theorem through_append {a : Access} (h : Through u s) (hs : t.accesses = s.accesses ++ [a])
    (ha : a.address = (u.base.setWidth 8).setWidth 32 + a.register) : Through u t := by
  intro b hb
  rw [hs] at hb
  rcases List.mem_append.mp hb with hb | hb
  · exact h b hb
  · rw [List.mem_singleton.mp hb, ha]

theorem regAddress_eq (u : Uart) (module offs : BitVec 32) :
    regAddress u module offs = (u.base.setWidth 8).setWidth 32 + (module + offs) :=
  BitVec.add_assoc ..

theorem read_touches (u : Uart) (module offs : BitVec 32) (s : State) :
    Touches u s (s.read u module offs) where
  fifoBuffer := rfl
  availableBytes := rfl
  ptrToFifoBuffer := rfl
  popped := rfl
  through h := through_append h rfl (regAddress_eq u module offs)
  grows _ := by simp [State.read]

theorem write_touches (u : Uart) (module offs val : BitVec 32) (s : State) :
    Touches u s (s.write u module offs val) where
  fifoBuffer := rfl
  availableBytes := rfl
  ptrToFifoBuffer := rfl
  popped := rfl
  through h := through_append h rfl (regAddress_eq u module offs)
  grows _ := by simp [State.write]

theorem writes_touches (u : Uart) (ws : List (BitVec 32 × BitVec 32 × BitVec 32)) (s : State) :
    Touches u s (s.writes u ws) := by
  induction ws generalizing s with
  | nil => exact .refl u s
  | cons w ws ih => exact (write_touches u w.1 w.2.1 w.2.2 s).trans (ih _)

theorem setBaud_touches (u : Uart) (s : State) : Touches u s (setBaud u s).2 := by
  have hread := read_touches u geniCfg geniSerMClkCfgOffs s
  rw [setBaud]
  split
  · exact .refl u s
  · show Touches u s (if _ then _ else _ : Bool × State).2
    split
    · exact hread
    · exact hread.trans (writes_touches u _ _)

theorem waitIdle_touches (u : Uart) (retries : Nat) (s : State) :
    Touches u s (waitIdle u retries s).2 := by
  induction retries generalizing s with
  | zero => exact .refl u s
  | succ retries ih =>
      have hread := read_touches u geniCfg geniStatusOffs s
      rw [waitIdle]
      split
      · exact hread
      · exact hread.trans (ih _)

theorem configure_touches (u : Uart) (s : State) : Touches u s (configure u s) := by
  have hfirst := (writes_touches u configWrites s).trans
    (read_touches u qupv3SeDma seHwParam0Offs _)
  have hsecond := (hfirst.trans (write_touches u geniData geniTxWatermarkRegOffs 4#32 _)).trans
    (read_touches u qupv3SeDma seHwParam1Offs _)
  exact (hsecond.trans (writes_touches u _ _)).trans
    ((setBaud_touches u _).trans (writes_touches u portWrites _))

theorem initializePort_touches (u : Uart) (s : State) : Touches u s (initializePort u s).2 := by
  have hwait := waitIdle_touches u maxRetries s
  rw [initializePort]
  split
  · exact hwait
  · exact hwait.trans (configure_touches u _)

/-- The macro keeps the base exactly when it fits in a byte. -/
theorem lowByte_eq_iff (base : BitVec 32) :
    (base.setWidth 8).setWidth 32 = base ↔ base.toNat < 256 := by
  rw [← BitVec.toNat_inj, BitVec.toNat_setWidth, BitVec.toNat_setWidth]
  omega

theorem onBase_of_lt (h : u.base.toNat < 256) (hs : Through u s) : OnBase u s := by
  intro a ha
  rw [hs a ha, (lowByte_eq_iff u.base).mpr h]

/-- Once there has been an access, the accesses go to the base exactly when it fits. -/
theorem onBase_iff (hs : Through u s) (hne : s.accesses ≠ []) :
    OnBase u s ↔ u.base.toNat < 256 := by
  constructor
  · intro h
    obtain ⟨a, ha⟩ := List.exists_mem_of_ne_nil _ hne
    have heq := (hs a ha).symm.trans (h a ha)
    exact (lowByte_eq_iff u.base).mp ((BitVec.add_left_inj a.register).mp heq)
  · intro h
    exact onBase_of_lt h hs

end Touches

end Sdm845
