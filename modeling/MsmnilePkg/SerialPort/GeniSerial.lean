/-
  MsmnilePkg.SerialPort.GeniSerial

  The registers of the serial engine: GeniSerial.h.

  A register is known by its offset from `UART_BASE_ADDR`.  What a read gives
  is up to the device; the writes are kept in a log.
-/

namespace GeniSerial

def geni4ImageRegs : Nat := 0x100
def geni4Data : Nat := 0x600

def geniMCmd0Addr : Nat := 0x0
def geniMIrqEnSetAddr : Nat := 0x1c
def geniMIrqEnClearAddr : Nat := 0x20
def geniSIrqClearAddr : Nat := 0x48
def geniSIrqEnSetAddr : Nat := 0x4c
def geniSIrqEnClearAddr : Nat := 0x50
def geniTxFifoAddr : Nat := 0x100
def uartTxTransLenAddr : Nat := 0x170

def geniStatusMask : BitVec 32 := 0x1fffff#32
def geniSIrqStatusMask : BitVec 32 := 0xfc07f3f#32
def geniRxFifoMask : BitVec 32 := 0xffffffff#32
def geniTxFifoStatusMask : BitVec 32 := 0xffffffff#32
def geniRxFifoStatusMask : BitVec 32 := 0xffffffff#32
def seHwParam0Mask : BitVec 32 := 0x3f3f79ff#32

def txFifoWc : BitVec 32 := 0xfffffff#32
def rxFifoWc : BitVec 32 := 0x1ffffff#32
def rxLastIrq : BitVec 32 := 0x8000000#32
def txFifoDepthMask : BitVec 32 := 0x3f0000#32
def txFifoDepthShift : Nat := 0x10
def txFifoWatermarkIrq : BitVec 32 := 0x40000000#32
def rxFifoWatermarkIrq : BitVec 32 := 0x4000000#32
def rxLastValidBytesMask : BitVec 32 := 0x70000000#32
def rxLastValidBytesShift : Nat := 0x1c
def mGeniCmdActive : BitVec 32 := 0x1#32

/-- A write to a register. -/
structure RegWrite where
  offset : Nat
  value : BitVec 32
deriving DecidableEq

/-- `MemWrite` -/
def memWrite (off1 off2 : Nat) (val : BitVec 32) : RegWrite := ⟨off1 + off2, val⟩

end GeniSerial
