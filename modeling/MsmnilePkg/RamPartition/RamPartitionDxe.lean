/-
  MsmnilePkg.RamPartition.RamPartitionDxe

  RamPartitionDxe: the memory above the first 4 GB, from the RAM partitions
  that the firmware reports.

  The partitions go through a table of eight slots, whose first one is left
  free and whose end is marked by a length of zero only.
-/

import MsmnilePkg.Efi
import MsmnilePkg.Lib.Ranges

namespace RamPartition

open Efi

/-! ## What the driver is given -/

structure RamPartitionEntry where
  base : BitVec 64
  availableLength : BitVec 64
  deriving DecidableEq, Repr

/-- `EFI_RAMPARTITION_PROTOCOL`: the answers of `GetRamPartitions` without a buffer (the
    status and `NumPartitions`) and with one. -/
structure RamPartitionProtocol where
  count : Status × Nat
  fill : Status × List RamPartitionEntry

/-- The firmware around the driver. -/
structure Firmware where
  /-- `LocateProtocol (&gEfiRamPartitionProtocolGuid, ..)` -/
  protocol : Option RamPartitionProtocol
  /-- `AllocateZeroPool` returns memory. -/
  allocates : Bool

/-- `EFI_MEMORY_TYPE`, as far as the driver tells the types apart. -/
inductive MemoryType where
  | efiReservedMemoryType
  | efiConventionalMemory
  | other
  deriving DecidableEq, Repr

/-- `EFI_GCD_MEMORY_TYPE` -/
inductive GcdMemoryType where
  | reserved
  | systemMemory
  deriving DecidableEq, Repr

/-- The mapping attributes of the table. -/
inductive ArmAttributes where
  | writeBackXn
  deriving DecidableEq, Repr

/-- The calls by which the driver adds memory. -/
inductive ServiceCall where
  | addMemorySpace (type : GcdMemoryType) (base length capabilities : BitVec 64)
  | armSetMemoryAttributes (base length : BitVec 64) (attributes : ArmAttributes)
  | setMemorySpaceAttributes (base length attributes : BitVec 64)
  deriving DecidableEq, Repr

/-- The status of a call, after the calls made so far. -/
abbrev Services := List ServiceCall → ServiceCall → Status

/-! ## The table -/

/-- `ARM_MEMORY_REGION_DESCRIPTOR_EX`, the fields that the driver uses. -/
structure Slot where
  address : BitVec 64
  length : BitVec 64
  memoryType : MemoryType
  armAttributes : ArmAttributes
  deriving DecidableEq, Repr

/-- `{"RAM Partition", 0x00000000, 0x00, .., Conv, WRITE_BACK_XN}` -/
def emptySlot : Slot := ⟨0#64, 0#64, .efiConventionalMemory, .writeBackXn⟩

/-- `gExtendedMemoryDescriptorEx` without `HAS_MLVM` -/
def extendedMemoryDescriptorEx : List Slot := List.replicate 8 emptySlot

/-- The table was indexed outside its slots. -/
inductive Fault where
  | outsideTable
  deriving DecidableEq, Repr

/-- `MemoryDescriptorEx[Index].Address = ..; MemoryDescriptorEx[Index].Length = ..` -/
def setSlot (table : List Slot) (index : Nat) (address length : BitVec 64) :
    Except Fault (List Slot) :=
  match table[index]? with
  | none => .error .outsideTable
  | some slot => .ok (table.set index { slot with address := address, length := length })

/-! ## The functions -/

/-- `GetRamPartitions` -/
def getRamPartitions (fw : Firmware) : Status × List RamPartitionEntry :=
  match fw.protocol with
  | none => (.notFound, [])
  | some p =>
      if p.count.1 = .bufferTooSmall then
        if fw.allocates = false then (.outOfResources, [])
        else if p.fill.1.isError ∨ p.fill.2.length < 1 then (.notFound, [])
        else (p.fill.1, p.fill.2)
      else (.protocolError, [])

def gcdMemoryType : MemoryType → GcdMemoryType
  | .efiReservedMemoryType => .reserved
  | .efiConventionalMemory => .systemMemory
  | .other => .reserved

/-- `AddRamPartition`, with the calls made so far. -/
def addRamPartition (svc : Services) (base length : BitVec 64) (armAttributes : ArmAttributes)
    (memoryType : MemoryType) (calls : List ServiceCall) : Status × List ServiceCall :=
  if length = 0#64 then (.invalidParameter, calls)
  else
    let add := ServiceCall.addMemorySpace (gcdMemoryType memoryType) base length 0xF#64
    let calls' := calls ++ [add]
    if (svc calls add).isError then (svc calls add, calls')
    else
      let map := ServiceCall.armSetMemoryAttributes base length armAttributes
      let calls'' := calls' ++ [map]
      if (svc calls' map).isError then (svc calls' map, calls'')
      else
        let set := ServiceCall.setMemorySpaceAttributes base length 0x8#64
        (svc calls'' set, calls'' ++ [set])

/-- `SIZE_2GB` -/
def size2GB : BitVec 64 := 0x80000000#64

/-- The turns of the loop `for(UINT16 parts = ..; parts > 0; parts--)` and the base after it. -/
def addParts (svc : Services) (armAttributes : ArmAttributes) (memoryType : MemoryType) :
    Nat → BitVec 64 → List ServiceCall → BitVec 64 × List ServiceCall
  | 0, base, calls => (base, calls)
  | parts + 1, base, calls =>
      addParts svc armAttributes memoryType parts (base + size2GB)
        (addRamPartition svc base size2GB armAttributes memoryType calls).2

/-- `SpiltAndAddRamPartitions`; `parts` is a `UINT16`. -/
def spiltAndAddRamPartitions (svc : Services) (base length : BitVec 64)
    (armAttributes : ArmAttributes) (memoryType : MemoryType) (calls : List ServiceCall) :
    Status × List ServiceCall :=
  if size2GB < length then
    let parts : BitVec 16 := (length / size2GB).setWidth 16
    let (base, calls) := addParts svc armAttributes memoryType parts.toNat base calls
    addRamPartition svc base (length % size2GB) armAttributes memoryType calls
  else addRamPartition svc base length armAttributes memoryType calls

/-- The end of the 4 GB that were mapped before. -/
def mappedEnd : BitVec 64 := 0x180000000#64

/-- The loop over the partitions. -/
def updateTable : List RamPartitionEntry → Nat → List Slot → Except Fault (List Slot)
  | [], _, table => .ok table
  | e :: es, index, table =>
      if e.base < mappedEnd ∧ mappedEnd < e.base + e.availableLength then do
        let table ← setSlot table index mappedEnd (e.base + e.availableLength - mappedEnd)
        updateTable es (index + 1) table
      else if e.base < mappedEnd ∧ e.base + e.availableLength ≤ mappedEnd then
        updateTable es index table
      else do
        let table ← setSlot table index e.base e.availableLength
        updateTable es (index + 1) table

/-- The loop over the slots from `Index` on; behind the last slot there is no length to
    read. -/
def addSlots (svc : Services) : List Slot → List ServiceCall → Except Fault (List ServiceCall)
  | [], _ => .error .outsideTable
  | slot :: slots, calls =>
      if slot.length = 0#64 then .ok calls
      else addSlots svc slots (spiltAndAddRamPartitions svc slot.address slot.length
        slot.armAttributes slot.memoryType calls).2

/-- `RamPartitionDxeInitialize`: the status and the calls. -/
def ramPartitionDxeInitialize (svc : Services) (fw : Firmware) :
    Except Fault (Status × List ServiceCall) := do
  let (status, entries) := getRamPartitions fw
  let table ← if status.isError then .ok extendedMemoryDescriptorEx
    else updateTable entries 1 extendedMemoryDescriptorEx
  let calls ← addSlots svc (table.drop 1) []
  return (status, calls)

end RamPartition
