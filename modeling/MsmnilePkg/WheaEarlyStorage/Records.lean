/-
  MsmnilePkg.WheaEarlyStorage.Records

  Records in the early storage: a header with the number of active bytes and
  a checksum, and the records behind it.

  A record is written first; then the header, read again, gets the new
  number of active bytes and the checksum that makes the 16-bit sum of all
  of it zero.
-/

import MsmnilePkg.WheaEarlyStorage.Storage

namespace WheaEarlyStorage

open ByteMem LittleEndian Efi

/-! ## Layouts -/

/-- `MS_WHEA_EARLY_STORAGE_HEADER`: where its `Checksum` and its `ActiveRange` are. -/
structure HeaderLayout where
  size : Nat
  checksumAt : Nat
  activeRangeAt : Nat
  activeRangeBytes : Nat
  size_even : size % 2 = 0
  checksum_even : checksumAt % 2 = 0
  checksum_fits : checksumAt + 2 ≤ size
  activeRange_fits : activeRangeAt + activeRangeBytes ≤ size
  activeRange_pos : 0 < activeRangeBytes
  fields_apart : activeRangeAt + activeRangeBytes ≤ checksumAt ∨ checksumAt + 2 ≤ activeRangeAt

/-- Where the fields of `MS_WHEA_EARLY_STORAGE_ENTRY_V0` are. -/
structure EntryFields where
  revAt : Nat
  revBytes : Nat
  errorStatusValueAt : Nat
  additionalInfo1At : Nat
  additionalInfo2At : Nat
  moduleIDAt : Nat
  partitionIDAt : Nat

def EntryFields.spans (l : EntryFields) : List (Nat × Nat) :=
  [(l.revAt, l.revBytes), (l.errorStatusValueAt, 4), (l.additionalInfo1At, 8),
    (l.additionalInfo2At, 8), (l.moduleIDAt, 16), (l.partitionIDAt, 16)]

/-- `MS_WHEA_EARLY_STORAGE_ENTRY_V0` -/
structure EntryLayout extends EntryFields where
  size : Nat
  size_even : size % 2 = 0
  size_pos : 0 < size
  fields_fit : ∀ field ∈ toEntryFields.spans, field.1 + field.2 ≤ size
  fields_apart : FieldsApart toEntryFields.spans

/-- The platform with the layouts of the package that declares them, and what the library
    takes from outside. -/
structure Build extends Platform where
  header : HeaderLayout
  entry : EntryLayout
  /-- `MS_WHEA_REV_0` -/
  msWheaRev0 : Nat
  /-- `gEfiCallerIdGuid` -/
  callerIdGuid : Buffer
  /-- `CalculateSum16 (Buffer, Length)` -/
  calculateSum16 : Buffer → Nat → BitVec 16
  /-- What a local variable holds before it is set. -/
  uninitialised : Buffer

/-- `Header.ActiveRange` -/
def HeaderLayout.activeRange (l : HeaderLayout) (h : Buffer) : Nat :=
  value h l.activeRangeAt l.activeRangeBytes

/-- `Header.ActiveRange = v` -/
def HeaderLayout.setActiveRange (l : HeaderLayout) (h : Buffer) (v : Nat) : Buffer :=
  put h l.activeRangeAt l.activeRangeBytes (bytesOf v)

/-- `Header.Checksum` -/
def HeaderLayout.checksum (l : HeaderLayout) (h : Buffer) : BitVec 16 := word16 h l.checksumAt

/-- `Header.Checksum = c` -/
def HeaderLayout.setChecksum (l : HeaderLayout) (h : Buffer) (c : BitVec 16) : Buffer :=
  put h l.checksumAt 2 (bytesOf c.toNat)

/-! ## The functions -/

section Functions

variable (b : Build)

/-- `(UINT8)MS_WHEA_EARLY_STORAGE_HEADER_SIZE`, also the offset of the data. -/
def headerSize : BitVec 8 := BitVec.ofNat 8 b.header.size

def msWheaESGetMaxDataCount : BitVec 8 :=
  if (msWheaEarlyStorageGetMaxSize b.toPlatform).toNat < b.header.size then 0#8
  else BitVec.ofNat 8 (((msWheaEarlyStorageGetMaxSize b.toPlatform).toNat - b.header.size) &&& 0xFF)

/-- A read into a variable, which keeps its bytes when the read fails. -/
def readInto (buf : Buffer) (size offset : BitVec 8) (s : State) : Status × Buffer × State :=
  ((msWheaEarlyStorageRead b.toPlatform (some buf) size offset s).1,
    (msWheaEarlyStorageRead b.toPlatform (some buf) size offset s).2.1.getD buf,
    (msWheaEarlyStorageRead b.toPlatform (some buf) size offset s).2.2)

/-- `MsWheaESFindSlot (Size, &Offset)`: the status, `Offset` and the state.  The sum is one
    of at least 32 bits. -/
def msWheaESFindSlot (size offset : BitVec 8) (s : State) : Status × BitVec 8 × State :=
  let (_, header, s) := readInto b b.uninitialised (headerSize b) 0#8 s
  if (b.header.activeRange header + size.toNat) % 2 ^ max 32 (8 * b.header.activeRangeBytes)
      ≤ (msWheaESGetMaxDataCount b).toNat then
    (.success, BitVec.ofNat 8 (b.header.activeRange header), s)
  else (.outOfResources, offset, s)

/-- The loop over the active data, two bytes a turn.  A read returns no other success than
    `EFI_SUCCESS`. -/
def checksumLoop (activeRange index : Nat) (sum : BitVec 16) (s : State) :
    Status × BitVec 16 × State :=
  if index < activeRange then
    match readInto b b.uninitialised 2#8 (BitVec.ofNat 8 (b.header.size + index)) s with
    | (status, data, s) =>
        if status.isError then (status, sum, s)
        else checksumLoop activeRange (index + 2) (sum + word16 data 0) s
  else (.success, sum, s)
termination_by activeRange - index

/-- `MsWheaESCalculateChecksum16 (Header, &Checksum)` with both pointers valid: the status,
    the header with its checksum restored, `Checksum` and the state. -/
def msWheaESCalculateChecksum16 (header : Buffer) (checksum : BitVec 16) (s : State) :
    Status × Buffer × BitVec 16 × State :=
  if (msWheaEarlyStorageGetMaxSize b.toPlatform).toNat < b.header.activeRange header ∨
      b.header.activeRange header % 2 ≠ 0 then
    (.badBufferSize, header, checksum, s)
  else
    let checksum := b.header.checksum header
    let header := b.header.setChecksum header 0#16
    let sum := b.calculateSum16 header b.header.size
    let header := b.header.setChecksum header checksum
    let (status, sum, s) := checksumLoop b (b.header.activeRange header) 0 sum s
    if status.isError then (status, header, checksum, s)
    else (status, header, 0#16 - sum, s)

/-- `MsWheaESAddRecordV0Internal`; `none` is the null pointer. -/
def msWheaESAddRecordV0Internal (entry : Option Buffer) (s : State) : Status × State :=
  match entry with
  | none => (.invalidParameter, s)
  | some entry =>
      let (status, offset, s) := msWheaESFindSlot b (BitVec.ofNat 8 b.entry.size) 0#8 s
      if status.isError then (status, s)
      else
        let (status, s) := msWheaEarlyStorageWrite b.toPlatform (some entry)
          (BitVec.ofNat 8 b.entry.size) (headerSize b + offset) s
        if status.isError then (status, s)
        else
          let (status, header, s) := readInto b b.uninitialised (headerSize b) 0#8 s
          if status.isError then (status, s)
          else
            let header := b.header.setActiveRange header
              (b.header.activeRange header + b.entry.size)
            let (status, header, checksum, s) := msWheaESCalculateChecksum16 b header 0#16 s
            if status.isError then (status, s)
            else
              let header := b.header.setChecksum header checksum
              let (_, s) := msWheaEarlyStorageWrite b.toPlatform (some header) (headerSize b) 0#8 s
              let (status, _, s) := readInto b (fun _ => 0#8) (headerSize b) 0#8 s
              (status, s)

/-- The arguments of `MsWheaESAddRecordV0`; `none` is a null pointer. -/
structure RecordArgs where
  errorStatusValue : BitVec 32
  additionalInfo1 : BitVec 64
  additionalInfo2 : BitVec 64
  moduleId : Option Buffer
  partitionId : Option Buffer

/-- The record that `MsWheaESAddRecordV0` builds. -/
def wheaV0 (a : RecordArgs) : Buffer :=
  let r := put (fun _ => 0#8) b.entry.revAt b.entry.revBytes (bytesOf b.msWheaRev0)
  let r := put r b.entry.errorStatusValueAt 4 (bytesOf a.errorStatusValue.toNat)
  let r := put r b.entry.additionalInfo1At 8 (bytesOf a.additionalInfo1.toNat)
  let r := put r b.entry.additionalInfo2At 8 (bytesOf a.additionalInfo2.toNat)
  let r := put r b.entry.moduleIDAt 16 (a.moduleId.getD b.callerIdGuid)
  match a.partitionId with
  | some guid => put r b.entry.partitionIDAt 16 guid
  | none => r

def msWheaESAddRecordV0 (a : RecordArgs) (s : State) : Status × State :=
  msWheaESAddRecordV0Internal b (some (wheaV0 b a)) s

end Functions

end WheaEarlyStorage
