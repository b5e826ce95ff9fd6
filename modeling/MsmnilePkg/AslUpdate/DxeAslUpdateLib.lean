/-
  MsmnilePkg.AslUpdate.DxeAslUpdateLib

  UpdateNameAslCode of DxeAslUpdateLib: a value in the AML of the DSDT.

  The bytes of the DSDT are scanned for a name and its encoding, the value is
  copied over what stands behind it, and the table is taken out and put in
  again.
-/

import MsmnilePkg.Efi
import MsmnilePkg.Lib.ByteMem

namespace AslUpdate

open Efi ByteMem

/-! ## The ACPI tables -/

/-- An installed table, under the key that `InstallAcpiTable` gave it. -/
structure InstalledTable where
  key : Nat
  bytes : List Byte
  deriving DecidableEq, Repr

/-- The four bytes from `p` on, as a `UINT32`. -/
def wordAt (bytes : List Byte) (p : Nat) : BitVec 32 :=
  word32 (bytes.getD p 0#8) (bytes.getD (p + 1) 0#8) (bytes.getD (p + 2) 0#8)
    (bytes.getD (p + 3) 0#8)

/-- `Length` of the header. -/
def headerLength (bytes : List Byte) : Nat := (wordAt bytes 4).toNat

/-- `EFI_ACPI_3_0_DIFFERENTIATED_SYSTEM_DESCRIPTION_TABLE_SIGNATURE`, which is `DSDT`. -/
def dsdtSignature : BitVec 32 := 0x54445344#32

/-- `AML_NAME_OP` -/
def amlNameOp : Byte := 0x08#8

/-- The firmware around a call: what `InitializeAslUpdateLib` finds, and for the calls of the
    protocol how they end and which tables there are after them. -/
structure Firmware where
  acpiTable : Bool
  acpiSdt : Bool
  /-- `AllocateCopyPool` returns memory. -/
  allocates : Bool
  uninstall : Status
  uninstallAcpiTable : Nat → List InstalledTable → List InstalledTable
  install : Status
  installAcpiTable : List Byte → Nat → List InstalledTable → List InstalledTable
  /-- The key of a table that is installed. -/
  newKey : Nat

/-- `UninstallAcpiTable` takes the table out and `InstallAcpiTable` puts a copy of the buffer
    behind the tables, each unless it fails. -/
structure Firmware.Documented (fw : Firmware) : Prop where
  uninstalled : fw.uninstall.isError = false → ∀ handle tables,
    fw.uninstallAcpiTable handle tables = tables.filter fun t => t.key ≠ handle
  notUninstalled : fw.uninstall.isError = true → ∀ handle tables,
    fw.uninstallAcpiTable handle tables = tables
  installed : fw.install.isError = false → ∀ table size tables,
    fw.installAcpiTable table size tables = tables ++ [⟨fw.newKey, table.take size⟩]
  notInstalled : fw.install.isError = true → ∀ table size tables,
    fw.installAcpiTable table size tables = tables

inductive Fault where
  /-- A byte outside the copy of the table is read or written. -/
  | outsideTable
  deriving DecidableEq, Repr

/-! ## The functions -/

/-- `LocateAcpiTableBySignature`, one `GetAcpiTable` after the other. -/
def locateAcpiTableBySignature (signature : BitVec 32) :
    List InstalledTable → Option InstalledTable
  | [] => none
  | t :: tables =>
      if wordAt t.bytes 0 = signature then some t
      else locateAcpiTableBySignature signature tables

/-- The scan of the table from `p` on, where `n` bytes are left: where the name stands. -/
def scanName (signature : BitVec 32) (bytes : List Byte) : Nat → Nat → Except Fault (Option Nat)
  | 0, _ => .ok none
  | n + 1, p =>
      if bytes.length < p + 4 then .error .outsideTable
      else if wordAt bytes p = signature then
        -- `*(DsdtPointer-1)`
        if p = 0 then .error .outsideTable
        else if bytes.getD (p - 1) 0#8 = amlNameOp then .ok (some p)
        else scanName signature bytes n (p + 1)
      else scanName signature bytes n (p + 1)

/-- `CopyMem (DsdtPointer+5, Buffer, Length)`; no byte is touched for a length of zero. -/
def copyValue (bytes : List Byte) (p : Nat) (buffer : List Byte) : Except Fault (List Byte) :=
  if buffer = [] ∨ p + 5 + buffer.length ≤ bytes.length then
    .ok (bytes.take (p + 5) ++ buffer ++ bytes.drop (p + 5 + buffer.length))
  else .error .outsideTable

/-- The rest of `UpdateNameAslCode`, with a copy of the DSDT. -/
def updateDsdt (fw : Firmware) (signature : BitVec 32) (buffer : List Byte)
    (dsdt : InstalledTable) (tables : List InstalledTable) :
    Except Fault (Status × List InstalledTable) := do
  match ← scanName signature dsdt.bytes (headerLength dsdt.bytes) 0 with
  | none => return (.notFound, tables)
  | some p =>
      let table ← copyValue dsdt.bytes p buffer
      let tables := fw.uninstallAcpiTable dsdt.key tables
      return (fw.install, fw.installAcpiTable table (headerLength table) tables)

/-- `UpdateNameAslCode`: the status and the tables after it. -/
def updateNameAslCode (fw : Firmware) (signature : BitVec 32) (buffer : List Byte)
    (tables : List InstalledTable) : Except Fault (Status × List InstalledTable) :=
  if fw.acpiTable = false ∨ fw.acpiSdt = false then .ok (.notReady, tables)
  else match locateAcpiTableBySignature dsdtSignature tables with
    | none => .ok (.notFound, tables)
    | some dsdt =>
        if fw.allocates = false then .ok (.notFound, tables)
        else updateDsdt fw signature buffer dsdt tables

end AslUpdate
