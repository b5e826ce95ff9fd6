/-
  MsmnilePkg.AuthVariable.Format

  AuthServiceInternal.h: GUIDs, variable names, attributes and time stamps.

  A GUID is the number that its 16 bytes make, the lowest byte first, and a name is its
  `CHAR16`s without the terminating zero.
-/

import MsmnilePkg.Efi
import MsmnilePkg.Lib.RecordArea

namespace AuthVariable

open Efi ByteMem LittleEndian RecordArea

/-! ## GUIDs and names -/

abbrev Guid := BitVec 128

/-- `{ data1, data2, data3, { b0, … b7 } }` -/
def guid (data1 : BitVec 32) (data2 data3 : BitVec 16) (b0 b1 b2 b3 b4 b5 b6 b7 : Byte) : Guid :=
  b7 ++ b6 ++ b5 ++ b4 ++ b3 ++ b2 ++ b1 ++ b0 ++ data3 ++ data2 ++ data1

def Guid.bytes (g : Guid) : List Byte := field g.toNat 16

@[simp] theorem Guid.bytes_length (g : Guid) : (Guid.bytes g).length = 16 := field_length ..

/-- `CHAR16` strings. -/
abbrev Name := List (BitVec 16)

def name (characters : List Char) : Name := characters.map fun c => BitVec.ofNat 16 c.toNat

def Name.bytes (n : Name) : List Byte := n.flatMap fun c => field c.toNat 2

@[simp] theorem Name.bytes_length (n : Name) : (Name.bytes n).length = 2 * n.length := by
  induction n with
  | nil => rfl
  | cons c n ih =>
      rw [Name.bytes, List.flatMap_cons, List.length_append, field_length, ← Name.bytes, ih,
        List.length_cons]
      omega

theorem Guid.bytes_inj {g g' : Guid} (h : Guid.bytes g = Guid.bytes g') : g = g' :=
  BitVec.eq_of_toNat_eq (field_inj (n := 16) g.isLt g'.isLt h)

theorem Name.bytes_inj : ∀ {n n' : Name}, Name.bytes n = Name.bytes n' → n = n' := by
  intro n
  induction n with
  | nil =>
      intro n' h
      have hlength := congrArg List.length h
      rw [Name.bytes_length, Name.bytes_length, List.length_nil] at hlength
      exact (List.length_eq_zero_iff.mp (by omega)).symm
  | cons c n ih =>
      intro n' h
      cases n' with
      | nil =>
          have hlength := congrArg List.length h
          rw [Name.bytes_length, Name.bytes_length, List.length_nil, List.length_cons] at hlength
          omega
      | cons c' n' =>
          obtain ⟨hfirst, hrest⟩ := List.append_inj h (by rw [field_length, field_length])
          have hc : c = c' := BitVec.eq_of_toNat_eq (field_inj (n := 2) c.isLt c'.isLt hfirst)
          rw [hc, ih hrest]

/-! ## Attributes -/

abbrev Attributes := BitVec 32

def efiVariableNonVolatile : Attributes := 0x1#32
def efiVariableBootserviceAccess : Attributes := 0x2#32
def efiVariableRuntimeAccess : Attributes := 0x4#32
def efiVariableAuthenticatedWriteAccess : Attributes := 0x10#32
def efiVariableTimeBasedAuthenticatedWriteAccess : Attributes := 0x20#32
def efiVariableAppendWrite : Attributes := 0x40#32

/-- `(Attributes & mask) != 0` -/
def Attributes.has (attributes mask : Attributes) : Bool := attributes &&& mask != 0#32

/-! ## Time stamps -/

/-- `EFI_TIME` -/
structure EfiTime where
  year : BitVec 16
  month : Byte
  day : Byte
  hour : Byte
  minute : Byte
  second : Byte
  pad1 : Byte
  nanosecond : BitVec 32
  timeZone : BitVec 16
  daylight : Byte
  pad2 : Byte
deriving DecidableEq

/-- `AuthServiceInternalCompareTimeStamp`: the first time is not later than the second. -/
def authServiceInternalCompareTimeStamp (firstTime secondTime : EfiTime) : Bool :=
  if firstTime.year ≠ secondTime.year then firstTime.year < secondTime.year
  else if firstTime.month ≠ secondTime.month then firstTime.month < secondTime.month
  else if firstTime.day ≠ secondTime.day then firstTime.day < secondTime.day
  else if firstTime.hour ≠ secondTime.hour then firstTime.hour < secondTime.hour
  else if firstTime.minute ≠ secondTime.minute then firstTime.minute < secondTime.minute
  else firstTime.second ≤ secondTime.second

/-- The six fields that are compared, as one number. -/
def EfiTime.stamp (t : EfiTime) : Nat :=
  ((((t.year.toNat * 256 + t.month.toNat) * 256 + t.day.toNat) * 256 + t.hour.toNat) * 256
    + t.minute.toNat) * 256 + t.second.toNat

theorem compareTimeStamp_iff (t t' : EfiTime) :
    authServiceInternalCompareTimeStamp t t' = true ↔ t.stamp ≤ t'.stamp := by
  have hmonth := t.month.isLt
  have hmonth' := t'.month.isLt
  have hday := t.day.isLt
  have hday' := t'.day.isLt
  have hhour := t.hour.isLt
  have hhour' := t'.hour.isLt
  have hminute := t.minute.isLt
  have hminute' := t'.minute.isLt
  have hsecond := t.second.isLt
  have hsecond' := t'.second.isLt
  -- The first field that differs decides, as it weighs more than all behind it.
  unfold authServiceInternalCompareTimeStamp EfiTime.stamp
  split_ifs with hy hm hd hh hmi <;>
    simp only [ne_eq, BitVec.toNat_eq, Decidable.not_not] at * <;>
    simp only [decide_eq_true_eq, BitVec.lt_def, BitVec.le_def] <;> omega

end AuthVariable
