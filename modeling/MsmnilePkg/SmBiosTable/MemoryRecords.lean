/-
  MsmnilePkg.SmBiosTable.MemoryRecords

  SmBiosTableDxe: the records of type 17 and 19, which tell the size of the
  memory.

  The size is narrowed to the 16 bits of type 17, and its end to the 32 bits of
  type 19.  The extended fields for larger ones keep what the templates have.
-/

import Mathlib.Algebra.Group.Nat.Defs
import MsmnilePkg.Efi

namespace SmBiosTable

/-! ## The records -/

/-- `SMBIOS_TABLE_TYPE17`, the fields about the size. -/
structure Type17 where
  size : BitVec 16
  extendedSize : BitVec 32
  deriving DecidableEq, Repr

/-- `SMBIOS_TABLE_TYPE19`, the fields about the addresses. -/
structure Type19 where
  startingAddress : BitVec 32
  endingAddress : BitVec 32
  extendedStartingAddress : BitVec 64
  extendedEndingAddress : BitVec 64
  deriving DecidableEq, Repr

def mMemDevInfoType17 : Type17 := ⟨0xFFFF#16, 0#32⟩

def mMemArrMapInfoType19 : Type19 :=
  ⟨0xFFFFFFFF#32, 0xFFFFFFFF#32, 0x3FFFFFFFC00#64, 0x3FFFFFFFFFF#64⟩

/-- `MemDevInfoUpdateSmbiosType17`: the record that is logged. -/
def memDevInfoUpdateSmbiosType17 (systemMemorySize : BitVec 64) : Type17 :=
  { mMemDevInfoType17 with size := (systemMemorySize / 0x100000#64).setWidth 16 }

/-- `MemArrMapInfoUpdateSmbiosType19` -/
def memArrMapInfoUpdateSmbiosType19 (pcdSystemMemoryBase systemMemorySize : BitVec 64) : Type19 :=
  { mMemArrMapInfoType19 with
    startingAddress := (pcdSystemMemoryBase / 1024#64).setWidth 32
    endingAddress := ((systemMemorySize + pcdSystemMemoryBase - 1#64) / 1024#64).setWidth 32 }

/-! ## How they are read -/

/-- The bytes of a memory device: in MB, in KB when bit 15 is set, or in the extended field. -/
def Type17.decode (r : Type17) : Nat :=
  if r.size = 0x7FFF#16 then r.extendedSize.toNat * 2 ^ 20
  else if r.size.msb then (r.size.toNat - 2 ^ 15) * 2 ^ 10
  else r.size.toNat * 2 ^ 20

/-- The first byte of the memory. -/
def Type19.first (r : Type19) : Nat :=
  if r.startingAddress = 0xFFFFFFFF#32 then r.extendedStartingAddress.toNat
  else r.startingAddress.toNat * 2 ^ 10

/-- The byte behind the last one. -/
def Type19.behind (r : Type19) : Nat :=
  if r.endingAddress = 0xFFFFFFFF#32 then r.extendedEndingAddress.toNat + 1
  else (r.endingAddress.toNat + 1) * 2 ^ 10

def Type19.decode (r : Type19) : Int := r.behind - r.first

section Decode

variable {base size : BitVec 64}

theorem type17_size :
    (memDevInfoUpdateSmbiosType17 size).size.toNat = size.toNat / 2 ^ 20 % 2 ^ 16 := by
  simp [memDevInfoUpdateSmbiosType17]

theorem toNat_ne_of_ne {field : BitVec 16} (h : field ≠ 0x7FFF#16) : field.toNat ≠ 0x7FFF :=
  fun heq => h (BitVec.eq_of_toNat_eq heq)

/-- Type 17 is right below 0x7FFF MB. -/
theorem type17_decode_iff (hmb : size.toNat % 2 ^ 20 = 0) :
    (memDevInfoUpdateSmbiosType17 size).decode = size.toNat ↔ size.toNat / 2 ^ 20 < 0x7FFF := by
  have hextended : (memDevInfoUpdateSmbiosType17 size).extendedSize.toNat = 0 := rfl
  rw [Type17.decode, hextended]
  by_cases hall : (memDevInfoUpdateSmbiosType17 size).size = 0x7FFF#16
  · -- The extended field is asked, which is zero.
    have hfield : size.toNat / 2 ^ 20 % 2 ^ 16 = 0x7FFF := by
      rw [← type17_size, hall]
      simp
    rw [if_pos hall]
    omega
  · have hfield := toNat_ne_of_ne hall
    rw [type17_size] at hfield
    rw [if_neg hall, BitVec.msb_eq_decide, type17_size]
    by_cases hkb : 2 ^ 15 ≤ size.toNat / 2 ^ 20 % 2 ^ 16
    · -- The unit is a KB: less than 32 MB, where the size has 32 GB at least.
      have hless : (size.toNat / 2 ^ 20 % 2 ^ 16 - 2 ^ 15) * 2 ^ 10 < 2 ^ 25 := by omega
      rw [if_pos (by simpa using hkb)]
      omega
    · rw [if_neg (by simpa using hkb)]
      omega

/-- The extended addresses of the template are what the largest 32-bit ones stand for. -/
theorem type19_first : (memArrMapInfoUpdateSmbiosType19 base size).first
    = base.toNat / 2 ^ 10 % 2 ^ 32 * 2 ^ 10 := by
  have hfield : (memArrMapInfoUpdateSmbiosType19 base size).startingAddress.toNat
      = base.toNat / 2 ^ 10 % 2 ^ 32 := by
    simp [memArrMapInfoUpdateSmbiosType19]
  have hextended : (memArrMapInfoUpdateSmbiosType19 base size).extendedStartingAddress
      = 0x3FFFFFFFC00#64 := rfl
  rw [Type19.first, hextended, ← hfield]
  by_cases h : (memArrMapInfoUpdateSmbiosType19 base size).startingAddress = 0xFFFFFFFF#32
  · rw [if_pos h, h]
    simp
  · rw [if_neg h]

theorem type19_behind : (memArrMapInfoUpdateSmbiosType19 base size).behind
    = ((size.toNat + base.toNat + (2 ^ 64 - 1)) % 2 ^ 64 / 2 ^ 10 % 2 ^ 32 + 1) * 2 ^ 10 := by
  have hsub : (size + base - 1#64).toNat
      = (size.toNat + base.toNat + (2 ^ 64 - 1)) % 2 ^ 64 := by
    have hone : (1#64).toNat = 1 := by simp
    rw [BitVec.toNat_sub, BitVec.toNat_add, hone]
    omega
  have hfield : (memArrMapInfoUpdateSmbiosType19 base size).endingAddress.toNat
      = (size.toNat + base.toNat + (2 ^ 64 - 1)) % 2 ^ 64 / 2 ^ 10 % 2 ^ 32 := by
    have hkb : (1024#64).toNat = 2 ^ 10 := by simp
    rw [← hsub, ← hkb, ← BitVec.toNat_udiv, ← BitVec.toNat_setWidth]
    simp only [memArrMapInfoUpdateSmbiosType19]
  have hextended : (memArrMapInfoUpdateSmbiosType19 base size).extendedEndingAddress
      = 0x3FFFFFFFFFF#64 := rfl
  rw [Type19.behind, hextended, ← hfield]
  by_cases h : (memArrMapInfoUpdateSmbiosType19 base size).endingAddress = 0xFFFFFFFF#32
  · rw [if_pos h, h]
    simp
  · rw [if_neg h]

/-- Type 19 is right when the memory begins at a KB and both ends are in the same 4 TB. -/
theorem type19_decode_iff (hkb : size.toNat % 2 ^ 10 = 0) :
    (memArrMapInfoUpdateSmbiosType19 base size).decode = size.toNat ↔
      base.toNat % 2 ^ 10 = 0 ∧ 0 < base.toNat % 2 ^ 42 + size.toNat ∧
        base.toNat % 2 ^ 42 + size.toNat ≤ 2 ^ 42 := by
  rw [Type19.decode, type19_first, type19_behind]
  generalize base.toNat = b
  generalize size.toNat = n at *
  omega

end Decode

/-- Both records tell the size. -/
def TellSize (base size : BitVec 64) : Prop :=
  (memDevInfoUpdateSmbiosType17 size).decode = size.toNat ∧
    (memArrMapInfoUpdateSmbiosType19 base size).decode = size.toNat

/-- The size is below 0x7FFF MB, and the memory begins at a KB, is not empty at the first
    address, and has its ends in the same 4 TB. -/
structure RecordsHold (base size : BitVec 64) : Prop where
  below : size.toNat / 2 ^ 20 < 0x7FFF
  kb : base.toNat % 2 ^ 10 = 0
  pos : 0 < base.toNat % 2 ^ 42 + size.toNat
  ends : base.toNat % 2 ^ 42 + size.toNat ≤ 2 ^ 42

/-- The records of a size in MB are read back as that size exactly when they hold it. -/
theorem memoryRecords_iff (base size : BitVec 64) (hmb : size.toNat % 2 ^ 20 = 0) :
    TellSize base size ↔ RecordsHold base size := by
  rw [TellSize, type17_decode_iff hmb, type19_decode_iff (by omega)]
  constructor
  · rintro ⟨hbelow, hkb, hpos, hends⟩
    exact ⟨hbelow, hkb, hpos, hends⟩
  · intro h
    exact ⟨h.below, h.kb, h.pos, h.ends⟩

/-! ## Samples -/

/-- 8 GB above 2 GB. -/
theorem memoryRecords_eight_gb :
    TellSize 0x80000000#64 0x200000000#64 ↔ RecordsHold 0x80000000#64 0x200000000#64 :=
  memoryRecords_iff _ _ (by decide)

/-- 32 GB less 1 MB are the value of type 17 that sends the reader to a field of zero. -/
theorem type17_of_7fff_mb :
    (memDevInfoUpdateSmbiosType17 0x7FFF00000#64).decode = 0 ∧
      ¬ TellSize 0x80000000#64 0x7FFF00000#64 := by
  have hzero : (memDevInfoUpdateSmbiosType17 0x7FFF00000#64).decode = 0 := by decide
  refine ⟨hzero, ?_⟩
  rintro ⟨hsize, -⟩
  rw [hzero] at hsize
  revert hsize
  decide

end SmBiosTable
