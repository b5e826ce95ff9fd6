/-
  MsmnilePkg.SmBiosTable.SystemMemory

  SmBiosTableDxe: the size of the memory, from the RAM partitions.

  The sum of the partitions is rounded by a loop that goes on while the size
  is not below its threshold, so it always goes past the sum.
-/

import Mathlib.Algebra.Group.Nat.Defs
import Mathlib.Order.Bounds.Basic
import MsmnilePkg.Lib.Loop
import MsmnilePkg.RamPartition.RamPartitionDxe

namespace SmBiosTable

open Efi Loop
open RamPartition (RamPartitionEntry RamPartitionProtocol)

/-! ## GetSystemMemorySize -/

inductive MemoryFault where
  /-- `RamPartitions[i]` is read through `NULL`. -/
  | nullPartitions
  /-- The loop has not ended. -/
  | noEnd
  deriving DecidableEq, Repr

/-- The locals after the calls of the protocol. -/
structure Query where
  status : Status
  ramPartitions : Option (List RamPartitionEntry)
  numPartitions : Nat
  systemMemorySize : BitVec 64

/-- The second call, after `AllocateZeroPool`.  Without a buffer it answers as the first. -/
def fillPartitions (fw : RamPartition.Firmware) (p : RamPartitionProtocol)
    (systemMemorySize : BitVec 64) : Query :=
  if fw.allocates then ⟨p.fill.1, some p.fill.2, p.fill.2.length, systemMemorySize⟩
  else ⟨p.count.1, none, p.count.2, systemMemorySize⟩

def queryPartitions (fw : RamPartition.Firmware) (p : RamPartitionProtocol)
    (pcdSystemMemorySize systemMemorySize : BitVec 64) : Query :=
  if p.count.1 = .bufferTooSmall then
    let q := fillPartitions fw p systemMemorySize
    if q.status.isError ∨ q.numPartitions < 1 then
      { q with ramPartitions := none, systemMemorySize := pcdSystemMemorySize }
    else q
  else ⟨p.count.1, none, p.count.2, systemMemorySize⟩

/-- `for (UINTN i = 0; i < NumPartitions; i++) *SystemMemorySize += ..` -/
def addPartitions (q : Query) : Except MemoryFault (BitVec 64) :=
  match q.ramPartitions with
  | none => if q.numPartitions = 0 then .ok q.systemMemorySize else .error .nullPartitions
  | some entries =>
      .ok (entries.foldl (fun size e => size + e.availableLength) q.systemMemorySize)

/-- `0x40000000` -/
def oneGB : BitVec 64 := 0x40000000#64

/-- `while (*SystemMemorySize >= DesignMemroySize) DesignMemroySize += 0x40000000;` -/
def designMemroySize (fuel : Nat) (systemMemorySize : BitVec 64) : Option (BitVec 64) :=
  whileFuel (fun design => decide (design ≤ systemMemorySize))
    (fun design => design + oneGB) fuel 0#64

/-- `GetSystemMemorySize`, entered with `*SystemMemorySize = systemMemorySize`. -/
def getSystemMemorySize (fw : RamPartition.Firmware)
    (pcdSystemMemorySize pcdSystemMemoryBase : BitVec 64) (fuel : Nat)
    (systemMemorySize : BitVec 64) : Except MemoryFault (Status × BitVec 64) :=
  match fw.protocol with
  | none => .ok (.notFound, pcdSystemMemoryBase)
  | some p =>
      let q := queryPartitions fw p pcdSystemMemorySize systemMemorySize
      if q.systemMemorySize ≠ pcdSystemMemorySize then do
        let sum ← addPartitions q
        match designMemroySize fuel sum with
        | none => .error .noEnd
        | some design => return (q.status, design)
      else .ok (q.status, q.systemMemorySize)

/-! ## The rounding loop -/

section Design

variable {size : BitVec 64}

theorem add_oneGB (d : BitVec 64) : (d + oneGB).toNat = (d.toNat + 2 ^ 30) % 2 ^ 64 := by
  have hgb : oneGB.toNat = 2 ^ 30 := rfl
  rw [BitVec.toNat_add, hgb]

/-- The loop ends only above the size, at the first multiple of 1 GB there. -/
theorem designMemroySize_eq {fuel : Nat} {design : BitVec 64}
    (h : designMemroySize fuel size = some design) :
    size.toNat < 2 ^ 64 - 2 ^ 30 ∧ design.toNat = (size.toNat / 2 ^ 30 + 1) * 2 ^ 30 := by
  have hinv := whileFuel_invariant
    (I := fun d : BitVec 64 => d.toNat % 2 ^ 30 = 0 ∧ d.toNat ≤ (size.toNat / 2 ^ 30 + 1) * 2 ^ 30)
    (fun d hd hc => by
      have hle : d.toNat ≤ size.toNat := by simpa [BitVec.le_def] using hc
      rw [add_oneGB]
      omega)
    (by simp) h
  obtain ⟨⟨hmultiple, hmost⟩, hexit⟩ := hinv
  have habove : size.toNat < design.toNat := by simpa [BitVec.le_def] using hexit
  omega

theorem designMemroySize_ends (h : size.toNat < 2 ^ 64 - 2 ^ 30) :
    ∃ fuel design, designMemroySize fuel size = some design := by
  apply exists_whileFuel (r := fun d d' : BitVec 64 => 2 ^ 64 - d.toNat < 2 ^ 64 - d'.toNat)
  · exact (measure fun d : BitVec 64 => 2 ^ 64 - d.toNat).wf
  · intro d hc
    have hle : d.toNat ≤ size.toNat := by simpa [BitVec.le_def] using hc
    rw [add_oneGB]
    omega

end Design

/-! ## What it should return -/

/-- The sum of the `AvailableLength` fields. -/
def total (entries : List RamPartitionEntry) : Nat :=
  (entries.map fun e => e.availableLength.toNat).sum

/-- The smallest multiple of 1 GB that is at least `n`. -/
def RoundedUp (n r : Nat) : Prop := IsLeast {r | 2 ^ 30 ∣ r ∧ n ≤ r} r

theorem roundedUp_iff (n r : Nat) : RoundedUp n r ↔ r = (n + (2 ^ 30 - 1)) / 2 ^ 30 * 2 ^ 30 := by
  have hleast : RoundedUp n ((n + (2 ^ 30 - 1)) / 2 ^ 30 * 2 ^ 30) := by
    constructor
    · exact ⟨Nat.dvd_mul_left .., by omega⟩
    · rintro r ⟨⟨k, rfl⟩, hle⟩
      omega
  constructor
  · intro h
    exact h.unique hleast
  · rintro rfl
    exact hleast

/-- What the function should return: the rounded sum of the partitions, or the PCD after any
    failure. -/
def Expected (fw : RamPartition.Firmware) (pcdSystemMemorySize : BitVec 64) (r : Nat) : Prop :=
  match fw.protocol with
  | none => r = pcdSystemMemorySize.toNat
  | some p =>
      if p.count.1 = .bufferTooSmall then
        if fw.allocates = false ∨ p.fill.1.isError then r = pcdSystemMemorySize.toNat
        else RoundedUp (total p.fill.2) r
      else if p.count.1.isError then r = pcdSystemMemorySize.toNat
      else RoundedUp 0 r

theorem foldl_availableLength (entries : List RamPartitionEntry) : ∀ size : BitVec 64,
    entries.foldl (fun size e => size + e.availableLength) size
      = size + BitVec.ofNat 64 (total entries) := by
  induction entries with
  | nil => simp [total]
  | cons e entries ih =>
      intro size
      rw [List.foldl_cons, ih, BitVec.add_assoc]
      simp [total, BitVec.ofNat_add]

/-! ## What it returns -/

/-- Some run of the function, entered with a size of zero, ends with a size that `P` holds of. -/
def Returns (fw : RamPartition.Firmware) (pcdSystemMemorySize pcdSystemMemoryBase : BitVec 64)
    (P : Nat → Prop) : Prop :=
  ∃ fuel status size,
    getSystemMemorySize fw pcdSystemMemorySize pcdSystemMemoryBase fuel 0#64 = .ok (status, size) ∧
      P size.toNat

section Branches

variable {fw : RamPartition.Firmware} {pcdSize pcdBase : BitVec 64} {p : RamPartitionProtocol}
  {P : Nat → Prop}

theorem returns_of_no_protocol (h : fw.protocol = none) :
    Returns fw pcdSize pcdBase P ↔ P pcdBase.toNat := by
  simp [Returns, getSystemMemorySize, h]

/-- The size is the PCD already: it is returned. -/
theorem returns_of_pcd (h : fw.protocol = some p)
    (hq : (queryPartitions fw p pcdSize 0#64).systemMemorySize = pcdSize) :
    Returns fw pcdSize pcdBase P ↔ P pcdSize.toNat := by
  simp [Returns, getSystemMemorySize, h, hq]

/-- The partitions are read through `NULL`. -/
theorem not_returns_of_fault (h : fw.protocol = some p)
    (hq : (queryPartitions fw p pcdSize 0#64).systemMemorySize ≠ pcdSize)
    (hadd : addPartitions (queryPartitions fw p pcdSize 0#64) = .error .nullPartitions) :
    ¬ Returns fw pcdSize pcdBase P := by
  rintro ⟨fuel, status, size, hrun, -⟩
  simp only [getSystemMemorySize, h, if_pos hq, hadd] at hrun
  cases hrun

/-- The partitions are added: the loop decides. -/
theorem returns_of_sum (h : fw.protocol = some p)
    (hq : (queryPartitions fw p pcdSize 0#64).systemMemorySize ≠ pcdSize) {sum : BitVec 64}
    (hadd : addPartitions (queryPartitions fw p pcdSize 0#64) = .ok sum) :
    Returns fw pcdSize pcdBase P ↔
      sum.toNat < 2 ^ 64 - 2 ^ 30 ∧ P ((sum.toNat / 2 ^ 30 + 1) * 2 ^ 30) := by
  have hrun : ∀ fuel, getSystemMemorySize fw pcdSize pcdBase fuel 0#64
      = match designMemroySize fuel sum with
        | none => .error .noEnd
        | some design => .ok ((queryPartitions fw p pcdSize 0#64).status, design) := by
    intro fuel
    simp only [getSystemMemorySize, h, if_pos hq, hadd]
    rfl
  constructor
  · -- a run that ends has ended the loop
    rintro ⟨fuel, status, size, hok, hP⟩
    rw [hrun] at hok
    cases hdesign : designMemroySize fuel sum with
    | none =>
        rw [hdesign] at hok
        cases hok
    | some design =>
        rw [hdesign] at hok
        obtain ⟨hlt, heq⟩ := designMemroySize_eq hdesign
        cases hok
        rw [← heq]
        exact ⟨hlt, hP⟩
  · rintro ⟨hlt, hP⟩
    obtain ⟨fuel, design, hdesign⟩ := designMemroySize_ends hlt
    refine ⟨fuel, (queryPartitions fw p pcdSize 0#64).status, design, ?_, ?_⟩
    · rw [hrun, hdesign]
    · rw [(designMemroySize_eq hdesign).2]
      exact hP

end Branches

/-! ## When it is the right size -/

/-- The size that the loop finds is that of the partitions: it is not a multiple of 1 GB, and
    the next multiple fits.  A PCD of zero is taken for an error, and zero returned. -/
def PartitionsOk (pcdSize : BitVec 64) (entries : List RamPartitionEntry) : Prop :=
  if pcdSize = 0#64 then total entries = 0
  else total entries % 2 ^ 30 ≠ 0 ∧ total entries < 2 ^ 64 - 2 ^ 30

/-- The condition for each way in which the protocol may answer. -/
def SizeOk (fw : RamPartition.Firmware) (pcdSize pcdBase : BitVec 64) : Prop :=
  match fw.protocol with
  | none => pcdBase = pcdSize
  | some p =>
      if p.count.1 = .bufferTooSmall then
        fw.allocates = true → p.fill.1.isError = false → PartitionsOk pcdSize p.fill.2
      else pcdSize = 0#64 ∨ p.count.1.isError = true ∧ p.count.2 = 0 ∧ pcdSize = oneGB

section Answers

variable {fw : RamPartition.Firmware} {pcdSize pcdBase : BitVec 64} {p : RamPartitionProtocol}

/-- The protocol fills the buffer. -/
theorem returns_partitions_iff (h : fw.protocol = some p) (hcount : p.count.1 = .bufferTooSmall)
    (halloc : fw.allocates = true) (hfill : p.fill.1.isError = false) :
    Returns fw pcdSize pcdBase (RoundedUp (total p.fill.2)) ↔ PartitionsOk pcdSize p.fill.2 := by
  have hquery : queryPartitions fw p pcdSize 0#64 =
      if p.fill.2.length < 1 then ⟨p.fill.1, none, p.fill.2.length, pcdSize⟩
      else ⟨p.fill.1, some p.fill.2, p.fill.2.length, 0#64⟩ := by
    simp [queryPartitions, fillPartitions, hcount, halloc, hfill]
  rw [PartitionsOk]
  by_cases hpcd : pcdSize = 0#64
  · -- Zero is returned, whatever the partitions are.
    have hq : (queryPartitions fw p pcdSize 0#64).systemMemorySize = pcdSize := by
      rw [hquery]
      split
      · rfl
      · exact hpcd.symm
    rw [returns_of_pcd h hq, roundedUp_iff, if_pos hpcd, hpcd, BitVec.toNat_zero]
    omega
  · rw [if_neg hpcd]
    by_cases hempty : p.fill.2.length < 1
    · -- No partition: the PCD is returned, and not zero.
      have hnil : p.fill.2 = [] := List.eq_nil_of_length_eq_zero (by omega)
      have hpos : pcdSize.toNat ≠ 0 := fun hz => hpcd (BitVec.eq_of_toNat_eq hz)
      rw [returns_of_pcd h (by rw [hquery, if_pos hempty]), roundedUp_iff, hnil]
      simp [total]
      omega
    · -- The partitions are added to zero.
      have hq : (queryPartitions fw p pcdSize 0#64).systemMemorySize ≠ pcdSize := by
        rw [hquery, if_neg hempty]
        exact fun heq => hpcd heq.symm
      have hadd : addPartitions (queryPartitions fw p pcdSize 0#64)
          = .ok (0#64 + BitVec.ofNat 64 (total p.fill.2)) := by
        rw [hquery, if_neg hempty, ← foldl_availableLength]
        rfl
      rw [returns_of_sum h hq hadd, roundedUp_iff]
      rw [BitVec.zero_add, BitVec.toNat_ofNat]
      generalize total p.fill.2 = sum at *
      omega

/-- The first call fails, or returns something else than the number of partitions. -/
theorem returns_first_call (h : fw.protocol = some p) (hcount : p.count.1 ≠ .bufferTooSmall)
    (P : Nat → Prop) :
    Returns fw pcdSize pcdBase P ↔
      pcdSize = 0#64 ∧ P 0 ∨ pcdSize ≠ 0#64 ∧ p.count.2 = 0 ∧ P (2 ^ 30) := by
  have hquery : queryPartitions fw p pcdSize 0#64 = ⟨p.count.1, none, p.count.2, 0#64⟩ := by
    simp [queryPartitions, hcount]
  by_cases hpcd : pcdSize = 0#64
  · -- The size is still zero, which is taken for the PCD.
    rw [returns_of_pcd h (by rw [hquery, hpcd])]
    simp [hpcd]
  · have hq : (queryPartitions fw p pcdSize 0#64).systemMemorySize ≠ pcdSize := by
      rw [hquery]
      exact fun heq => hpcd heq.symm
    by_cases hnum : p.count.2 = 0
    · -- Nothing is added, and the loop makes 1 GB of that.
      have hadd : addPartitions (queryPartitions fw p pcdSize 0#64) = .ok 0#64 := by
        rw [hquery]
        simp [addPartitions, hnum]
      rw [returns_of_sum h hq hadd]
      simp [hpcd, hnum]
    · -- There is no buffer to read the partitions from.
      have hadd : addPartitions (queryPartitions fw p pcdSize 0#64) = .error .nullPartitions := by
        rw [hquery]
        simp [addPartitions, hnum]
      refine iff_of_false (not_returns_of_fault h hq hadd) ?_
      simp [hpcd, hnum]

end Answers

/-- The function returns the size it should, exactly when the condition holds. -/
theorem getSystemMemorySize_iff (fw : RamPartition.Firmware)
    (pcdSystemMemorySize pcdSystemMemoryBase : BitVec 64) :
    Returns fw pcdSystemMemorySize pcdSystemMemoryBase (Expected fw pcdSystemMemorySize) ↔
      SizeOk fw pcdSystemMemorySize pcdSystemMemoryBase := by
  cases h : fw.protocol with
  | none =>
      have hexpected : Expected fw pcdSystemMemorySize
          = fun r => r = pcdSystemMemorySize.toNat := by
        funext r
        simp [Expected, h]
      rw [hexpected, returns_of_no_protocol h]
      simp [SizeOk, h, BitVec.toNat_inj]
  | some p =>
      by_cases hcount : p.count.1 = .bufferTooSmall
      · by_cases hfails : fw.allocates = false ∨ p.fill.1.isError = true
        · -- No memory, or an error of the second call: the PCD.
          have hexpected : Expected fw pcdSystemMemorySize
              = fun r => r = pcdSystemMemorySize.toNat := by
            funext r
            simp [Expected, h, hcount, hfails]
          have hq : (queryPartitions fw p pcdSystemMemorySize 0#64).systemMemorySize
              = pcdSystemMemorySize := by
            have herror : (fillPartitions fw p 0#64).status.isError = true := by
              rcases hfails with halloc | hfill
              · simp [fillPartitions, halloc, hcount, Status.isError]
              · by_cases halloc : fw.allocates = true
                · simp [fillPartitions, halloc, hfill]
                · simp [fillPartitions, halloc, hcount, Status.isError]
            simp [queryPartitions, hcount, herror]
          rw [hexpected, returns_of_pcd h hq]
          have hvacuous : SizeOk fw pcdSystemMemorySize pcdSystemMemoryBase := by
            simp only [SizeOk, h, hcount, if_true]
            intro halloc hfill
            rcases hfails with hno | hno
            · rw [halloc] at hno
              cases hno
            · rw [hfill] at hno
              cases hno
          exact iff_of_true rfl hvacuous
        · rw [not_or, Bool.not_eq_false, Bool.not_eq_true] at hfails
          have hexpected : Expected fw pcdSystemMemorySize = RoundedUp (total p.fill.2) := by
            funext r
            simp [Expected, h, hcount, hfails]
          rw [hexpected, returns_partitions_iff h hcount hfails.1 hfails.2]
          simp [SizeOk, h, hcount, hfails]
      · have hgb : oneGB.toNat = 2 ^ 30 := rfl
        rw [returns_first_call h hcount]
        by_cases herror : p.count.1.isError = true
        · simp only [Expected, SizeOk, h, if_neg hcount, if_pos herror]
          rw [← BitVec.toNat_inj, ← BitVec.toNat_inj, hgb, BitVec.toNat_zero]
          simp only [herror, true_and, ne_eq, ← BitVec.toNat_inj, BitVec.toNat_zero]
          omega
        · simp only [Expected, SizeOk, h, if_neg hcount, if_neg herror, roundedUp_iff]
          simp [herror]

/-! ## Samples -/

/-- A protocol that reports these partitions. -/
def reports (entries : List RamPartitionEntry) : RamPartition.Firmware :=
  ⟨some ⟨(.bufferTooSmall, entries.length), (.success, entries)⟩, true⟩

/-- 4 GB in two partitions. -/
def fourGB : List RamPartitionEntry :=
  [⟨0x80000000#64, 0x80000000#64⟩, ⟨0x100000000#64, 0x80000000#64⟩]

/-- The loop goes past them, to 5 GB. -/
theorem four_gb_are_five :
    getSystemMemorySize (reports fourGB) 0x200000000#64 0x80000000#64 6 0#64
        = .ok (.success, 0x140000000#64) ∧
      ¬ Returns (reports fourGB) 0x200000000#64 0x80000000#64
        (Expected (reports fourGB) 0x200000000#64) := by
  constructor
  · rfl
  · intro h
    obtain ⟨-, hexpected⟩ := (returns_of_sum rfl (by decide) rfl).mp h
    change RoundedUp 0x100000000 0x140000000 at hexpected
    rw [roundedUp_iff] at hexpected
    omega

end SmBiosTable
