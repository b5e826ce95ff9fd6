/-
  MsmnilePkg.RamPartition.Additions

  SpiltAndAddRamPartitions as the calls of AddRamPartition that it makes.

  The ranges it asks for do not depend on the answers: it makes its calls one
  after the other and returns the status of the last.  The ranges tile what it
  was given when that has at most 2 GB, or is cut into fewer than 2 ^ 16 chunks
  with something left over.
-/

import Mathlib.Algebra.Group.Nat.Defs
import MsmnilePkg.RamPartition.AddedMemory

namespace RamPartition

open Efi Ranges

/-! ## The calls of AddRamPartition -/

/-- `Base` and `Length` of a call of `AddRamPartition`. -/
structure Request where
  base : BitVec 64
  length : BitVec 64
  deriving DecidableEq, Repr

def Request.range (r : Request) : Range := ⟨r.base.toNat, r.length.toNat⟩

@[simp] theorem Request.range_base (r : Request) : r.range.base = r.base.toNat := rfl

@[simp] theorem Request.range_length (r : Request) : r.range.length = r.length.toNat := rfl

/-- The calls in the loop over the parts. -/
def partRequests : Nat → BitVec 64 → List Request
  | 0, _ => []
  | parts + 1, base => ⟨base, size2GB⟩ :: partRequests parts (base + size2GB)

/-- `UINT16 parts = Length / SIZE_2GB` -/
def parts (length : BitVec 64) : BitVec 16 := (length / size2GB).setWidth 16

/-- The call behind the loop. -/
def restRequest (base length : BitVec 64) : Request :=
  ⟨base + BitVec.ofNat 64 ((parts length).toNat * 2 ^ 31), length % size2GB⟩

/-- The calls of `SpiltAndAddRamPartitions`. -/
def requests (base length : BitVec 64) : List Request :=
  if size2GB < length then partRequests (parts length).toNat base ++ [restRequest base length]
  else [⟨base, length⟩]

section Calls

variable (svc : Services) (attributes : ArmAttributes) (memoryType : MemoryType)

/-- One call of `AddRamPartition` after the other: their statuses, and the calls of the
    services that were made. -/
def addAll : List Request → List ServiceCall → List Status × List ServiceCall
  | [], calls => ([], calls)
  | r :: rs, calls =>
      let (status, calls') := addRamPartition svc r.base r.length attributes memoryType calls
      let (statuses, calls'') := addAll rs calls'
      (status :: statuses, calls'')

/-- The services accept the range of a call, after the calls made so far. -/
def Accepts (r : Request) (calls : List ServiceCall) : Prop :=
  let add := ServiceCall.addMemorySpace (gcdMemoryType memoryType) r.base r.length 0xF#64
  let map := ServiceCall.armSetMemoryAttributes r.base r.length attributes
  let set := ServiceCall.setMemorySpaceAttributes r.base r.length 0x8#64
  (svc calls add).isError = false ∧ (svc (calls ++ [add]) map).isError = false ∧
    svc (calls ++ [add] ++ [map]) set = .success

/-- The services accept the range of each call. -/
def AllAccepted : List Request → List ServiceCall → Prop
  | [], _ => True
  | r :: rs, calls => Accepts svc attributes memoryType r calls ∧
      AllAccepted rs (addRamPartition svc r.base r.length attributes memoryType calls).2

variable {svc attributes memoryType}

@[simp] theorem addAll_nil (calls : List ServiceCall) :
    addAll svc attributes memoryType [] calls = ([], calls) := rfl

@[simp] theorem addAll_cons (r : Request) (rs : List Request) (calls : List ServiceCall) :
    addAll svc attributes memoryType (r :: rs) calls
      = ((addRamPartition svc r.base r.length attributes memoryType calls).1 ::
          (addAll svc attributes memoryType rs
            (addRamPartition svc r.base r.length attributes memoryType calls).2).1,
        (addAll svc attributes memoryType rs
          (addRamPartition svc r.base r.length attributes memoryType calls).2).2) := rfl

theorem addAll_append (rs rs' : List Request) : ∀ calls : List ServiceCall,
    addAll svc attributes memoryType (rs ++ rs') calls
      = ((addAll svc attributes memoryType rs calls).1 ++
          (addAll svc attributes memoryType rs'
            (addAll svc attributes memoryType rs calls).2).1,
        (addAll svc attributes memoryType rs'
          (addAll svc attributes memoryType rs calls).2).2) := by
  induction rs with
  | nil => simp
  | cons r rs ih => intro calls; simp [ih]

/-- A call succeeds when it has something to add and the services accept it. -/
theorem addRamPartition_success_iff (r : Request) (calls : List ServiceCall) :
    (addRamPartition svc r.base r.length attributes memoryType calls).1 = .success ↔
      r.length ≠ 0#64 ∧ Accepts svc attributes memoryType r calls := by
  have herror : ∀ s : Status, s.isError = true → s ≠ .success := by
    rintro s hs rfl
    simp at hs
  simp only [addRamPartition, Accepts]
  by_cases hzero : r.length = 0#64
  · simp [hzero]
  · rw [if_neg hzero]
    by_cases hadd : (svc calls (.addMemorySpace (gcdMemoryType memoryType) r.base r.length
        0xF#64)).isError = true
    · -- AddMemorySpace fails, and its status is returned
      simp [hadd, herror _ hadd]
    · by_cases hmap : (svc (calls ++ [.addMemorySpace (gcdMemoryType memoryType) r.base r.length
          0xF#64]) (.armSetMemoryAttributes r.base r.length attributes)).isError = true
      · -- the mapping fails
        simp [hadd, hmap, herror _ hmap]
      · -- the last of the three decides
        simp [hadd, hmap, hzero]

/-- When no range is empty, all calls succeed exactly if the services accept all ranges. -/
theorem addAll_success_iff (rs : List Request) (hrs : ∀ r ∈ rs, r.length ≠ 0#64) :
    ∀ calls : List ServiceCall,
      (∀ s ∈ (addAll svc attributes memoryType rs calls).1, s = .success) ↔
        AllAccepted svc attributes memoryType rs calls := by
  induction rs with
  | nil => simp [AllAccepted]
  | cons r rs ih =>
      intro calls
      rw [List.forall_mem_cons] at hrs
      rw [addAll_cons, List.forall_mem_cons, addRamPartition_success_iff, ih hrs.2, AllAccepted]
      simp [hrs.1]

/-! ## SpiltAndAddRamPartitions makes these calls -/

theorem addParts_eq (n : Nat) : ∀ (base : BitVec 64) (calls : List ServiceCall),
    addParts svc attributes memoryType n base calls
      = (base + BitVec.ofNat 64 (n * 2 ^ 31),
        (addAll svc attributes memoryType (partRequests n base) calls).2) := by
  induction n with
  | zero => simp [addParts, partRequests]
  | succ n ih =>
      intro base calls
      have hbase : base + size2GB + BitVec.ofNat 64 (n * 2 ^ 31)
          = base + BitVec.ofNat 64 ((n + 1) * 2 ^ 31) := by
        have hsize : size2GB = BitVec.ofNat 64 (2 ^ 31) := rfl
        rw [BitVec.add_assoc, hsize, ← BitVec.ofNat_add, Nat.succ_mul, Nat.add_comm (n * 2 ^ 31)]
      rw [addParts, ih, hbase]
      simp [partRequests]

/-- More than 2 GB: after the loop, the call for what is left over. -/
theorem spiltAndAddRamPartitions_long {base length : BitVec 64} (hlong : size2GB < length)
    (calls : List ServiceCall) :
    spiltAndAddRamPartitions svc base length attributes memoryType calls
      = addRamPartition svc (restRequest base length).base (restRequest base length).length
        attributes memoryType
        (addAll svc attributes memoryType (partRequests (parts length).toNat base) calls).2 := by
  have hloop := @addParts_eq svc attributes memoryType (parts length).toNat base calls
  simp only [spiltAndAddRamPartitions, if_pos hlong]
  simp only [parts] at hloop
  rw [hloop]
  rfl

variable (svc attributes memoryType) in
/-- The function calls `AddRamPartition` for the ranges `rs`, one after the other, and returns
    the status of the last call. -/
def MakesCalls (base length : BitVec 64) (calls : List ServiceCall) (rs : List Request) : Prop :=
  ∃ earlier last, (addAll svc attributes memoryType rs calls).1 = earlier ++ [last] ∧
    spiltAndAddRamPartitions svc base length attributes memoryType calls
      = (last, (addAll svc attributes memoryType rs calls).2)

theorem spiltAndAddRamPartitions_makes (base length : BitVec 64) (calls : List ServiceCall) :
    MakesCalls svc attributes memoryType base length calls (requests base length) := by
  by_cases hlong : size2GB < length
  · rw [MakesCalls, requests, if_pos hlong, addAll_append, spiltAndAddRamPartitions_long hlong]
    exact ⟨_, _, rfl, rfl⟩
  · rw [MakesCalls, requests, if_neg hlong, spiltAndAddRamPartitions, if_neg hlong]
    exact ⟨[], _, rfl, rfl⟩

end Calls

/-! ## What the calls cover -/

/-- The ranges are not empty and at most 2 GB each, they are disjoint and consecutive, and
    together they are `[base, base + length)`. -/
structure Tiles (base length : Nat) (l : List Range) : Prop where
  nonempty : ∀ r ∈ l, 0 < r.length
  atMost : ∀ r ∈ l, r.length ≤ 2 ^ 31
  disjoint : l.Pairwise Apart
  consecutive : Consecutive base l
  covers : ∀ a, Covered l a ↔ base ≤ a ∧ a < base + length

/-- Consecutive ranges of at most 2 GB tile when none is empty and their lengths add up. -/
theorem tiles_iff {base length : Nat} {l : List Range} (hl : Consecutive base l)
    (hmost : ∀ r ∈ l, r.length ≤ 2 ^ 31) :
    Tiles base length l ↔ (∀ r ∈ l, 0 < r.length) ∧ total l = length := by
  constructor
  · intro h
    refine ⟨h.nonempty, ?_⟩
    -- The two ends agree at the addresses right behind them.
    have htotal := (covered_of_consecutive hl (base + total l)).symm.trans (h.covers _)
    have hlength := (covered_of_consecutive hl (base + length)).symm.trans (h.covers _)
    omega
  · rintro ⟨hpos, rfl⟩
    exact ⟨hpos, hmost, pairwise_of_consecutive hl, hl, covered_of_consecutive hl⟩

theorem partRequests_range (n : Nat) : ∀ base : BitVec 64, base.toNat + n * 2 ^ 31 < 2 ^ 64 →
    (partRequests n base).map Request.range = chunks (2 ^ 31) n base.toNat := by
  induction n with
  | zero => simp [partRequests, chunks]
  | succ n ih =>
      intro base hbase
      have hnext : (base + size2GB).toNat = base.toNat + 2 ^ 31 := by
        have hsize : size2GB.toNat = 2 ^ 31 := rfl
        rw [BitVec.toNat_add, hsize, Nat.mod_eq_of_lt (by omega)]
      rw [partRequests, chunks, List.map_cons, ih _ (by omega), hnext]
      rfl

theorem parts_toNat (length : BitVec 64) :
    (parts length).toNat = length.toNat / 2 ^ 31 % 2 ^ 16 := by
  simp [parts, size2GB]

theorem restRequest_length (base length : BitVec 64) :
    (restRequest base length).length.toNat = length.toNat % 2 ^ 31 := by
  simp [restRequest, size2GB]

/-- What the calls for more than 2 GB ask for, when something is left over. -/
theorem requests_range {base length : BitVec 64} (hlong : size2GB < length)
    (hw : base.toNat + length.toNat ≤ 2 ^ 64) (hrest : length.toNat % 2 ^ 31 ≠ 0) :
    (requests base length).map Request.range
      = chunks (2 ^ 31) (length.toNat / 2 ^ 31 % 2 ^ 16) base.toNat ++
        [⟨base.toNat + length.toNat / 2 ^ 31 % 2 ^ 16 * 2 ^ 31, length.toNat % 2 ^ 31⟩] := by
  have hbase : base.toNat + length.toNat / 2 ^ 31 % 2 ^ 16 * 2 ^ 31 < 2 ^ 64 := by omega
  have hbehind : (restRequest base length).base.toNat
      = base.toNat + length.toNat / 2 ^ 31 % 2 ^ 16 * 2 ^ 31 := by
    rw [restRequest, BitVec.toNat_add, BitVec.toNat_ofNat, parts_toNat]
    omega
  have hrange : (restRequest base length).range
      = ⟨base.toNat + length.toNat / 2 ^ 31 % 2 ^ 16 * 2 ^ 31, length.toNat % 2 ^ 31⟩ := by
    rw [Request.range, hbehind, restRequest_length]
  rw [requests, if_pos hlong, List.map_append, List.map_singleton, hrange, parts_toNat,
    partRequests_range _ _ hbase]

/-- The calls tile what they are given when it has at most 2 GB, or has a rest and fewer than
    2 ^ 16 chunks before it. -/
theorem requests_tile_iff {base length : BitVec 64} (hlen : 0 < length.toNat)
    (hw : base.toNat + length.toNat ≤ 2 ^ 64) :
    Tiles base.toNat length.toNat ((requests base length).map Request.range) ↔
      length.toNat ≤ 2 ^ 31 ∨
        length.toNat % 2 ^ 31 ≠ 0 ∧ length.toNat / 2 ^ 31 < 2 ^ 16 := by
  have hsize : size2GB.toNat = 2 ^ 31 := rfl
  by_cases hlong : size2GB < length
  · have hgt : 2 ^ 31 < length.toNat := by rw [← hsize]; exact hlong
    by_cases hrest : length.toNat % 2 ^ 31 = 0
    · -- The last call is for an empty range.
      constructor
      · intro h
        have hpos := h.nonempty (restRequest base length).range
          (by rw [requests, if_pos hlong]; simp)
        rw [Request.range_length, restRequest_length] at hpos
        omega
      · omega
    · rw [requests_range hlong hw hrest, tiles_iff]
      · -- The lengths add up when the number of chunks is not cut off.
        rw [total_append, total_chunks, total_cons, total_nil]
        constructor
        · rintro ⟨-, htotal⟩
          simp only at htotal
          omega
        · intro h
          constructor
          · intro r hr
            rcases List.mem_append.mp hr with hr | hr
            · rw [length_of_mem_chunks hr]
              omega
            · obtain rfl := List.mem_singleton.mp hr
              exact Nat.pos_of_ne_zero hrest
          · simp only
            omega
      · rw [consecutive_append, total_chunks]
        exact ⟨consecutive_chunks .., rfl, trivial⟩
      · intro r hr
        rcases List.mem_append.mp hr with hr | hr
        · exact Nat.le_of_eq (length_of_mem_chunks hr)
        · obtain rfl := List.mem_singleton.mp hr
          exact Nat.le_of_lt (Nat.mod_lt _ (by decide))
  · -- One call for all of it.
    have hle : length.toNat ≤ 2 ^ 31 := by rw [← hsize]; exact Nat.le_of_not_lt hlong
    have hone : (requests base length).map Request.range = [⟨base.toNat, length.toNat⟩] := by
      rw [requests, if_neg hlong]
      rfl
    rw [hone, tiles_iff (by simp [Consecutive]) (by simpa using hle)]
    simp only [List.forall_mem_singleton, total_cons, total_nil, hlen, hle]
    simp

/-! ## The whole function -/

section Whole

variable (svc : Services) (base length : BitVec 64) (attributes : ArmAttributes)
  (memoryType : MemoryType) (calls : List ServiceCall)

/-- The function makes the calls `requests`, these tile the range, and the function succeeds
    exactly when all of them do. -/
structure AddsTiles : Prop where
  makes : MakesCalls svc attributes memoryType base length calls (requests base length)
  tiles : Tiles base.toNat length.toNat ((requests base length).map Request.range)
  tells : (spiltAndAddRamPartitions svc base length attributes memoryType calls).1 = .success ↔
    ∀ s ∈ (addAll svc attributes memoryType (requests base length) calls).1, s = .success

/-- The services do not accept the rest after they refused a chunk. -/
def RestTells : Prop :=
  Accepts svc attributes memoryType (restRequest base length)
      (addAll svc attributes memoryType (partRequests (parts length).toNat base) calls).2 →
    AllAccepted svc attributes memoryType (partRequests (parts length).toNat base) calls

end Whole

theorem length_ne_zero_of_mem_partRequests {n : Nat} : ∀ {base : BitVec 64} {r : Request},
    r ∈ partRequests n base → r.length ≠ 0#64 := by
  induction n with
  | zero => simp [partRequests]
  | succ n ih =>
      intro base r hr
      rcases List.mem_cons.mp hr with rfl | hr
      · simp [size2GB]
      · exact ih hr

/-- The status of the last call tells about all of them when the services let it. -/
theorem status_tells_iff {svc : Services} {base length : BitVec 64} {attributes : ArmAttributes}
    {memoryType : MemoryType} {calls : List ServiceCall} (hlong : size2GB < length)
    (hrest : length.toNat % 2 ^ 31 ≠ 0) :
    ((spiltAndAddRamPartitions svc base length attributes memoryType calls).1 = .success ↔
      ∀ s ∈ (addAll svc attributes memoryType (requests base length) calls).1, s = .success) ↔
      RestTells svc base length attributes memoryType calls := by
  have hne : (restRequest base length).length ≠ 0#64 := by
    intro hzero
    apply hrest
    rw [← restRequest_length base, hzero]
    rfl
  rw [spiltAndAddRamPartitions_long hlong, requests, if_pos hlong, addAll_append,
    List.forall_mem_append, addAll_success_iff _ fun r hr => length_ne_zero_of_mem_partRequests hr]
  simp only [addAll_cons, addAll_nil, List.forall_mem_singleton, addRamPartition_success_iff,
    RestTells, ne_eq, hne, not_false_eq_true, true_and]
  exact iff_and_self

/-- The function adds exactly its range in consecutive chunks, and reports whether all were
    added, when the range has at most 2 GB, or has a rest behind fewer than 2 ^ 16 chunks and
    the rest is not accepted after a chunk was refused; and only then. -/
theorem spiltAndAdd_tiles_iff (svc : Services) (base length : BitVec 64)
    (attributes : ArmAttributes) (memoryType : MemoryType) (calls : List ServiceCall)
    (hlen : 0 < length.toNat) (hw : base.toNat + length.toNat ≤ 2 ^ 64) :
    AddsTiles svc base length attributes memoryType calls ↔
      length.toNat ≤ 2 ^ 31 ∨ length.toNat % 2 ^ 31 ≠ 0 ∧ length.toNat / 2 ^ 31 < 2 ^ 16 ∧
        RestTells svc base length attributes memoryType calls := by
  have hparts : AddsTiles svc base length attributes memoryType calls ↔
      Tiles base.toNat length.toNat ((requests base length).map Request.range) ∧
        ((spiltAndAddRamPartitions svc base length attributes memoryType calls).1 = .success ↔
          ∀ s ∈ (addAll svc attributes memoryType (requests base length) calls).1,
            s = .success) :=
    ⟨fun h => ⟨h.tiles, h.tells⟩,
      fun h => ⟨spiltAndAddRamPartitions_makes base length calls, h.1, h.2⟩⟩
  rw [hparts, requests_tile_iff hlen hw]
  by_cases hlong : size2GB < length
  · have hgt : 2 ^ 31 < length.toNat := hlong
    by_cases hrest : length.toNat % 2 ^ 31 = 0
    · omega
    · rw [status_tells_iff hlong hrest]
      constructor
      · rintro ⟨hshort | ⟨hmod, hparts⟩, htells⟩
        · omega
        · exact Or.inr ⟨hmod, hparts, htells⟩
      · rintro (hshort | ⟨hmod, hparts, htells⟩)
        · omega
        · exact ⟨Or.inr ⟨hmod, hparts⟩, htells⟩
  · -- One call, whose status is returned.
    have hle : length.toNat ≤ 2 ^ 31 := Nat.le_of_not_lt hlong
    have hstatus : (spiltAndAddRamPartitions svc base length attributes memoryType calls).1
        = .success ↔ ∀ s ∈ (addAll svc attributes memoryType (requests base length) calls).1,
          s = .success := by
      rw [requests, if_neg hlong, spiltAndAddRamPartitions, if_neg hlong]
      simp
    simp only [hle, true_or, true_and, iff_true]
    exact hstatus

/-! ## Samples -/

/-- 3 GB above the memory that was mapped before. -/
theorem spiltAndAdd_tiles_three_gb :
    AddsTiles (fun _ _ => .success) mappedEnd 0xC0000000#64 .writeBackXn
      .efiConventionalMemory [] :=
  (spiltAndAdd_tiles_iff _ _ _ _ _ _ (by decide) (by decide)).mpr
    (Or.inr ⟨by decide, by decide, fun _ => ⟨⟨rfl, rfl, rfl⟩, trivial⟩⟩)

/-- 4 GB are cut into two chunks and an empty rest, so all is added and an error comes back. -/
theorem four_gb_fail :
    0 < (0x100000000#64).toNat ∧ mappedEnd.toNat + (0x100000000#64).toNat ≤ 2 ^ 64 ∧
      (spiltAndAddRamPartitions (fun _ _ => .success) mappedEnd 0x100000000#64 .writeBackXn
        .efiConventionalMemory []).1 = .invalidParameter ∧
      ¬ AddsTiles (fun _ _ => .success) mappedEnd 0x100000000#64 .writeBackXn
        .efiConventionalMemory [] := by
  refine ⟨by decide, by decide, by decide, ?_⟩
  rintro ⟨-, htiles, -⟩
  have hrest := htiles.nonempty ⟨mappedEnd.toNat + 0x100000000, 0⟩ (by decide)
  simp at hrest

end RamPartition
