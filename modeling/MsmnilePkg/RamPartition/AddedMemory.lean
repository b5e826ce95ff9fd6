/-
  MsmnilePkg.RamPartition.AddedMemory

  The memory that RamPartitionDxe adds.

  Every partition that reaches above 4 GB takes one slot of the table, and
  the slots up to the first empty one are cut into pieces of 2 GB.
-/

import Mathlib.Algebra.Group.Nat.Defs
import MsmnilePkg.RamPartition.RamPartitionDxe

namespace RamPartition

open Efi Ranges

/-! ## Partitions as ranges -/

def RamPartitionEntry.range (e : RamPartitionEntry) : Range :=
  ⟨e.base.toNat, e.availableLength.toNat⟩

/-- The partition ends inside the address space. -/
def RamPartitionEntry.NoWrap (e : RamPartitionEntry) : Prop :=
  e.base.toNat + e.availableLength.toNat < 2 ^ 64

instance (e : RamPartitionEntry) : Decidable e.NoWrap := inferInstanceAs (Decidable (_ < _))

/-- What of a partition takes a slot: the part above 4 GB, or nothing.  A partition that
    begins above takes one even when it is empty. -/
def aboveMapped (e : RamPartitionEntry) : Option RamPartitionEntry :=
  if e.base < mappedEnd ∧ mappedEnd < e.base + e.availableLength then
    some ⟨mappedEnd, e.base + e.availableLength - mappedEnd⟩
  else if e.base < mappedEnd ∧ e.base + e.availableLength ≤ mappedEnd then none
  else some e

/-- The contents of the slots. -/
def kept (es : List RamPartitionEntry) : List RamPartitionEntry := es.filterMap aboveMapped

theorem aboveMapped_some {e e' : RamPartitionEntry} (hw : e.NoWrap)
    (h : aboveMapped e = some e') :
    e'.NoWrap ∧ ∀ a, e'.range.Covers a ↔ e.range.Covers a ∧ mappedEnd.toNat ≤ a := by
  unfold RamPartitionEntry.NoWrap at hw
  have hend : (e.base + e.availableLength).toNat
      = e.base.toNat + e.availableLength.toNat := by
    rw [BitVec.toNat_add, Nat.mod_eq_of_lt hw]
  unfold aboveMapped at h
  simp only [BitVec.lt_def, BitVec.le_def, hend] at h
  by_cases hstraddle : e.base.toNat < mappedEnd.toNat ∧
      mappedEnd.toNat < e.base.toNat + e.availableLength.toNat
  · -- a partition across 4 GB is cut there
    rw [if_pos hstraddle] at h
    obtain rfl := Option.some.inj h
    have hlen : (e.base + e.availableLength - mappedEnd).toNat
        = e.base.toNat + e.availableLength.toNat - mappedEnd.toNat := by
      rw [BitVec.toNat_sub_of_le (by rw [BitVec.le_def, hend]; omega), hend]
    unfold RamPartitionEntry.NoWrap RamPartitionEntry.range Range.Covers
    simp only [hlen]
    constructor
    · omega
    · intro a
      omega
  · rw [if_neg hstraddle] at h
    by_cases hbelow : e.base.toNat < mappedEnd.toNat ∧
        e.base.toNat + e.availableLength.toNat ≤ mappedEnd.toNat
    · -- one that ends at 4 GB or below takes no slot
      rw [if_pos hbelow] at h
      cases h
    · -- one that begins above is kept as it is
      rw [if_neg hbelow] at h
      obtain rfl := Option.some.inj h
      refine ⟨hw, fun a => ?_⟩
      unfold RamPartitionEntry.range Range.Covers
      simp only
      omega

theorem aboveMapped_none {e : RamPartitionEntry} (hw : e.NoWrap) (h : aboveMapped e = none)
    (a : Nat) : ¬ (e.range.Covers a ∧ mappedEnd.toNat ≤ a) := by
  unfold RamPartitionEntry.NoWrap at hw
  have hend : (e.base + e.availableLength).toNat
      = e.base.toNat + e.availableLength.toNat := by
    rw [BitVec.toNat_add, Nat.mod_eq_of_lt hw]
  unfold aboveMapped at h
  simp only [BitVec.lt_def, BitVec.le_def, hend] at h
  by_cases hstraddle : e.base.toNat < mappedEnd.toNat ∧
      mappedEnd.toNat < e.base.toNat + e.availableLength.toNat
  · rw [if_pos hstraddle] at h
    cases h
  · rw [if_neg hstraddle] at h
    by_cases hbelow : e.base.toNat < mappedEnd.toNat ∧
        e.base.toNat + e.availableLength.toNat ≤ mappedEnd.toNat
    · unfold RamPartitionEntry.range Range.Covers
      simp only
      omega
    · rw [if_neg hbelow] at h
      cases h

section Kept

variable {es : List RamPartitionEntry}

theorem kept_noWrap (hw : ∀ e ∈ es, e.NoWrap) : ∀ e ∈ kept es, e.NoWrap := by
  intro e he
  obtain ⟨e0, he0, habove⟩ := List.mem_filterMap.mp he
  exact (aboveMapped_some (hw e0 he0) habove).1

/-- The slots hold the partitions, as far as they lie above 4 GB. -/
theorem covered_kept (hw : ∀ e ∈ es, e.NoWrap) (a : Nat) :
    Covered ((kept es).map RamPartitionEntry.range) a ↔
      Covered (es.map RamPartitionEntry.range) a ∧ mappedEnd.toNat ≤ a := by
  constructor
  · rintro ⟨r, hr, hcov⟩
    obtain ⟨e, he, rfl⟩ := List.mem_map.mp hr
    obtain ⟨e0, he0, habove⟩ := List.mem_filterMap.mp he
    obtain ⟨hcov0, hge⟩ := ((aboveMapped_some (hw e0 he0) habove).2 a).mp hcov
    exact ⟨⟨e0.range, List.mem_map.mpr ⟨e0, he0, rfl⟩, hcov0⟩, hge⟩
  · rintro ⟨⟨r, hr, hcov⟩, hge⟩
    obtain ⟨e0, he0, rfl⟩ := List.mem_map.mp hr
    cases habove : aboveMapped e0 with
    | none => exact absurd ⟨hcov, hge⟩ (aboveMapped_none (hw e0 he0) habove a)
    | some e =>
        refine ⟨e.range, List.mem_map.mpr ⟨e, List.mem_filterMap.mpr ⟨e0, he0, habove⟩, rfl⟩, ?_⟩
        exact ((aboveMapped_some (hw e0 he0) habove).2 a).mpr ⟨hcov, hge⟩

theorem pairwise_kept (hw : ∀ e ∈ es, e.NoWrap)
    (h : (es.map RamPartitionEntry.range).Pairwise Apart) :
    ((kept es).map RamPartitionEntry.range).Pairwise Apart := by
  induction es with
  | nil => exact List.Pairwise.nil
  | cons e es ih =>
      rw [List.map_cons, List.pairwise_cons] at h
      obtain ⟨hhead, htail⟩ := h
      have hw' : ∀ e' ∈ es, e'.NoWrap := fun e' he' => hw e' (List.mem_cons_of_mem _ he')
      have htail' := ih hw' htail
      unfold kept at htail' ⊢
      cases habove : aboveMapped e with
      | none =>
          rw [List.filterMap_cons_none habove]
          exact htail'
      | some e' =>
          rw [List.filterMap_cons_some habove, List.map_cons, List.pairwise_cons]
          refine ⟨fun r hr a hcov hcov' => ?_, htail'⟩
          have hcov0 := ((aboveMapped_some (hw e (List.mem_cons_self ..)) habove).2 a).mp hcov
          obtain ⟨⟨r0, hr0, hr0cov⟩, -⟩ := (covered_kept hw' a).mp ⟨r, hr, hcov'⟩
          exact hhead r0 hr0 a hcov0.1 hr0cov

end Kept

/-! ## The table -/

/-- The slot of a partition. -/
def slotOf (e : RamPartitionEntry) : Slot :=
  { emptySlot with address := e.base, length := e.availableLength }

theorem setSlot_free (pre : List Slot) (n : Nat) (e : RamPartitionEntry) :
    setSlot (pre ++ List.replicate (n + 1) emptySlot) pre.length e.base e.availableLength
      = .ok ((pre ++ [slotOf e]) ++ List.replicate n emptySlot) := by
  have hget : (pre ++ List.replicate (n + 1) emptySlot)[pre.length]? = some emptySlot := by
    rw [List.getElem?_append_right (Nat.le_refl _), Nat.sub_self]
    rfl
  have hset : (pre ++ List.replicate (n + 1) emptySlot).set pre.length (slotOf e)
      = (pre ++ [slotOf e]) ++ List.replicate n emptySlot := by
    rw [List.set_append_right _ _ (Nat.le_refl _), Nat.sub_self, List.append_assoc]
    rfl
  rw [setSlot, hget]
  exact congrArg Except.ok hset

theorem setSlot_full (pre : List Slot) (address length : BitVec 64) :
    setSlot (pre ++ List.replicate 0 emptySlot) pre.length address length
      = .error .outsideTable := by
  have hget : (pre ++ List.replicate 0 emptySlot)[pre.length]? = none := by
    rw [List.replicate_zero, List.append_nil, List.getElem?_eq_none (Nat.le_refl _)]
  rw [setSlot, hget]

/-- One partition after the other takes the next slot, until there is none. -/
theorem updateTable_eq (es : List RamPartitionEntry) : ∀ (pre : List Slot) (n : Nat),
    updateTable es pre.length (pre ++ List.replicate n emptySlot) =
      if (kept es).length ≤ n then
        .ok (pre ++ (kept es).map slotOf ++ List.replicate (n - (kept es).length) emptySlot)
      else .error .outsideTable := by
  induction es with
  | nil =>
      intro pre n
      have hkept : kept [] = [] := rfl
      rw [updateTable, hkept, List.length_nil, if_pos (Nat.zero_le n)]
      simp
  | cons e es ih =>
      intro pre n
      -- a partition that takes a slot, in whichever branch
      have hslot : ∀ e' : RamPartitionEntry, aboveMapped e = some e' →
          (do let table ← setSlot (pre ++ List.replicate n emptySlot) pre.length e'.base
                e'.availableLength
              updateTable es (pre.length + 1) table) =
            if (kept (e :: es)).length ≤ n then
              .ok (pre ++ (kept (e :: es)).map slotOf
                ++ List.replicate (n - (kept (e :: es)).length) emptySlot)
            else .error .outsideTable := by
        intro e' habove
        have hkept : kept (e :: es) = e' :: kept es := List.filterMap_cons_some habove
        rw [hkept]
        cases n with
        -- the table is full
        | zero =>
            rw [setSlot_full, if_neg (by simp)]
            rfl
        | succ n =>
            have hrest := ih (pre ++ [slotOf e']) n
            rw [List.length_append, List.length_singleton] at hrest
            rw [setSlot_free]
            refine hrest.trans ?_
            rw [List.length_cons]
            by_cases hle : (kept es).length ≤ n
            · rw [if_pos hle, if_pos (by omega), Nat.add_sub_add_right]
              simp
            · rw [if_neg hle, if_neg (by omega)]
      rw [updateTable]
      by_cases hstraddle : e.base < mappedEnd ∧ mappedEnd < e.base + e.availableLength
      · rw [if_pos hstraddle]
        exact hslot ⟨mappedEnd, e.base + e.availableLength - mappedEnd⟩
          (by rw [aboveMapped, if_pos hstraddle])
      · rw [if_neg hstraddle]
        by_cases hbelow : e.base < mappedEnd ∧ e.base + e.availableLength ≤ mappedEnd
        · -- below 4 GB: no slot
          have hkept : kept (e :: es) = kept es :=
            List.filterMap_cons_none (by rw [aboveMapped, if_neg hstraddle, if_pos hbelow])
          rw [if_pos hbelow, hkept]
          exact ih pre n
        · rw [if_neg hbelow]
          exact hslot e (by rw [aboveMapped, if_neg hstraddle, if_neg hbelow])

/-! ## The pieces -/

/-- The ranges that are passed to `AddMemorySpace`. -/
def added (calls : List ServiceCall) : List Range :=
  calls.filterMap fun
    | .addMemorySpace _ base length _ => some ⟨base.toNat, length.toNat⟩
    | _ => none

theorem added_append (calls calls' : List ServiceCall) :
    added (calls ++ calls') = added calls ++ added calls' := List.filterMap_append ..

/-- The last piece; an empty one is refused. -/
def rest (base length : Nat) : List Range := if length = 0 then [] else [⟨base, length⟩]

/-- The pieces of a slot.  The number of whole ones is counted in 16 bits. -/
def pieces (r : Range) : List Range :=
  if 2 ^ 31 < r.length then
    chunks (2 ^ 31) (r.length / 2 ^ 31 % 2 ^ 16) r.base ++
      rest (r.base + r.length / 2 ^ 31 % 2 ^ 16 * 2 ^ 31) (r.length % 2 ^ 31)
  else rest r.base r.length

theorem covered_rest (base length a : Nat) :
    Covered (rest base length) a ↔ base ≤ a ∧ a < base + length := by
  unfold rest
  by_cases h : length = 0
  · rw [if_pos h]
    exact ⟨fun hc => absurd hc (covered_nil a), fun hc => by omega⟩
  · rw [if_neg h, covered_cons]
    exact ⟨fun hc => hc.resolve_right (covered_nil a), Or.inl⟩

/-- How much of a slot its pieces cover. -/
theorem covered_pieces (r : Range) (a : Nat) : Covered (pieces r) a ↔ r.base ≤ a ∧
    a < r.base + if 2 ^ 31 < r.length then
      r.length / 2 ^ 31 % 2 ^ 16 * 2 ^ 31 + r.length % 2 ^ 31 else r.length := by
  unfold pieces
  by_cases hlong : 2 ^ 31 < r.length
  · rw [if_pos hlong, if_pos hlong, covered_append, covered_chunks, covered_rest]
    omega
  · rw [if_neg hlong, if_neg hlong, covered_rest]

theorem covered_pieces_le {r : Range} {a : Nat} (h : Covered (pieces r) a) : r.Covers a := by
  obtain ⟨hge, hlt⟩ := (covered_pieces r a).mp h
  refine ⟨hge, ?_⟩
  by_cases hlong : 2 ^ 31 < r.length
  · rw [if_pos hlong] at hlt
    omega
  · rw [if_neg hlong] at hlt
    exact hlt

/-- A slot that is not too long is covered by its pieces. -/
theorem covered_pieces_iff {r : Range} (h : r.length / 2 ^ 31 < 2 ^ 16) (a : Nat) :
    Covered (pieces r) a ↔ r.Covers a := by
  rw [covered_pieces, Nat.mod_eq_of_lt h]
  unfold Range.Covers
  split <;> omega

theorem pairwise_rest (base length : Nat) : (rest base length).Pairwise Apart := by
  unfold rest
  by_cases h : length = 0
  · rw [if_pos h]
    exact List.Pairwise.nil
  · rw [if_neg h]
    exact List.pairwise_singleton ..

theorem pairwise_pieces (r : Range) : (pieces r).Pairwise Apart := by
  unfold pieces
  by_cases hlong : 2 ^ 31 < r.length
  · rw [if_pos hlong, List.pairwise_append]
    refine ⟨pairwise_chunks _ _ _, pairwise_rest _ _, ?_⟩
    -- the chunks end where the rest begins
    intro x hx y hy a hxa hya
    have hchunk := (covered_chunks _ _ _ a).mp ⟨x, hx, hxa⟩
    have hrest := (covered_rest _ _ a).mp ⟨y, hy, hya⟩
    omega
  · rw [if_neg hlong]
    exact pairwise_rest _ _

/-! ## The calls -/

section Calls

variable {svc : Services} (hsvc : ∀ calls c, svc calls c = .success)

include hsvc

theorem addRamPartition_added (base length : BitVec 64) (attributes : ArmAttributes)
    (memoryType : MemoryType) (calls : List ServiceCall) :
    added (addRamPartition svc base length attributes memoryType calls).2
      = added calls ++ rest base.toNat length.toNat := by
  by_cases h : length = 0#64
  · rw [addRamPartition, if_pos h, h]
    exact (List.append_nil _).symm
  · have hpos : length.toNat ≠ 0 := fun hz => h (BitVec.eq_of_toNat_eq hz)
    rw [addRamPartition, if_neg h, rest, if_neg hpos]
    simp only [hsvc, Status.success_isError, Bool.false_eq_true, if_false]
    rw [added_append, added_append, added_append, List.append_assoc, List.append_assoc]
    rfl

theorem addParts_added (attributes : ArmAttributes) (memoryType : MemoryType) :
    ∀ (parts : Nat) (base : BitVec 64) (calls : List ServiceCall),
      base.toNat + parts * 2 ^ 31 < 2 ^ 64 →
      (addParts svc attributes memoryType parts base calls).1.toNat = base.toNat + parts * 2 ^ 31 ∧
      added (addParts svc attributes memoryType parts base calls).2
        = added calls ++ chunks (2 ^ 31) parts base.toNat := by
  intro parts
  induction parts with
  | zero =>
      intro base calls _
      rw [addParts, chunks, Nat.zero_mul, List.append_nil]
      exact ⟨rfl, rfl⟩
  | succ parts ih =>
      intro base calls hw
      have hsize : size2GB.toNat = 2 ^ 31 := by decide
      -- A part of 2 GB does not let the base wrap.
      have hbase : (base + size2GB).toNat = base.toNat + 2 ^ 31 := by
        rw [BitVec.toNat_add, hsize, Nat.mod_eq_of_lt (by omega)]
      obtain ⟨hend, hadded⟩ := ih (base + size2GB)
        (addRamPartition svc base size2GB attributes memoryType calls).2 (by omega)
      rw [addParts]
      constructor
      · rw [hend, hbase]
        omega
      · rw [hadded, addRamPartition_added hsvc, hsize, hbase, chunks, rest,
          if_neg (by decide), List.append_assoc]
        rfl

/-- A slot is added in its pieces. -/
theorem spiltAndAddRamPartitions_added {e : RamPartitionEntry} (hw : e.NoWrap)
    (attributes : ArmAttributes) (memoryType : MemoryType) (calls : List ServiceCall) :
    added (spiltAndAddRamPartitions svc e.base e.availableLength attributes memoryType calls).2
      = added calls ++ pieces e.range := by
  have hsize : size2GB.toNat = 2 ^ 31 := by decide
  unfold RamPartitionEntry.NoWrap at hw
  rw [spiltAndAddRamPartitions, pieces]
  by_cases hlong : size2GB < e.availableLength
  · -- more than 2 GB: chunks and what is left over
    have hlong' : 2 ^ 31 < e.range.length := by
      rw [BitVec.lt_def, hsize] at hlong
      exact hlong
    have hparts : ((e.availableLength / size2GB).setWidth 16).toNat
        = e.range.length / 2 ^ 31 % 2 ^ 16 := by
      rw [BitVec.toNat_setWidth, BitVec.toNat_udiv, hsize]
      rfl
    have hrem : (e.availableLength % size2GB).toNat = e.range.length % 2 ^ 31 := by
      rw [BitVec.toNat_umod, hsize]
      rfl
    have hle : e.range.length = e.availableLength.toNat := rfl
    obtain ⟨hend, hadded⟩ := addParts_added hsvc attributes memoryType
      (e.range.length / 2 ^ 31 % 2 ^ 16) e.base calls (by omega)
    rw [if_pos hlong, if_pos hlong']
    simp only [hparts]
    rw [addRamPartition_added hsvc, hadded, hend, hrem, List.append_assoc]
    rfl
  · -- at most 2 GB: one piece
    have hlong' : ¬ 2 ^ 31 < e.range.length := by
      rw [BitVec.lt_def, hsize] at hlong
      exact hlong
    rw [if_neg hlong, if_neg hlong', addRamPartition_added hsvc]
    rfl

omit hsvc in
/-- The entry does not end the loop over the slots. -/
def Nonempty (e : RamPartitionEntry) : Bool := e.availableLength != 0#64

/-- The loop adds the slots up to the first empty one. -/
theorem addSlots_ok (l : List RamPartitionEntry) (hw : ∀ e ∈ l, e.NoWrap) (k : Nat) :
    ∀ calls : List ServiceCall, (0 < k ∨ ∃ e ∈ l, e.availableLength = 0#64) →
      ∃ calls', addSlots svc (l.map slotOf ++ List.replicate k emptySlot) calls = .ok calls' ∧
        added calls' = added calls
          ++ ((l.takeWhile Nonempty).map RamPartitionEntry.range).flatMap pieces := by
  induction l with
  | nil =>
      intro calls hend
      obtain ⟨k, rfl⟩ : ∃ j, k = j + 1 := by
        rcases hend with hk | ⟨e, he, _⟩
        · exact ⟨k - 1, by omega⟩
        · cases he
      exact ⟨calls, by rw [List.map_nil, List.nil_append, List.replicate_succ, addSlots,
        if_pos (show emptySlot.length = 0#64 from rfl)], (List.append_nil _).symm⟩
  | cons e l ih =>
      intro calls hend
      have hwl : ∀ e' ∈ l, e'.NoWrap := fun e' he' => hw e' (List.mem_cons_of_mem _ he')
      rw [List.map_cons, List.cons_append, addSlots]
      by_cases hzero : e.availableLength = 0#64
      · -- an empty slot ends the loop
        have hstop : Nonempty e = false := by rw [Nonempty, hzero]; rfl
        refine ⟨calls, if_pos hzero, ?_⟩
        rw [List.takeWhile_cons_of_neg (by rw [hstop]; decide)]
        exact (List.append_nil _).symm
      · have hgo : Nonempty e = true := bne_iff_ne.mpr hzero
        have hend' : 0 < k ∨ ∃ e' ∈ l, e'.availableLength = 0#64 := by
          rcases hend with hk | ⟨e', he', hz⟩
          · exact Or.inl hk
          · rcases List.mem_cons.mp he' with rfl | hmem
            · exact absurd hz hzero
            · exact Or.inr ⟨e', hmem, hz⟩
        obtain ⟨calls', hok, hadded⟩ := ih hwl
          (spiltAndAddRamPartitions svc e.base e.availableLength emptySlot.armAttributes
            emptySlot.memoryType calls).2 hend'
        refine ⟨calls', (if_neg hzero).trans hok, ?_⟩
        rw [hadded, spiltAndAddRamPartitions_added hsvc (hw e (List.mem_cons_self ..)),
          List.takeWhile_cons_of_pos hgo, List.map_cons, List.flatMap_cons, List.append_assoc]

omit hsvc in
/-- Without an empty slot the loop reads behind the table. -/
theorem addSlots_error (l : List RamPartitionEntry) (h : ∀ e ∈ l, e.availableLength ≠ 0#64) :
    ∀ calls : List ServiceCall,
      addSlots svc (l.map slotOf ++ List.replicate 0 emptySlot) calls
        = .error .outsideTable := by
  induction l with
  | nil => intro calls; rfl
  | cons e l ih =>
      intro calls
      rw [List.map_cons, List.cons_append, addSlots]
      refine (if_neg (h e (List.mem_cons_self ..))).trans ?_
      exact ih (fun e' he' => h e' (List.mem_cons_of_mem _ he')) _

end Calls

/-! ## The driver -/

/-- The protocol reports these partitions, in the way the driver asks for them. -/
def Reports (fw : Firmware) (es : List RamPartitionEntry) : Prop :=
  ∃ p, fw.protocol = some p ∧ fw.allocates = true ∧ p.count = (.bufferTooSmall, es.length) ∧
    p.fill = (.success, es)

/-- The driver ends without leaving the table, and the ranges it adds are disjoint and cover
    exactly what lies above 4 GB. -/
def AddsExactly (result : Except Fault (Status × List ServiceCall))
    (es : List RamPartitionEntry) : Prop :=
  ∃ status calls, result = .ok (status, calls) ∧ (added calls).Pairwise Apart ∧
    ∀ a, Covered (added calls) a ↔
      Covered (es.map RamPartitionEntry.range) a ∧ mappedEnd.toNat ≤ a

/-- The table has a slot for each range above 4 GB and an empty one behind them, no range
    stands behind an empty one, and none has 2 ^ 16 pieces. -/
structure TableSuffices (es : List RamPartitionEntry) : Prop where
  slots : (kept es).length ≤ 7
  terminated : (kept es).length ≤ 6 ∨ ∃ e ∈ kept es, e.availableLength = 0#64
  empty_last : ∀ e ∈ (kept es).dropWhile Nonempty, e.availableLength = 0#64
  parts : ∀ e ∈ kept es, e.availableLength.toNat / 2 ^ 31 < 2 ^ 16

section Driver

variable {svc : Services} {fw : Firmware} {es : List RamPartitionEntry}

/-- The driver, as the loop over the slots that the partitions fill. -/
theorem initialize_eq (svc : Services) (h : Reports fw es) :
    ∃ status, ramPartitionDxeInitialize svc fw =
      if (kept es).length ≤ 7 then
        (addSlots svc ((kept es).map slotOf ++ List.replicate (7 - (kept es).length) emptySlot)
          []).map fun calls => (status, calls)
      else .error .outsideTable := by
  obtain ⟨p, hp, halloc, hcount, hfill⟩ := h
  -- No partition is an error, but the table is gone through all the same.
  by_cases hempty : es.length < 1
  · obtain rfl : es = [] := List.eq_nil_of_length_eq_zero (by omega)
    have hget : getRamPartitions fw = (.notFound, []) := by
      rw [getRamPartitions, hp]
      simp only
      rw [hcount, if_pos rfl, halloc, if_neg (by decide), hfill, if_pos (Or.inr hempty)]
    refine ⟨.notFound, ?_⟩
    rw [ramPartitionDxeInitialize, hget]
    cases addSlots svc (List.drop 1 extendedMemoryDescriptorEx) [] with
    | ok calls => rfl
    | error e => rfl
  · have hget : getRamPartitions fw = (.success, es) := by
      rw [getRamPartitions, hp]
      simp only
      rw [hcount, if_pos rfl, halloc, if_neg (by decide), hfill]
      exact if_neg (not_or.mpr ⟨Bool.false_ne_true, hempty⟩)
    have htable : updateTable es 1 extendedMemoryDescriptorEx = _ :=
      updateTable_eq es [emptySlot] 7
    refine ⟨.success, ?_⟩
    rw [ramPartitionDxeInitialize, hget]
    simp only [Status.success_isError, Bool.false_eq_true, if_false, htable]
    -- The table has seven slots behind the first.
    by_cases hle : (kept es).length ≤ 7
    · rw [if_pos hle, if_pos hle]
      show Except.bind (addSlots svc ((kept es).map slotOf
        ++ List.replicate (7 - (kept es).length) emptySlot) []) _ = _
      cases addSlots svc ((kept es).map slotOf
          ++ List.replicate (7 - (kept es).length) emptySlot) [] with
      | ok calls => rfl
      | error e => rfl
    · rw [if_neg hle, if_neg hle]
      rfl

/-- The ranges that the loop over the slots adds. -/
def addedRanges (es : List RamPartitionEntry) : List Range :=
  (((kept es).takeWhile Nonempty).map RamPartitionEntry.range).flatMap pieces

/-- When the table suffices the driver adds the ranges above 4 GB in pieces; when it does not
    and the driver ends, some range is missing. -/
theorem initialize_cases (hsvc : ∀ calls c, svc calls c = .success) (h : Reports fw es)
    (hw : ∀ e ∈ es, e.NoWrap) :
    (((kept es).length ≤ 7 ∧ ((kept es).length ≤ 6 ∨ ∃ e ∈ kept es, e.availableLength = 0#64)) ∧
      ∃ status calls, ramPartitionDxeInitialize svc fw = .ok (status, calls) ∧
        added calls = addedRanges es) ∨
    (¬ ((kept es).length ≤ 7 ∧
        ((kept es).length ≤ 6 ∨ ∃ e ∈ kept es, e.availableLength = 0#64)) ∧
      ramPartitionDxeInitialize svc fw = .error .outsideTable) := by
  obtain ⟨status, heq⟩ := initialize_eq svc h
  by_cases hle : (kept es).length ≤ 7
  · rw [if_pos hle] at heq
    -- The loop over the slots ends at an empty one.
    by_cases hend : (kept es).length ≤ 6 ∨ ∃ e ∈ kept es, e.availableLength = 0#64
    · obtain ⟨calls, hok, hadded⟩ := addSlots_ok hsvc (kept es) (kept_noWrap hw)
        (7 - (kept es).length) [] (hend.imp_left fun hsix => by omega)
      rw [hok] at heq
      exact Or.inl ⟨⟨hle, hend⟩, status, calls, heq, hadded⟩
    · rw [not_or] at hend
      -- Seven slots in use: the loop reads the one behind the table.
      have hseven : 7 - (kept es).length = 0 := by omega
      rw [hseven, addSlots_error (kept es) (fun e he hz => hend.2 ⟨e, he, hz⟩)] at heq
      exact Or.inr ⟨fun hboth => hboth.2.elim hend.1 hend.2, heq⟩
  · rw [if_neg hle] at heq
    exact Or.inr ⟨fun hboth => hle hboth.1, heq⟩

/-- An address that is added lies in a range with a slot. -/
theorem mem_of_added {a : Nat} (h : Covered (addedRanges es) a) :
    ∃ e ∈ (kept es).takeWhile Nonempty, Covered (pieces e.range) a := by
  obtain ⟨r, hr, hcov⟩ := covered_flatMap.mp h
  obtain ⟨e, he, rfl⟩ := List.mem_map.mp hr
  exact ⟨e, he, hcov⟩

theorem mem_kept_of_takeWhile {e : RamPartitionEntry}
    (he : e ∈ (kept es).takeWhile Nonempty) : e ∈ kept es :=
  (List.takeWhile_sublist _).subset he

theorem pairwise_addedRanges (hw : ∀ e ∈ es, e.NoWrap)
    (hdisj : (es.map RamPartitionEntry.range).Pairwise Apart) :
    (addedRanges es).Pairwise Apart := by
  refine pairwise_flatMap ?_ (fun r _ => pairwise_pieces r) (fun r _ a => covered_pieces_le)
  exact (pairwise_kept hw hdisj).sublist ((List.takeWhile_sublist _).map _)

/-- A range that is not empty stands before the first empty one or behind it. -/
theorem mem_takeWhile_or_dropWhile {e : RamPartitionEntry} (he : e ∈ kept es) :
    e ∈ (kept es).takeWhile Nonempty ∨ e ∈ (kept es).dropWhile Nonempty := by
  rw [← List.takeWhile_append_dropWhile (p := Nonempty) (l := kept es)] at he
  exact List.mem_append.mp he

/-- The address of a range that is not empty belongs to it alone. -/
theorem pieces_of_covered (hw : ∀ e ∈ es, e.NoWrap)
    (hdisj : (es.map RamPartitionEntry.range).Pairwise Apart) {e : RamPartitionEntry}
    (he : e ∈ kept es) {a : Nat} (ha : e.range.Covers a) (h : Covered (addedRanges es) a) :
    e.range ∈ ((kept es).takeWhile Nonempty).map RamPartitionEntry.range ∧
      Covered (pieces e.range) a := by
  obtain ⟨e', he', hcov⟩ := mem_of_added h
  have heq : e'.range = e.range := eq_of_covers (pairwise_kept hw hdisj)
    (List.mem_map.mpr ⟨e', mem_kept_of_takeWhile he', rfl⟩) (List.mem_map.mpr ⟨e, he, rfl⟩)
    (covered_pieces_le hcov) ha
  rw [← heq]
  exact ⟨List.mem_map.mpr ⟨e', he', rfl⟩, hcov⟩

/-- What is added covers the ranges above 4 GB exactly when no range stands behind an empty
    one and none is too long. -/
theorem covered_added_iff (hw : ∀ e ∈ es, e.NoWrap)
    (hdisj : (es.map RamPartitionEntry.range).Pairwise Apart) :
    (∀ a, Covered (addedRanges es) a ↔ Covered ((kept es).map RamPartitionEntry.range) a) ↔
      (∀ e ∈ (kept es).dropWhile Nonempty, e.availableLength = 0#64) ∧
        ∀ e ∈ kept es, e.availableLength.toNat / 2 ^ 31 < 2 ^ 16 := by
  have hpos : ∀ {e : RamPartitionEntry}, e.availableLength ≠ 0#64 → 0 < e.availableLength.toNat :=
    fun hne => Nat.pos_of_ne_zero fun hz => hne (BitVec.eq_of_toNat_eq hz)
  constructor
  · intro hall
    constructor
    · intro e he
      by_contra hne
      have hlen := hpos hne
      have hcov : e.range.Covers e.range.base := ⟨Nat.le_refl _, by
        show e.base.toNat < e.base.toNat + e.availableLength.toNat
        omega⟩
      have hmem : e ∈ kept es := (List.dropWhile_sublist _).subset he
      obtain ⟨hin, -⟩ := pieces_of_covered hw hdisj hmem hcov
        ((hall _).mpr ⟨e.range, List.mem_map.mpr ⟨e, hmem, rfl⟩, hcov⟩)
      -- The range then stands before the first empty one too, and is apart from itself.
      have hsplit := pairwise_kept hw hdisj
      rw [← List.takeWhile_append_dropWhile (p := Nonempty) (l := kept es), List.map_append,
        List.pairwise_append] at hsplit
      exact hsplit.2.2 e.range hin e.range (List.mem_map.mpr ⟨e, he, rfl⟩) _ hcov hcov
    · intro e he
      by_contra hlong
      have hlen : e.range.length = e.availableLength.toNat := rfl
      have hlast : e.range.Covers (e.range.base + e.range.length - 1) := by
        unfold Range.Covers
        omega
      obtain ⟨-, hcov⟩ := pieces_of_covered hw hdisj he hlast
        ((hall _).mpr ⟨e.range, List.mem_map.mpr ⟨e, he, rfl⟩, hlast⟩)
      obtain ⟨-, hlt⟩ := (covered_pieces _ _).mp hcov
      rw [if_pos (by omega)] at hlt
      omega
  · rintro ⟨hlast, hparts⟩ a
    constructor
    · intro h
      obtain ⟨e, he, hcov⟩ := mem_of_added h
      exact ⟨e.range, List.mem_map.mpr ⟨e, mem_kept_of_takeWhile he, rfl⟩, covered_pieces_le hcov⟩
    · rintro ⟨r, hr, hcov⟩
      obtain ⟨e, he, rfl⟩ := List.mem_map.mp hr
      rcases mem_takeWhile_or_dropWhile he with hfirst | hbehind
      · refine covered_flatMap.mpr ⟨e.range, List.mem_map.mpr ⟨e, hfirst, rfl⟩, ?_⟩
        exact (covered_pieces_iff (hparts e he) a).mpr hcov
      · have hzero : e.range.length = 0 := by
          show e.availableLength.toNat = 0
          rw [hlast e hbehind]
          rfl
        obtain ⟨hge, hlt⟩ := hcov
        omega

end Driver

/-- For disjoint partitions the driver adds exactly the memory above 4 GB when the table
    suffices for them, and only then. -/
theorem ramPartitions_added_iff {svc : Services} {fw : Firmware} {es : List RamPartitionEntry}
    (hsvc : ∀ calls c, svc calls c = .success) (hreports : Reports fw es)
    (hdisj : (es.map RamPartitionEntry.range).Pairwise Apart)
    (hw : ∀ e ∈ es, e.NoWrap) :
    AddsExactly (ramPartitionDxeInitialize svc fw) es ↔ TableSuffices es := by
  rcases initialize_cases hsvc hreports hw with
    ⟨⟨hslots, hend⟩, status, calls, hok, hadded⟩ | ⟨hno, herror⟩
  · -- The run is the one that is known, so only its ranges matter.
    have hcovers : AddsExactly (ramPartitionDxeInitialize svc fw) es ↔
        ∀ a, Covered (addedRanges es) a ↔ Covered ((kept es).map RamPartitionEntry.range) a := by
      constructor
      · rintro ⟨status', calls', hok', -, hall⟩ a
        rw [hok] at hok'
        obtain rfl : calls = calls' := congrArg Prod.snd (Except.ok.inj hok')
        rw [← hadded, hall, covered_kept hw]
      · intro hall
        refine ⟨status, calls, hok, ?_, fun a => ?_⟩
        · rw [hadded]
          exact pairwise_addedRanges hw hdisj
        · rw [hadded, hall, covered_kept hw]
    rw [hcovers, covered_added_iff hw hdisj]
    constructor
    · rintro ⟨hlast, hparts⟩
      exact ⟨hslots, hend, hlast, hparts⟩
    · intro h
      exact ⟨h.empty_last, h.parts⟩
  · constructor
    · rintro ⟨status, calls, hok, -⟩
      rw [herror] at hok
      cases hok
    · intro h
      exact absurd ⟨h.slots, h.terminated⟩ hno

/-! ## Samples -/

/-- A firmware that reports these partitions. -/
def sampleFirmware (es : List RamPartitionEntry) : Firmware where
  protocol := some ⟨(.bufferTooSmall, es.length), (.success, es)⟩
  allocates := true

/-- Partitions that lie one behind the other are disjoint. -/
theorem pairwise_of_sorted {l : List Range}
    (h : l.Pairwise fun r r' => r.base + r.length ≤ r'.base) : l.Pairwise Apart :=
  h.imp apart_of_le

/-- A partition below 4 GB and one across the border. -/
def samplePartitions : List RamPartitionEntry :=
  [⟨0x80000000#64, 0x80000000#64⟩, ⟨0x100000000#64, 0x100000000#64⟩]

theorem ramPartitions_added_sample :
    AddsExactly (ramPartitionDxeInitialize (fun _ _ => .success) (sampleFirmware samplePartitions))
      samplePartitions ↔ TableSuffices samplePartitions :=
  ramPartitions_added_iff (fun _ _ => rfl) ⟨_, rfl, rfl, rfl, rfl⟩
    (pairwise_of_sorted (by decide)) (by decide)

/-- Eight partitions of 4 KB above 4 GB, as many as the table is meant for. -/
def eightPartitions : List RamPartitionEntry :=
  [⟨0x200000000#64, 0x1000#64⟩, ⟨0x200001000#64, 0x1000#64⟩, ⟨0x200002000#64, 0x1000#64⟩,
    ⟨0x200003000#64, 0x1000#64⟩, ⟨0x200004000#64, 0x1000#64⟩, ⟨0x200005000#64, 0x1000#64⟩,
    ⟨0x200006000#64, 0x1000#64⟩, ⟨0x200007000#64, 0x1000#64⟩]

/-- The eighth partition is stored behind the table. -/
theorem eight_partitions_leave_table :
    eightPartitions.length ≤ 8 ∧ (eightPartitions.map RamPartitionEntry.range).Pairwise Apart ∧
      (∀ e ∈ eightPartitions, e.NoWrap) ∧
      ramPartitionDxeInitialize (fun _ _ => .success) (sampleFirmware eightPartitions)
        = .error .outsideTable ∧
      ¬ AddsExactly (ramPartitionDxeInitialize (fun _ _ => .success)
        (sampleFirmware eightPartitions)) eightPartitions := by
  have herror : ramPartitionDxeInitialize (fun _ _ => .success) (sampleFirmware eightPartitions)
      = .error .outsideTable := by decide
  refine ⟨by decide, pairwise_of_sorted (by decide), by decide, herror, ?_⟩
  rintro ⟨status, calls, hok, -⟩
  rw [herror] at hok
  cases hok

end RamPartition
