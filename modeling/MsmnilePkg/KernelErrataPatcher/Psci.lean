/-
  MsmnilePkg.KernelErrataPatcher.Psci

  The PSCI_MEMPROTECT block does to the first image what its reference does.

  The source tests the second doubleword of its second pattern against two
  values that differ in bit 39; the block masks that bit and tests once.
-/

import MsmnilePkg.KernelErrataPatcher.ScanBlock

namespace KernelErrataPatcher

open ByteMem A64 WordScan

/-- The registers, constants and indices of `psciMemprotectProgram`. -/
def psciScanBlock : ScanBlock where
  prog := psciMemprotectProgram
  headReg := 12#5
  entryReg := 8#5
  limitReg := 5#5
  consts := [(6#5, 0xD2800003180002D5#64), (7#5, 0xD2800002D2800003#64),
    (10#5, 0x18000240D2800001#64), (11#5, 0xD65F03C0#64), (9#5, 0xD2800001D2800002#64)]
  image := 45
  nextWord := 26
  imageEnd := 42
  body := psciMemprotectBody

theorem psciScanBlock_layout : psciScanBlock.Layout := by
  constructor <;> decide

/-- Clearing bit 39 merges the two tails of the second pattern. -/
theorem clear_bit39_eq_iff (v : BitVec 64) :
    v &&& 0xFFFFFF7FFFFFFFFF#64 = 0x18000240D2800001#64 ↔
      v = 0x18000240D2800001#64 ∨ v = 0x180002C0D2800001#64 := by
  have hmask : ∀ i < 64, (0xFFFFFF7FFFFFFFFF#64).getLsbD i = !decide (i = 39) := by decide
  have htail : ∀ i < 64, i ≠ 39 →
      (0x180002C0D2800001#64).getLsbD i = (0x18000240D2800001#64).getLsbD i := by decide
  constructor
  · intro h
    -- The two values differ in bit 39 alone, which the mask clears.
    have hbits : ∀ i < 64, i ≠ 39 → v.getLsbD i = (0x18000240D2800001#64).getLsbD i := by
      intro i hi hne
      rw [← h, BitVec.getLsbD_and, hmask i hi]
      simp [hne]
    cases hbit : v.getLsbD 39 with
    | false =>
        left
        apply BitVec.eq_of_getLsbD_eq
        intro i hi
        by_cases hne : i = 39
        · rw [hne, hbit]
          rfl
        · exact hbits i hi hne
    | true =>
        right
        apply BitVec.eq_of_getLsbD_eq
        intro i hi
        by_cases hne : i = 39
        · rw [hne, hbit]
          rfl
        · rw [htail i hi hne]
          exact hbits i hi hne
  · rintro (rfl | rfl)
    · decide
    · decide

section Pieces

variable {code : Code} {base : Addr}

theorem psci_consts (hl : Loaded code base psciMemprotectProgram) (s : State)
    (hpc : s.pc = pcOf base 4) :
    Reach code (fun t => t.pc = pcOf base psciScanBlock.image ∧ psciScanBlock.ConstsIn t ∧
      t.mem = s.mem ∧ SameOn (12#5 :: 8#5 :: transferRegs) s t) s := by
  refine .constX (r := 6#5) (by decide) 0x2D5 0x1800 0x3 0xD280 hl 4 hpc rfl rfl rfl rfl ?_
  refine .constX (r := 7#5) (by decide) 0x3 0xD280 0x2 0xD280 hl 8 rfl rfl rfl rfl rfl ?_
  refine .constX (r := 10#5) (by decide) 0x1 0xD280 0x240 0x1800 hl 12 rfl rfl rfl rfl rfl ?_
  refine .constW (r := 11#5) (by decide) 0x3C0 0xD65F hl 16 rfl rfl rfl ?_
  refine .constX (r := 9#5) (by decide) 0x2 0xD280 0x1 0xD280 hl 18 rfl rfl rfl rfl rfl ?_
  refine .b hl 22 45 rfl rfl (.refl ⟨rfl, ?_, rfl, ?_⟩)
  · intro p hp
    simp only [psciScanBlock, List.mem_cons, List.not_mem_nil, or_false] at hp
    rcases hp with rfl | rfl | rfl | rfl | rfl <;> rfl
  · exact (((((SameOn.refl _ s).setGpr (by decide)).setGpr (by decide)).setGpr (by decide)).setGpr
      (by decide)).setGpr (by decide)

/-- The store of the `ret`, `n` instructions before the cursor. -/
theorem psci_store (hl : Loaded code base psciMemprotectProgram) (k n : Nat) {s : State}
    (hpc : s.pc = pcOf base k)
    (hstr : psciMemprotectProgram[k]? = some (strW 11#5 2#5 (off (-(4 * n)))))
    (hb : psciMemprotectProgram[k + 1]? = some (.b (dist (k + 1) 26)))
    (hret : s.gpr 11#5 = 0xD65F03C0#64) :
    Reach code (fun t => t.pc = pcOf base 26 ∧
      t.mem = write32 s.mem (s.gpr 2#5 - arm64TotalInstructionLength n) 0xD65F03C0#32 ∧
      t.gpr = s.gpr) s := by
  have haddr : s.gpr 2#5 + off (-(4 * n)) = s.gpr 2#5 - arm64TotalInstructionLength n := by
    rw [arm64TotalInstructionLength, BitVec.sub_eq_add_neg, off, BitVec.ofInt_neg]
    rfl
  have hword : (s.gpr 11#5).setWidth 32 = 0xD65F03C0#32 := by
    rw [hret]
    rfl
  refine .strW (by decide) hl k hpc hstr haddr hword ?_
  exact .b hl (k + 1) 26 rfl hb (.refl ⟨rfl, rfl, rfl⟩)

/-- The second doubleword of the first pattern. -/
theorem psci_first_tail (hl : Loaded code base psciMemprotectProgram) {s : State}
    (hpc : s.pc = pcOf base 23) (h9 : s.gpr 9#5 = 0xD2800001D2800002#64)
    (h11 : s.gpr 11#5 = 0xD65F03C0#64) :
    Reach code (fun t => t.pc = pcOf base 26 ∧
      t.mem = (if read64 s.mem (s.gpr 2#5 + 8#64) = 0xD2800001D2800002#64 then
        write32 s.mem (s.gpr 2#5 - arm64TotalInstructionLength 8) 0xD65F03C0#32 else s.mem) ∧
      SameOn (2#5 :: psciScanBlock.liveRegs) s t) s := by
  -- ldr x3, [x2, #8]
  refine .ldrX (r := 3#5) (n := 2#5) (o := 8#64) (by decide) hl 23 hpc rfl ?_
  have hsame : SameOn (2#5 :: psciScanBlock.liveRegs) s
      (s.setGpr 3#5 (read64 s.mem (s.gpr 2#5 + 8#64))) := (SameOn.refl _ s).setGpr (by decide)
  -- cmp x3, x9; b.eq to the store
  refine .cmpX (n := 3#5) (m := 9#5) (by decide) (by decide) hl 24 40 rfl rfl rfl
    (holds_eq _ _) ?_ ?_
  · intro heq f
    have hmatch : read64 s.mem (s.gpr 2#5 + 8#64) = 0xD2800001D2800002#64 := heq.trans h9
    refine Reach.mono (psci_store hl 40 8 rfl rfl rfl h11) ?_
    rintro t ⟨htpc, htmem, htgpr⟩
    refine ⟨htpc, ?_, fun r hr => (congrFun htgpr r).trans (hsame r hr)⟩
    rw [if_pos hmatch]
    exact htmem
  · intro hne f
    have hmatch : read64 s.mem (s.gpr 2#5 + 8#64) ≠ 0xD2800001D2800002#64 := fun h =>
      hne (h.trans h9.symm)
    rw [if_neg hmatch]
    exact .refl ⟨rfl, rfl, hsame⟩

/-- The second doubleword of the second pattern, compared without bit 39. -/
theorem psci_second_tail (hl : Loaded code base psciMemprotectProgram) {s : State}
    (hpc : s.pc = pcOf base 34) (h10 : s.gpr 10#5 = 0x18000240D2800001#64)
    (h11 : s.gpr 11#5 = 0xD65F03C0#64) :
    Reach code (fun t => t.pc = pcOf base 26 ∧
      t.mem = (if read64 s.mem (s.gpr 2#5 + 8#64) = 0x18000240D2800001#64 ∨
          read64 s.mem (s.gpr 2#5 + 8#64) = 0x180002C0D2800001#64 then
        write32 s.mem (s.gpr 2#5 - arm64TotalInstructionLength 7) 0xD65F03C0#32 else s.mem) ∧
      SameOn (2#5 :: psciScanBlock.liveRegs) s t) s := by
  obtain ⟨d, hd⟩ : ∃ d, read64 s.mem (s.gpr 2#5 + 8#64) = d := ⟨_, rfl⟩
  -- ldr x3, [x2, #8]; and x3, x3, #0xffffff7fffffffff
  refine .ldrX (r := 3#5) (n := 2#5) (o := 8#64) (by decide) hl 34 hpc rfl ?_
  rw [hd]
  refine .set (r := 3#5) (v := d &&& 0xFFFFFF7FFFFFFFFF#64) hl 35 rfl rfl rfl ?_
  have hsame : SameOn (2#5 :: psciScanBlock.liveRegs) s
      ((s.setGpr 3#5 d).setGpr 3#5 (d &&& 0xFFFFFF7FFFFFFFFF#64)) :=
    ((SameOn.refl _ s).setGpr (by decide)).setGpr (by decide)
  -- cmp x3, x10; b.ne to the next word
  refine .cmpX (n := 3#5) (m := 10#5) (by decide) (by decide) hl 36 26 rfl rfl rfl
    (holds_ne _ _) ?_ ?_
  · intro hne f
    rw [if_neg fun h => hne (((clear_bit39_eq_iff d).mpr h).trans h10.symm)]
    exact .refl ⟨rfl, rfl, hsame⟩
  · intro heq f
    have hmatch : d &&& 0xFFFFFF7FFFFFFFFF#64 = 0x18000240D2800001#64 :=
      (not_not.mp heq).trans h10
    refine Reach.mono (psci_store hl 38 7 rfl rfl rfl h11) ?_
    rintro t ⟨htpc, htmem, htgpr⟩
    refine ⟨htpc, ?_, fun r hr => (congrFun htgpr r).trans (hsame r hr)⟩
    rw [if_pos ((clear_bit39_eq_iff d).mp hmatch)]
    exact htmem

theorem psci_body (hl : Loaded code base psciMemprotectProgram) (s : State)
    (hpc : s.pc = pcOf base psciScanBlock.testWord) (hconsts : psciScanBlock.ConstsIn s) :
    Reach code (fun t => t.pc = pcOf base psciScanBlock.nextWord ∧
      t.mem = psciMemprotectBody s.mem (s.gpr 2#5) ∧
      SameOn (2#5 :: psciScanBlock.liveRegs) s t) s := by
  have h6 : s.gpr 6#5 = 0xD2800003180002D5#64 := hconsts (6#5, _) (by decide)
  have h7 : s.gpr 7#5 = 0xD2800002D2800003#64 := hconsts (7#5, _) (by decide)
  have h10 : s.gpr 10#5 = 0x18000240D2800001#64 := hconsts (10#5, _) (by decide)
  have h11 : s.gpr 11#5 = 0xD65F03C0#64 := hconsts (11#5, _) (by decide)
  have h9 : s.gpr 9#5 = 0xD2800001D2800002#64 := hconsts (9#5, _) (by decide)
  obtain ⟨d, hd⟩ : ∃ d, read64 s.mem (s.gpr 2#5) = d := ⟨_, rfl⟩
  have hsame : SameOn (2#5 :: psciScanBlock.liveRegs) s (s.setGpr 3#5 d) :=
    (SameOn.refl _ s).setGpr (by decide)
  -- ldr x3, [x2]
  refine .ldrX (r := 3#5) (n := 2#5) (o := 0#64) (by decide) hl 29 hpc rfl ?_
  rw [BitVec.add_zero, hd, psciMemprotectBody, hd]
  -- cmp x3, x6; b.eq to the test of the second doubleword
  refine .cmpX (n := 3#5) (m := 6#5) (by decide) (by decide) hl 30 23 rfl rfl rfl
    (holds_eq _ _) ?_ ?_
  · intro heq f
    have hd6 : d = 0xD2800003180002D5#64 := heq.trans h6
    have hd7 : d ≠ 0xD2800002D2800003#64 := hd6 ▸ by decide
    refine Reach.mono (psci_first_tail hl rfl h9 h11) ?_
    rintro t ⟨htpc, htmem, htsame⟩
    refine ⟨htpc, htmem.trans ?_, hsame.trans htsame⟩
    simp only [hd6, true_and]
    rfl
  · intro hne f
    have hd6 : d ≠ 0xD2800003180002D5#64 := fun h => hne (h.trans h6.symm)
    simp only [hd6, false_and, if_false]
    -- cmp x3, x7; b.ne to the next word
    refine .cmpX (n := 3#5) (m := 7#5) (by decide) (by decide) hl 32 26 rfl rfl rfl
      (holds_ne _ _) ?_ ?_
    · intro hne7 f
      have hd7 : d ≠ 0xD2800002D2800003#64 := fun h => hne7 (h.trans h7.symm)
      simp only [hd7, false_and, if_false]
      exact .refl ⟨rfl, rfl, hsame⟩
    · intro heq f
      have hd7 : d = 0xD2800002D2800003#64 := (not_not.mp heq).trans h7
      refine Reach.mono (psci_second_tail hl rfl h10 h11) ?_
      rintro t ⟨htpc, htmem, htsame⟩
      refine ⟨htpc, htmem.trans ?_, hsame.trans htsame⟩
      simp only [hd7, true_and]
      rfl

end Pieces

theorem psciScanBlock_pieces {code : Code} {base : Addr}
    (hl : Loaded code base psciMemprotectProgram) : psciScanBlock.Pieces code base :=
  ⟨psci_consts hl, psci_body hl⟩

end KernelErrataPatcher
