/-
  MsmnilePkg.KernelErrataPatcher.ActlrAmcnt

  The ACTLR_EL1 and AMCNTENSET0_EL0 blocks, as embedded and as the assembly
  sources have them.

  The sources test the bits of a mask, as the reference does.  The embedded
  bytes compare the whole word, so they find the instructions for one or two
  registers only.
-/

import MsmnilePkg.KernelErrataPatcher.ScanBlock
import MsmnilePkg.KernelErrataPatcher.ShellCodeSource

namespace KernelErrataPatcher

open ByteMem A64 WordScan

/-- What the embedded ACTLR_EL1 block makes of a word. -/
def actlrEl1EmbeddedWord (w : BitVec 32) : BitVec 32 :=
  if w = 0xD5381028#32 then 0xD2800008#32
  else if w = 0xD5181028#32 ∨ w = 0xD5181029#32 then 0xD503201F#32
  else w

/-- What the embedded AMCNTENSET0_EL0 block makes of a word. -/
def amcntenset0El0EmbeddedWord (w : BitVec 32) : BitVec 32 :=
  if w = 0xD53BD2A8#32 then 0xD2800008#32 else w

def actlrEl1ScanBlock : ScanBlock where
  prog := actlrEl1Program
  headReg := 11#5
  entryReg := 8#5
  limitReg := 4#5
  consts := [(6#5, 0xD5381028#64), (7#5, 0x2AE7EFD8#64), (10#5, 0xD503201F#64),
    (9#5, 0xD2800008#64)]
  image := 28
  nextWord := 14
  imageEnd := 25
  body := patchWord actlrEl1EmbeddedWord

def amcntenset0El0ScanBlock : ScanBlock where
  prog := amcntenset0El0Program
  headReg := 8#5
  entryReg := 6#5
  limitReg := 4#5
  consts := [(5#5, 0xD53BD2A8#64), (7#5, 0xD2800008#64)]
  image := 20
  nextWord := 9
  imageEnd := 17
  body := patchWord amcntenset0El0EmbeddedWord

def actlrEl1SourceScanBlock : ScanBlock where
  prog := actlrEl1SourceProgram
  headReg := 12#5
  entryReg := 8#5
  limitReg := 4#5
  consts := [(6#5, 0xD5381020#64), (7#5, 0xD5181020#64), (11#5, 0xD503201F#64),
    (10#5, 0x2847EFDF#64), (9#5, 0xD2800000#64)]
  image := 30
  nextWord := 17
  imageEnd := 27
  body := patchWord actlrEl1Word

def amcntenset0El0SourceScanBlock : ScanBlock where
  prog := amcntenset0El0SourceProgram
  headReg := 9#5
  entryReg := 6#5
  limitReg := 4#5
  consts := [(5#5, 0xD53BD2A0#64), (8#5, 0x28442D5F#64), (7#5, 0xD2800000#64)]
  image := 23
  nextWord := 10
  imageEnd := 20
  body := patchWord amcntenset0El0Word

theorem actlrEl1ScanBlock_layout : actlrEl1ScanBlock.Layout := by constructor <;> decide
theorem amcntenset0El0ScanBlock_layout : amcntenset0El0ScanBlock.Layout := by
  constructor <;> decide
theorem actlrEl1SourceScanBlock_layout : actlrEl1SourceScanBlock.Layout := by
  constructor <;> decide
theorem amcntenset0El0SourceScanBlock_layout : amcntenset0El0SourceScanBlock.Layout := by
  constructor <;> decide

section Pieces

variable {code : Code} {base : Addr}

/-- A store of the patched word, or none when the word stays as it is. -/
theorem patchWord_of_eq {g : BitVec 32 → BitVec 32} {m : Mem} {c : Addr} {w v : BitVec 32}
    (hw : read32 m c = w) (hv : g w = v) : patchWord g m c = write32 m c v := by
  rw [patchWord, hw, hv]

theorem patchWord_of_fix {g : BitVec 32 → BitVec 32} {m : Mem} {c : Addr} {w : BitVec 32}
    (hw : read32 m c = w) (hv : g w = w) : patchWord g m c = m := by
  rw [patchWord_of_eq hw hv, ← hw, write32_read32]

/-! ## The embedded blocks -/

theorem actlrEl1_consts (hl : Loaded code base actlrEl1Program) (s : State)
    (hpc : s.pc = pcOf base 4) :
    Reach code (fun t => t.pc = pcOf base actlrEl1ScanBlock.image ∧ actlrEl1ScanBlock.ConstsIn t ∧
      t.mem = s.mem ∧ SameOn (11#5 :: 8#5 :: transferRegs) s t) s := by
  refine .constW (r := 6#5) (by decide) 0x1028 0xD538 hl 4 hpc rfl rfl ?_
  refine .constW (r := 7#5) (by decide) 0xEFD8 0x2AE7 hl 6 rfl rfl rfl ?_
  refine .constW (r := 10#5) (by decide) 0x201F 0xD503 hl 8 rfl rfl rfl ?_
  refine .constW (r := 9#5) (by decide) 0x8 0xD280 hl 10 rfl rfl rfl ?_
  refine .b hl 12 28 rfl rfl (.refl ⟨rfl, ?_, rfl, ?_⟩)
  · intro p hp
    simp only [actlrEl1ScanBlock, List.mem_cons, List.not_mem_nil, or_false] at hp
    rcases hp with rfl | rfl | rfl | rfl <;> rfl
  · exact ((((SameOn.refl _ s).setGpr (by decide)).setGpr (by decide)).setGpr (by decide)).setGpr
      (by decide)

theorem actlrEl1_body (hl : Loaded code base actlrEl1Program) (s : State)
    (hpc : s.pc = pcOf base actlrEl1ScanBlock.testWord) (hconsts : actlrEl1ScanBlock.ConstsIn s) :
    Reach code (fun t => t.pc = pcOf base actlrEl1ScanBlock.nextWord ∧
      t.mem = patchWord actlrEl1EmbeddedWord s.mem (s.gpr 2#5) ∧
      SameOn (2#5 :: actlrEl1ScanBlock.liveRegs) s t) s := by
  have h6 : s.gpr 6#5 = 0xD5381028#64 := hconsts (6#5, _) (by decide)
  have h7 : s.gpr 7#5 = 0x2AE7EFD8#64 := hconsts (7#5, _) (by decide)
  have h10 : s.gpr 10#5 = 0xD503201F#64 := hconsts (10#5, _) (by decide)
  have h9 : s.gpr 9#5 = 0xD2800008#64 := hconsts (9#5, _) (by decide)
  obtain ⟨w, hw⟩ : ∃ w, read32 s.mem (s.gpr 2#5) = w := ⟨_, rfl⟩
  have hsame : SameOn (2#5 :: actlrEl1ScanBlock.liveRegs) s (s.setGpr 3#5 (w.setWidth 64)) :=
    (SameOn.refl _ s).setGpr (by decide)
  have haddr : s.gpr 2#5 + 0#64 = s.gpr 2#5 := BitVec.add_zero _
  -- The word at the cursor goes to w3.
  refine .ldrW (r := 3#5) (n := 2#5) (o := 0#64) (by decide) hl 17 hpc rfl ?_
  rw [BitVec.add_zero, hw]
  refine .cmpW (n := 3#5) (m := 6#5) (q := w = 0xD5381028#32) (by decide) (by decide) hl 18 13
    rfl rfl rfl ?_ ?_ ?_
  · rw [holds_eq, decide_eq_decide]
    simp [h6]
  · -- A read of ACTLR_EL1 into x8.
    intro hmrs f
    have hg : actlrEl1EmbeddedWord w = 0xD2800008#32 := by rw [actlrEl1EmbeddedWord, if_pos hmrs]
    refine .strW (r := 9#5) (n := 2#5) (w := 0xD2800008#32) (by decide) hl 13 rfl rfl haddr
      (congrArg (BitVec.setWidth 32) h9) (.refl ⟨rfl, ?_, hsame⟩)
    exact (patchWord_of_eq hw hg).symm
  -- Two words next to each other are found by a subtraction and one unsigned test.
  intro hmrs f
  refine .set (r := 3#5) (v := (w + 0x2AE7EFD8#32).setWidth 64) hl 20 rfl rfl ?_ ?_
  · rw [exec_addW, State.setX_of_ne (by decide), State.x_of_ne (by decide),
      State.x_of_ne (by decide)]
    simp [h7]
  have hsame2 : ∀ x, SameOn (2#5 :: actlrEl1ScanBlock.liveRegs) s
      ((s.setGpr 3#5 (w.setWidth 64)).setGpr 3#5 x) := fun x => hsame.setGpr (by decide)
  refine .cmpWi (n := 3#5) (v := 1#64) (q := ¬ (w = 0xD5181028#32 ∨ w = 0xD5181029#32)) hl 21 14
    rfl rfl rfl ?_ ?_ ?_
  · have hiff : 1#32 < w + 0x2AE7EFD8#32 ↔ ¬ (w = 0xD5181028#32 ∨ w = 0xD5181029#32) := by
      constructor
      · rintro h (rfl | rfl)
        · revert h; decide
        · revert h; decide
      · intro h
        bv_omega
    rw [holds_hi, decide_eq_decide, ← hiff]
    simp
  · -- None of the three words: nothing is stored.
    intro hmsr f
    have hg : actlrEl1EmbeddedWord w = w := by rw [actlrEl1EmbeddedWord, if_neg hmrs, if_neg hmsr]
    refine .refl ⟨rfl, ?_, hsame2 _⟩
    exact (patchWord_of_fix hw hg).symm
  · -- A write of ACTLR_EL1 from x8 or x9.
    intro hmsr f
    have hg : actlrEl1EmbeddedWord w = 0xD503201F#32 := by
      rw [actlrEl1EmbeddedWord, if_neg hmrs, if_pos (not_not.mp hmsr)]
    refine .strW (r := 10#5) (n := 2#5) (w := 0xD503201F#32) (by decide) hl 23 rfl rfl haddr
      (congrArg (BitVec.setWidth 32) h10) (.b hl 24 14 rfl rfl (.refl ⟨rfl, ?_, hsame2 _⟩))
    exact (patchWord_of_eq hw hg).symm

theorem amcntenset0El0_consts (hl : Loaded code base amcntenset0El0Program) (s : State)
    (hpc : s.pc = pcOf base 4) :
    Reach code (fun t => t.pc = pcOf base amcntenset0El0ScanBlock.image ∧
      amcntenset0El0ScanBlock.ConstsIn t ∧ t.mem = s.mem ∧
      SameOn (8#5 :: 6#5 :: transferRegs) s t) s := by
  refine .constW (r := 5#5) (by decide) 0xD2A8 0xD53B hl 4 hpc rfl rfl ?_
  refine .constW (r := 7#5) (by decide) 0x8 0xD280 hl 6 rfl rfl rfl ?_
  refine .b hl 8 20 rfl rfl (.refl ⟨rfl, ?_, rfl, ?_⟩)
  · intro p hp
    simp only [amcntenset0El0ScanBlock, List.mem_cons, List.not_mem_nil, or_false] at hp
    rcases hp with rfl | rfl <;> rfl
  · exact ((SameOn.refl _ s).setGpr (by decide)).setGpr (by decide)

theorem amcntenset0El0_body (hl : Loaded code base amcntenset0El0Program) (s : State)
    (hpc : s.pc = pcOf base amcntenset0El0ScanBlock.testWord)
    (hconsts : amcntenset0El0ScanBlock.ConstsIn s) :
    Reach code (fun t => t.pc = pcOf base amcntenset0El0ScanBlock.nextWord ∧
      t.mem = patchWord amcntenset0El0EmbeddedWord s.mem (s.gpr 2#5) ∧
      SameOn (2#5 :: amcntenset0El0ScanBlock.liveRegs) s t) s := by
  have h5 : s.gpr 5#5 = 0xD53BD2A8#64 := hconsts (5#5, _) (by decide)
  have h7 : s.gpr 7#5 = 0xD2800008#64 := hconsts (7#5, _) (by decide)
  obtain ⟨w, hw⟩ : ∃ w, read32 s.mem (s.gpr 2#5) = w := ⟨_, rfl⟩
  have hsame : SameOn (2#5 :: amcntenset0El0ScanBlock.liveRegs) s
      (s.setGpr 3#5 (w.setWidth 64)) := (SameOn.refl _ s).setGpr (by decide)
  -- ldr w3, [x2]
  refine .ldrW (r := 3#5) (n := 2#5) (o := 0#64) (by decide) hl 12 hpc rfl ?_
  rw [BitVec.add_zero, hw]
  -- cmp w3, w5; b.ne to the next word
  refine .cmpW (n := 3#5) (m := 5#5) (q := w ≠ 0xD53BD2A8#32) (by decide) (by decide) hl 13 9
    rfl rfl rfl ?_ ?_ ?_
  · rw [holds_ne, decide_eq_decide]
    simp [h5]
  · intro hmrs f
    have hg : amcntenset0El0EmbeddedWord w = w := by rw [amcntenset0El0EmbeddedWord, if_neg hmrs]
    refine .refl ⟨rfl, ?_, hsame⟩
    exact (patchWord_of_fix hw hg).symm
  · intro hmrs f
    have hg : amcntenset0El0EmbeddedWord w = 0xD2800008#32 := by
      rw [amcntenset0El0EmbeddedWord, if_pos (not_not.mp hmrs)]
    -- str w7, [x2]; b to the next word
    refine .strW (r := 7#5) (n := 2#5) (w := 0xD2800008#32) (by decide) hl 15 rfl rfl
      (BitVec.add_zero (s.gpr 2#5)) (congrArg (BitVec.setWidth 32) h7)
      (.b hl 16 9 rfl rfl (.refl ⟨rfl, ?_, hsame⟩))
    exact (patchWord_of_eq hw hg).symm

/-! ## The assembly sources -/

theorem and_or_congr {a b k : BitVec 32} (h : a ||| k = b ||| k) (w : BitVec 32) :
    (w &&& a) ||| k = (w &&& b) ||| k := by
  apply BitVec.eq_of_getLsbD_eq
  intro i hi
  have hbit := congrArg (fun v => v.getLsbD i) h
  simp only [BitVec.getLsbD_or] at hbit
  simp only [BitVec.getLsbD_or, BitVec.getLsbD_and]
  cases hw : w.getLsbD i with
  | false => rfl
  | true => simpa using hbit

/-- `and w3, w3, wx; orr w3, w3, wy; str w3, [x2]` -/
theorem source_rewrite_run {prog : List Instr} (hl : Loaded code base prog) (k : Nat)
    {x y : Reg} (h0 : prog[k]? = some (andW 3#5 3#5 x))
    (h1 : prog[k + 1]? = some (orrW 3#5 3#5 y)) (h2 : prog[k + 2]? = some (strW 3#5 2#5 0#64))
    (hx : x ≠ 31#5) (hy : y ≠ 31#5) (hy3 : y ≠ 3#5) {s : State} {w a o : BitVec 32}
    (hpc : s.pc = pcOf base k) (h3 : s.gpr 3#5 = w.setWidth 64) (ha : s.gpr x = a.setWidth 64)
    (ho : s.gpr y = o.setWidth 64) :
    Reach code (fun t => t.pc = pcOf base (k + 3) ∧
      t.mem = write32 s.mem (s.gpr 2#5) ((w &&& a) ||| o) ∧
      ∀ rs : List Reg, 3#5 ∉ rs → SameOn rs s t) s := by
  refine .set (r := 3#5) (v := (w &&& a).setWidth 64) hl k hpc h0 ?_ ?_
  · rw [exec_andW, State.setX_of_ne (by decide), State.x_of_ne (by decide), State.x_of_ne hx, h3,
      ha]
    simp
  refine .set (r := 3#5) (v := ((w &&& a) ||| o).setWidth 64) hl (k + 1) rfl h1 ?_ ?_
  · rw [exec_orrW, State.setX_of_ne (by decide), State.x_of_ne (by decide), State.x_of_ne hy]
    simp [hy3, ho]
  refine .strW (r := 3#5) (n := 2#5) (o := 0#64) (w := (w &&& a) ||| o) (by decide) hl (k + 2)
    rfl h2 (BitVec.add_zero (s.gpr 2#5)) (by simp) (.refl ⟨rfl, rfl, fun rs h => ?_⟩)
  exact ((SameOn.refl rs s).setGpr h).setGpr h

theorem actlrEl1Source_consts (hl : Loaded code base actlrEl1SourceProgram) (s : State)
    (hpc : s.pc = pcOf base 4) :
    Reach code (fun t => t.pc = pcOf base actlrEl1SourceScanBlock.image ∧
      actlrEl1SourceScanBlock.ConstsIn t ∧ t.mem = s.mem ∧
      SameOn (12#5 :: 8#5 :: transferRegs) s t) s := by
  refine .constW (r := 6#5) (by decide) 0x1020 0xD538 hl 4 hpc rfl rfl ?_
  refine .constW (r := 7#5) (by decide) 0x1020 0xD518 hl 6 rfl rfl rfl ?_
  refine .constW (r := 11#5) (by decide) 0x201F 0xD503 hl 8 rfl rfl rfl ?_
  refine .constW (r := 10#5) (by decide) 0xEFDF 0x2847 hl 10 rfl rfl rfl ?_
  refine .set (r := 9#5) (v := 0xD2800000#64) hl 12 rfl rfl rfl ?_
  refine .b hl 13 30 rfl rfl (.refl ⟨rfl, ?_, rfl, ?_⟩)
  · intro p hp
    simp only [actlrEl1SourceScanBlock, List.mem_cons, List.not_mem_nil, or_false] at hp
    rcases hp with rfl | rfl | rfl | rfl | rfl <;> rfl
  · exact (((((SameOn.refl _ s).setGpr (by decide)).setGpr (by decide)).setGpr (by decide)).setGpr
      (by decide)).setGpr (by decide)

theorem actlrEl1Source_body (hl : Loaded code base actlrEl1SourceProgram) (s : State)
    (hpc : s.pc = pcOf base actlrEl1SourceScanBlock.testWord)
    (hconsts : actlrEl1SourceScanBlock.ConstsIn s) :
    Reach code (fun t => t.pc = pcOf base actlrEl1SourceScanBlock.nextWord ∧
      t.mem = patchWord actlrEl1Word s.mem (s.gpr 2#5) ∧
      SameOn (2#5 :: actlrEl1SourceScanBlock.liveRegs) s t) s := by
  have h6 : s.gpr 6#5 = 0xD5381020#64 := hconsts (6#5, _) (by decide)
  have h7 : s.gpr 7#5 = 0xD5181020#64 := hconsts (7#5, _) (by decide)
  have h11 : s.gpr 11#5 = 0xD503201F#64 := hconsts (11#5, _) (by decide)
  have h10 : s.gpr 10#5 = 0x2847EFDF#64 := hconsts (10#5, _) (by decide)
  have h9 : s.gpr 9#5 = 0xD2800000#64 := hconsts (9#5, _) (by decide)
  obtain ⟨w, hw⟩ : ∃ w, read32 s.mem (s.gpr 2#5) = w := ⟨_, rfl⟩
  have hword : ∀ x : BitVec 32, (x.setWidth 64).setWidth 32 = x := fun x => by simp
  have hsame : SameOn (2#5 :: actlrEl1SourceScanBlock.liveRegs) s (s.setGpr 3#5 (w.setWidth 64)) :=
    (SameOn.refl _ s).setGpr (by decide)
  refine .ldrW (r := 3#5) (n := 2#5) (o := 0#64) (by decide) hl 20 hpc rfl ?_
  rw [BitVec.add_zero, hw]
  -- `bics` is zero when every bit of the mask is set in the word.
  refine .bicsW (n := 6#5) (m := 3#5) (v := 0xD5381020#32) (w := w) (by decide) (by decide)
    hl 21 14 rfl rfl rfl (congrArg (BitVec.setWidth 32) h6) (hword w) (holds_eq_bics _ _) ?_ ?_
  · -- A read: the register field is kept, the rest is that of movz.
    intro hmrs f
    have hg : actlrEl1Word w = (w &&& 0x2847EFDF#32) ||| 0xD2800000#32 := by
      rw [actlrEl1Word, if_pos hmrs, and_or_congr (b := 0x2847EFDF#32) (by decide)]
    refine Reach.mono (source_rewrite_run (x := 10#5) (y := 9#5) (w := w)
      (a := 0x2847EFDF#32) (o := 0xD2800000#32) hl 14 rfl rfl rfl (by decide)
      (by decide) (by decide) rfl rfl h10 h9) ?_
    rintro t ⟨htpc, htmem, htsame⟩
    refine ⟨htpc, ?_, hsame.trans (htsame _ (by decide))⟩
    rw [htmem, patchWord_of_eq hw hg]
    rfl
  intro hmrs f
  refine .bicsW (n := 7#5) (m := 3#5) (v := 0xD5181020#32) (w := w) (by decide) (by decide)
    hl 23 17 rfl rfl rfl (congrArg (BitVec.setWidth 32) h7) (hword w) (holds_ne_bics _ _) ?_ ?_
  · -- Neither a read nor a write.
    intro hmsr f
    have hg : actlrEl1Word w = w := by rw [actlrEl1Word, if_neg hmrs, if_neg hmsr]
    refine .refl ⟨rfl, ?_, hsame⟩
    exact (patchWord_of_fix hw hg).symm
  · -- A write becomes nop.
    intro hmsr f
    have hg : actlrEl1Word w = 0xD503201F#32 := by
      rw [actlrEl1Word, if_neg hmrs, if_pos (not_not.mp hmsr)]
    refine .strW (r := 11#5) (n := 2#5) (w := 0xD503201F#32) (by decide) hl 25 rfl rfl
      (BitVec.add_zero (s.gpr 2#5)) (congrArg (BitVec.setWidth 32) h11)
      (.b hl 26 17 rfl rfl (.refl ⟨rfl, ?_, hsame⟩))
    exact (patchWord_of_eq hw hg).symm

theorem amcntenset0El0Source_consts (hl : Loaded code base amcntenset0El0SourceProgram) (s : State)
    (hpc : s.pc = pcOf base 4) :
    Reach code (fun t => t.pc = pcOf base amcntenset0El0SourceScanBlock.image ∧
      amcntenset0El0SourceScanBlock.ConstsIn t ∧ t.mem = s.mem ∧
      SameOn (9#5 :: 6#5 :: transferRegs) s t) s := by
  refine .constW (r := 5#5) (by decide) 0xD2A0 0xD53B hl 4 hpc rfl rfl ?_
  refine .constW (r := 8#5) (by decide) 0x2D5F 0x2844 hl 6 rfl rfl rfl ?_
  refine .set (r := 7#5) (v := 0xD2800000#64) hl 8 rfl rfl rfl ?_
  refine .b hl 9 23 rfl rfl (.refl ⟨rfl, ?_, rfl, ?_⟩)
  · intro p hp
    simp only [amcntenset0El0SourceScanBlock, List.mem_cons, List.not_mem_nil, or_false] at hp
    rcases hp with rfl | rfl | rfl <;> rfl
  · exact (((SameOn.refl _ s).setGpr (by decide)).setGpr (by decide)).setGpr (by decide)

theorem amcntenset0El0Source_body (hl : Loaded code base amcntenset0El0SourceProgram) (s : State)
    (hpc : s.pc = pcOf base amcntenset0El0SourceScanBlock.testWord)
    (hconsts : amcntenset0El0SourceScanBlock.ConstsIn s) :
    Reach code (fun t => t.pc = pcOf base amcntenset0El0SourceScanBlock.nextWord ∧
      t.mem = patchWord amcntenset0El0Word s.mem (s.gpr 2#5) ∧
      SameOn (2#5 :: amcntenset0El0SourceScanBlock.liveRegs) s t) s := by
  have h5 : s.gpr 5#5 = 0xD53BD2A0#64 := hconsts (5#5, _) (by decide)
  have h8 : s.gpr 8#5 = 0x28442D5F#64 := hconsts (8#5, _) (by decide)
  have h7 : s.gpr 7#5 = 0xD2800000#64 := hconsts (7#5, _) (by decide)
  obtain ⟨w, hw⟩ : ∃ w, read32 s.mem (s.gpr 2#5) = w := ⟨_, rfl⟩
  have hword : ∀ x : BitVec 32, (x.setWidth 64).setWidth 32 = x := fun x => by simp
  have hsame : SameOn (2#5 :: amcntenset0El0SourceScanBlock.liveRegs) s
      (s.setGpr 3#5 (w.setWidth 64)) := (SameOn.refl _ s).setGpr (by decide)
  -- ldr w3, [x2]
  refine .ldrW (r := 3#5) (n := 2#5) (o := 0#64) (by decide) hl 13 hpc rfl ?_
  rw [BitVec.add_zero, hw]
  -- bics wzr, w5, w3; b.ne to the next word
  refine .bicsW (n := 5#5) (m := 3#5) (v := 0xD53BD2A0#32) (w := w) (by decide) (by decide)
    hl 14 10 rfl rfl rfl (congrArg (BitVec.setWidth 32) h5) (hword w) (holds_ne_bics _ _) ?_ ?_
  · intro hmrs f
    have hg : amcntenset0El0Word w = w := by rw [amcntenset0El0Word, if_neg hmrs]
    refine .refl ⟨rfl, ?_, hsame⟩
    exact (patchWord_of_fix hw hg).symm
  · intro hmrs f
    have hg : amcntenset0El0Word w = (w &&& 0x28442D5F#32) ||| 0xD2800000#32 := by
      rw [amcntenset0El0Word, if_pos (not_not.mp hmrs),
        and_or_congr (b := 0x28442D5F#32) (by decide)]
    refine Reach.trans (source_rewrite_run (x := 8#5) (y := 7#5) (w := w)
      (a := 0x28442D5F#32) (o := 0xD2800000#32) hl 16 rfl rfl rfl (by decide)
      (by decide) (by decide) rfl rfl h8 h7) ?_
    rintro t ⟨htpc, htmem, htsame⟩
    -- b to the next word
    refine .b hl 19 10 htpc rfl (.refl ⟨rfl, ?_, hsame.trans (htsame _ (by decide))⟩)
    rw [State.mem_setPc, htmem, patchWord_of_eq hw hg]
    rfl

end Pieces

end KernelErrataPatcher
