/-
  MsmnilePkg.KernelErrataPatcher.Irm

  The IRM and the IRM_X8 block do what their reference does when it visits
  only the first module.

  The scan keeps the last match of each pattern in a register by `csel` and
  leaves the image as soon as both are non-zero; the patch then unrolls the
  stores of the trampoline.  Both blocks are `irmProgram v`, so everything is
  proved once, for a variant `v`.
-/

import MsmnilePkg.KernelErrataPatcher.ScanBlock

namespace KernelErrataPatcher

open ByteMem A64 WordScan

/-! ## The branch instruction -/

/-- `ubfx` takes 26 bits where the source masks 27; bit 26 is set in the opcode anyway. -/
theorem irm_branch_word (d : BitVec 64) :
    (ubfmResult false d 2 27 ||| (0x94000000#64)).setWidth 32
      = 0x94000000#32 ||| ((d / 4#64).setWidth 32 &&& 0x7FFFFFF#32) := by
  have hdiv : d / 4#64 = d >>> 2 := by
    apply BitVec.eq_of_toNat_eq
    rw [BitVec.toNat_udiv, BitVec.toNat_ushiftRight, Nat.shiftRight_eq_div_pow]
    rfl
  have hop : ∀ i < 64, (0x94000000#64).getLsbD i = decide (i = 26 ∨ i = 28 ∨ i = 31) := by decide
  have hop32 : ∀ i < 32, (0x94000000#32).getLsbD i = decide (i = 26 ∨ i = 28 ∨ i = 31) := by decide
  have h26 : ∀ i < 64, (BitVec.ofNat 64 (2 ^ (27 - 2 + 1) - 1)).getLsbD i = decide (i < 26) := by
    decide
  have h27 : ∀ i < 32, (0x7FFFFFF#32).getLsbD i = decide (i < 27) := by decide
  rw [hdiv]
  apply BitVec.eq_of_getLsbD_eq
  intro i hi
  have hi64 : i < 64 := by omega
  simp only [ubfmResult, trunc, BitVec.getLsbD_setWidth, BitVec.getLsbD_or, BitVec.getLsbD_and,
    BitVec.getLsbD_ushiftRight, hop i hi64, hop32 i hi, h27 i hi, if_pos, Nat.reduceLeDiff,
    Bool.false_eq_true, if_false]
  rw [h26 i hi64]
  grind

/-! ## The unrolled stores -/

theorem extract_halves (d : BitVec 64) :
    d.extractLsb' 48 16 ++ d.extractLsb' 32 16 ++ d.extractLsb' 16 16 ++ d.extractLsb' 0 16
      = d := by
  apply BitVec.eq_of_getLsbD_eq
  intro i hi
  simp only [BitVec.getLsbD_append, BitVec.getLsbD_extractLsb']
  grind

theorem storeDwords_length (ds : List (BitVec 64)) (o : BitVec 64) :
    (storeDwords ds o).length = 5 * ds.length := by
  induction ds generalizing o with
  | nil => rfl
  | cons d ds ih =>
      rw [storeDwords, List.length_append, ih, List.length_cons, Nat.mul_add, Nat.add_comm]
      rfl

/-- The registers the stores of the trampoline leave as they are. -/
def irmStoreRegs : List Reg := 3#5 :: transferRegs

theorem storeDwords_run {code : Code} (ds : List (BitVec 64)) :
    ∀ (base : Addr) (o : BitVec 64) (s : State), Loaded code base (storeDwords ds o) →
      s.pc = base →
      Reach code (fun t => t.pc = pcOf base (5 * ds.length) ∧
        t.mem = writeDwords ds (s.gpr 3#5 + o) s.mem ∧ SameOn irmStoreRegs s t) s := by
  induction ds with
  | nil =>
      intro base o s hl hpc
      exact .refl ⟨hpc.trans (pcOf_zero base).symm, rfl, SameOn.refl _ s⟩
  | cons d ds ih =>
      intro base o s hl hpc
      have hhead : Loaded code base (storeDword d o) := hl.left
      have htail : Loaded code (pcOf base 5) (storeDwords ds (o + 8#64)) := hl.right
      -- movz and movk build the doubleword in x2.
      refine .constX (r := 2#5) (by decide) _ _ _ _ hhead 0 (hpc.trans (pcOf_zero base).symm)
        rfl rfl rfl rfl ?_
      rw [extract_halves]
      -- str x2, [x3, #o]; the others follow 8 bytes behind.
      refine .instr (i := strX 2#5 3#5 o) hhead 4 rfl rfl ?_
      rw [exec_strX, State.x_of_ne (by decide)]
      have hsame : SameOn irmStoreRegs s (s.setGpr 2#5 d) := (SameOn.refl _ s).setGpr (by decide)
      refine (ih (pcOf base 5) (o + 8#64) _ htail (pcOf_next base 4)).mono ?_
      rintro t ⟨htpc, htmem, htsame⟩
      refine ⟨?_, ?_, hsame.trans htsame⟩
      · rw [htpc, pcOf_add, List.length_cons, Nat.mul_add, Nat.add_comm]
      · have haddr : s.gpr 3#5 + (o + 8#64) = s.gpr 3#5 + o + 8#64 := (BitVec.add_assoc ..).symm
        rw [htmem, writeDwords, ← haddr]
        rfl

/-! ## The patch -/

theorem irmPatch_of_both {v : IrmVariant} {m : Mem} {f : IrmFound} (h : f.both = true) :
    irmPatch v m f = write32 (writeDwords v.trampoline (codeLocation f.realEstateFunc)
        (write32 m f.gicInstr
          (arm64BranchLocationInstruction f.gicInstr (codeLocation f.realEstateFunc))))
      (codeLocation f.realEstateFunc + arm64TotalInstructionLength 22) 0xD65F03C0#32 := by
  rw [irmPatch, if_pos h]

theorem irmPatch_of_not_both {v : IrmVariant} {m : Mem} {f : IrmFound} (h : f.both = false) :
    irmPatch v m f = m := by
  rw [irmPatch, if_neg (by simp [h])]

theorem codeLocation_eq (a : Addr) : codeLocation a = a + off (-168) := by
  rw [codeLocation, arm64TotalInstructionLength, BitVec.sub_eq_add_neg]
  rfl

/-- The branch at `x4`. -/
theorem irm_branch_run {code : Code} {base : Addr}
    (hl : Loaded code base irmBranchProgram) {s : State} (hpc : s.pc = base) :
    Reach code (fun t => t.pc = pcOf base 6 ∧
      t.mem = write32 s.mem (s.gpr 4#5)
        (arm64BranchLocationInstruction (s.gpr 4#5) (codeLocation (s.gpr 3#5))) ∧
      SameOn irmStoreRegs s t) s := by
  obtain ⟨d, hd⟩ : ∃ d, d = codeLocation (s.gpr 3#5) - s.gpr 4#5 := ⟨_, rfl⟩
  -- sub x2, x3, #168; sub x2, x2, x4
  refine .set (r := 2#5) (v := codeLocation (s.gpr 3#5)) hl 0 (hpc.trans (pcOf_zero base).symm)
    rfl rfl ?_
  refine .set (r := 2#5) (v := d) hl 1 rfl rfl ?_ ?_
  · rw [exec_subX, hd]
    rfl
  -- ubfx w2, w2, #2, #26; mov w5, #0x94000000; orr w2, w2, w5
  refine .set (r := 2#5) (v := ubfmResult false d 2 27) hl 2 rfl rfl rfl ?_
  refine .set (r := 5#5) (v := 0x94000000#64) hl 3 rfl rfl rfl ?_
  refine .set (r := 2#5)
    (v := ((ubfmResult false d 2 27 ||| 0x94000000#64).setWidth 32).setWidth 64) hl 4 rfl rfl ?_ ?_
  · rw [exec_orrW]
    rfl
  have hword : ((((ubfmResult false d 2 27 ||| 0x94000000#64).setWidth 32).setWidth 64).setWidth
      32 : BitVec 32) = arm64BranchLocationInstruction (s.gpr 4#5) (codeLocation (s.gpr 3#5)) := by
    rw [BitVec.setWidth_setWidth_of_le _ (by decide), BitVec.setWidth_eq, irm_branch_word, hd]
    rfl
  -- str w2, [x4]
  refine .strW (r := 2#5) (n := 4#5) (o := 0#64) (a := s.gpr 4#5) (by decide) hl 5 rfl rfl
    (by simp) hword (.refl ⟨rfl, rfl, ?_⟩)
  exact (((((SameOn.refl _ s).setGpr (by decide)).setGpr (by decide)).setGpr (by decide)).setGpr
    (by decide)).setGpr (by decide)

theorem irmPatch_run {code : Code} {base : Addr} {v : IrmVariant}
    (hlen : v.trampoline.length = 11) (hl : Loaded code base (irmPatchProgram v.trampoline))
    {s : State} (hpc : s.pc = base) {f : IrmFound} (hf : f.both = true)
    (hgic : s.gpr 4#5 = f.gicInstr) (hreal : s.gpr 3#5 = f.realEstateFunc) :
    Reach code (fun t => t.pc = pcOf base 67 ∧ t.mem = irmPatch v s.mem f ∧
      SameOn transferRegs s t) s := by
  -- The three parts: the branch, the stores of the trampoline, and its `ret`.
  have hbranch : Loaded code base irmBranchProgram := hl.left
  have hrest : Loaded code (pcOf base 6) (storeDwords v.trampoline (off (-168)) ++ irmRetProgram) :=
    Loaded.right (p := irmBranchProgram) hl
  have hret : Loaded code (pcOf base 61) irmRetProgram := by
    have := hrest.right
    rwa [storeDwords_length, hlen, pcOf_add] at this
  refine (irm_branch_run hbranch hpc).trans ?_
  rintro t ⟨htpc, htmem, htsame⟩
  refine (storeDwords_run v.trampoline _ _ t hrest.left htpc).trans ?_
  rintro u ⟨hupc, humem, husame⟩
  have hsu : SameOn irmStoreRegs s u := htsame.trans husame
  rw [hlen, pcOf_add] at hupc
  -- What the registers hold that the last part stores to.
  have hgpr3 : u.gpr 3#5 = f.realEstateFunc := (hsu 3#5 (by decide)).trans hreal
  have hcode : t.gpr 3#5 + off (-168) = codeLocation f.realEstateFunc := by
    rw [htsame 3#5 (by decide), hreal, codeLocation_eq]
  have hbl : t.mem = write32 s.mem f.gicInstr
      (arm64BranchLocationInstruction f.gicInstr (codeLocation f.realEstateFunc)) := by
    rw [htmem, hgic, hreal]
  have hstores : u.mem = writeDwords v.trampoline (codeLocation f.realEstateFunc) t.mem := by
    rw [humem, hcode]
  have haddr : u.gpr 3#5 + off (-80)
      = codeLocation f.realEstateFunc + arm64TotalInstructionLength 22 := by
    rw [hgpr3, codeLocation, arm64TotalInstructionLength, arm64TotalInstructionLength, off]
    bv_omega
  have hkeep : ∀ w, SameOn transferRegs s (u.setGpr 2#5 w) := fun w =>
    (hsu.trans ((SameOn.refl _ u).setGpr (by decide))).mono (List.subset_cons_self ..)
  refine .constW (r := 2#5) (by decide) 0x3C0 0xD65F hret 0 (hupc.trans (pcOf_zero _).symm)
    rfl rfl ?_
  refine .strW (r := 2#5) (n := 3#5) (w := 0xD65F03C0#32) (by decide) hret 2 rfl rfl haddr
    rfl ?_
  refine .nop hret 3 rfl rfl (.nop hret 4 rfl rfl (.nop hret 5 rfl rfl (.refl ⟨?_, ?_, hkeep _⟩)))
  · exact pcOf_add base 61 6
  · rw [irmPatch_of_both hf, ← hbl, ← hstores]
    rfl

/-! ## The scan -/

/-- What the scan has found is in `x4` and `x3`. -/
structure IrmIn (f : IrmFound) (s : State) : Prop where
  gicInstr : s.gpr 4#5 = f.gicInstr
  realEstateFunc : s.gpr 3#5 = f.realEstateFunc

/-- The registers a turn of the scan leaves as they are: the limit, the two patterns,
    the entry and the head of the list, and the registers of the transfer. -/
def irmScanRegs : List Reg := 6#5 :: 7#5 :: 8#5 :: 9#5 :: 10#5 :: transferRegs

/-- `cmp x4, #0; ccmp x3, #0, #4, ne` clears `Z` exactly when both were found. -/
theorem irm_both_test {code : Code} {base : Addr} {prog : List Instr}
    {P : State → Prop} (hl : Loaded code base prog) (k : Nat) {s : State} {f : IrmFound}
    (hpc : s.pc = pcOf base k) (hcmp : prog[k]? = some (cmpXi 4#5 0#64))
    (hccmp : prog[k + 1]? = some (ccmpX 3#5 0#64 4#4 .ne)) (hf : IrmIn f s)
    (h : ∀ fl : Flags, fl.z = !f.both →
      Reach code P ((s.setFlags fl).setPc (pcOf base (k + 2)))) : Reach code P s := by
  -- cmp x4, #0
  have hexec := exec_cmpXi s 4#5 0#64
  rw [hf.gicInstr] at hexec
  refine .flags hl k hpc hcmp hexec ?_
  obtain ⟨fl, hfl⟩ : ∃ fl : Flags, fl = if decide (f.gicInstr ≠ 0#64) = true then
      cmpFlags f.realEstateFunc 0#64
    else ⟨(4#4).getLsbD 3, (4#4).getLsbD 2, (4#4).getLsbD 1, (4#4).getLsbD 0⟩ := ⟨_, rfl⟩
  -- Z ends up set exactly when one of the two is still 0.
  have hz : fl.z = !f.both := by
    rw [hfl]
    by_cases hgic : f.gicInstr = 0#64
    · rw [if_neg (by simp [hgic])]
      simp [IrmFound.both, hgic]
    · rw [if_pos (by simp [hgic]), cmpFlags_z]
      by_cases hreal : f.realEstateFunc = 0#64
      · simp [IrmFound.both, hreal]
      · simp [IrmFound.both, hgic, hreal]
  -- ccmp x3, #0, #4, ne
  refine .flags (f := fl) hl (k + 1) rfl hccmp ?_ ?_
  · rw [exec_ccmpX, State.x_of_ne (by decide), State.gpr_setPc, State.gpr_setFlags,
      hf.realEstateFunc, State.flags_setPc, State.flags_setFlags, holds_ne, hfl]
  · rw [State.setFlags_setPc, State.setFlags_setFlags, State.setPc_setPc]
    exact h fl hz

section Scan

variable {code : Code} {base : Addr} {insn : BitVec 32}

/-- The word at the cursor against the instruction. -/
theorem irm_insn_run (hl : Loaded code base (irmScanProgram insn)) {s : State} {f : IrmFound}
    {c : Addr} (hpc : s.pc = pcOf base 21) (hf : IrmIn f s) (hc : s.gpr 2#5 = c)
    (h8 : s.gpr 8#5 = insn.setWidth 64) :
    Reach code (fun t => t.pc = pcOf base 24 ∧
      IrmIn ⟨if read32 s.mem c = insn then c else f.gicInstr, f.realEstateFunc⟩ t ∧
      t.mem = s.mem ∧ SameOn (2#5 :: irmScanRegs) s t) s := by
  obtain ⟨w, hw⟩ : ∃ w, read32 s.mem c = w := ⟨_, rfl⟩
  have hword : ∀ x : BitVec 32, (x.setWidth 64).setWidth 32 = x := fun x => by simp
  -- ldr w5, [x2]
  refine .ldrW (r := 5#5) (n := 2#5) (o := 0#64) (by decide) hl 21 hpc rfl ?_
  rw [hc, BitVec.add_zero, hw]
  -- cmp w5, w8
  refine .flags (i := cmpW 5#5 8#5) (f := cmpFlags w insn) hl 22 rfl rfl ?_ ?_
  · rw [exec_cmpW, State.x_of_ne (by decide), State.x_of_ne (by decide)]
    simp only [State.gpr_setPc, State.gpr_setGpr, if_pos, h8, hword,
      show (8#5 : Reg) ≠ 5#5 by decide, if_false]
  -- csel x4, x4, x2, ne
  refine .set (i := cselX 4#5 4#5 2#5 .ne) (r := 4#5) (v := if w = insn then c else f.gicInstr)
    hl 23 rfl rfl ?_ (.refl ⟨rfl, ⟨rfl, hf.2⟩, rfl, ?_⟩)
  · rw [exec_cselX, State.setX_of_ne (by decide), State.x_of_ne (by decide),
      State.x_of_ne (by decide), State.flags_setPc, State.flags_setFlags, holds_ne]
    by_cases hm : w = insn
    · rw [if_neg (by simp [hm]), if_pos hm, ← hc]
      rfl
    · rw [if_pos (by simp [hm]), if_neg hm, ← hf.gicInstr]
      rfl
  · exact ((SameOn.refl _ s).setGpr (by decide)).setGpr (by decide)

/-- The doubleword at the cursor against the marker. -/
theorem irm_marker_run (hl : Loaded code base (irmScanProgram insn)) {s : State} {f : IrmFound}
    {c : Addr} (hpc : s.pc = pcOf base 24) (hf : IrmIn f s) (hc : s.gpr 2#5 = c)
    (h7 : s.gpr 7#5 = irmMarker) :
    Reach code (fun t => t.pc = pcOf base 27 ∧
      IrmIn ⟨f.gicInstr, if read64 s.mem c = irmMarker then c else f.realEstateFunc⟩ t ∧
      t.mem = s.mem ∧ SameOn (2#5 :: irmScanRegs) s t) s := by
  obtain ⟨d, hd⟩ : ∃ d, read64 s.mem c = d := ⟨_, rfl⟩
  -- ldr x5, [x2]
  refine .ldrX (r := 5#5) (n := 2#5) (o := 0#64) (by decide) hl 24 hpc rfl ?_
  rw [hc, BitVec.add_zero, hd]
  -- cmp x5, x7
  refine .flags (i := cmpX 5#5 7#5) (f := cmpFlags d irmMarker) hl 25 rfl rfl ?_ ?_
  · rw [exec_cmpX, State.x_of_ne (by decide), State.x_of_ne (by decide), ← h7]
    rfl
  -- csel x3, x3, x2, ne
  refine .set (i := cselX 3#5 3#5 2#5 .ne) (r := 3#5)
    (v := if d = irmMarker then c else f.realEstateFunc) hl 26 rfl rfl ?_
    (.refl ⟨rfl, ⟨hf.1, rfl⟩, rfl, ?_⟩)
  · rw [exec_cselX, State.setX_of_ne (by decide), State.x_of_ne (by decide),
      State.x_of_ne (by decide), State.flags_setPc, State.flags_setFlags, holds_ne]
    by_cases hm : d = irmMarker
    · rw [if_neg (by simp [hm]), if_pos hm, ← hc]
      rfl
    · rw [if_pos (by simp [hm]), if_neg hm, ← hf.realEstateFunc]
      rfl
  · exact ((SameOn.refl _ s).setGpr (by decide)).setGpr (by decide)

/-- The two matches at the cursor. -/
theorem irm_match_run (hl : Loaded code base (irmScanProgram insn)) {s : State} {f : IrmFound}
    {c : Addr} (hpc : s.pc = pcOf base 21) (hf : IrmIn f s) (hc : s.gpr 2#5 = c)
    (h8 : s.gpr 8#5 = insn.setWidth 64) (h7 : s.gpr 7#5 = irmMarker) :
    Reach code (fun t => t.pc = pcOf base 27 ∧ IrmIn (irmMatch insn s.mem f c) t ∧
      t.mem = s.mem ∧ SameOn (2#5 :: irmScanRegs) s t) s := by
  refine (irm_insn_run hl hpc hf hc h8).trans ?_
  rintro t ⟨htpc, htf, htmem, htsame⟩
  have htc : t.gpr 2#5 = c := (htsame 2#5 (by decide)).trans hc
  have ht7 : t.gpr 7#5 = irmMarker := (htsame 7#5 (by decide)).trans h7
  refine (irm_marker_run hl htpc htf htc ht7).mono ?_
  rintro u ⟨hupc, huf, humem, husame⟩
  rw [htmem] at huf
  exact ⟨hupc, huf, humem.trans htmem, htsame.trans husame⟩

/-- The last test of a turn: the scan is left when both were found or the image ends. -/
theorem irm_turn_end (hl : Loaded code base (irmScanProgram insn)) {s : State} {f : IrmFound}
    {c limit : Addr} (hpc : s.pc = pcOf base 27) (hf : IrmIn f s) (hc : s.gpr 2#5 = c)
    (hlim : s.gpr 6#5 = limit) :
    Reach code (fun t =>
      t.pc = pcOf base (if f.both = true ∨ ¬ c + 4#64 < limit then 13 else 21) ∧
      (f.both = false → t.gpr 2#5 = c + 4#64) ∧ IrmIn f t ∧ t.mem = s.mem ∧
      SameOn irmScanRegs s t) s := by
  refine irm_both_test hl 27 hpc rfl rfl hf fun fl hfl => ?_
  -- Both found: b.ne to the end of the image.
  refine .bcond (c := .ne) hl 29 13 rfl rfl ?_ ?_
  · intro hboth
    have hboth' : f.both = true := by simpa [Cond.holds, hfl] using hboth
    rw [if_pos (Or.inl hboth')]
    exact .refl ⟨rfl, by simp [hboth'], ⟨hf.1, hf.2⟩, rfl, SameOn.refl _ s⟩
  · intro hboth
    have hboth' : f.both = false := by simpa [Cond.holds, hfl] using hboth
    -- add x2, x2, #4
    refine .set (i := addXi 2#5 2#5 4#64) (r := 2#5) (v := c + 4#64) hl 30 rfl rfl
      (by rw [exec_addXi, ← hc]; rfl) ?_
    have hsame : SameOn irmScanRegs s (s.setGpr 2#5 (c + 4#64)) :=
      (SameOn.refl _ s).setGpr (by decide)
    -- cmp x2, x6; b.cc back to the next word
    refine .cmpX (n := 2#5) (m := 6#5) (by decide) (by decide) hl 31 21 rfl rfl rfl
      (holds_cc _ _) ?_ ?_
    · intro hlt fl'
      have hlt' : c + 4#64 < limit := hlim ▸ hlt
      rw [if_neg (by simp [hboth', hlt'])]
      exact .refl ⟨rfl, fun _ => rfl, ⟨hf.1, hf.2⟩, rfl, hsame⟩
    · intro hlt fl'
      have hlt' : ¬ c + 4#64 < limit := hlim ▸ hlt
      rw [if_pos (Or.inr hlt')]
      exact .b hl 33 13 rfl rfl (.refl ⟨rfl, fun _ => rfl, ⟨hf.1, hf.2⟩, rfl, hsame⟩)

/-- The scan of a range of at least one word, from its first test on. -/
theorem irm_scan_run (hl : Loaded code base (irmScanProgram insn)) (n : Nat) :
    ∀ (s : State) (f : IrmFound) (c limit : Addr), s.pc = pcOf base 21 → IrmIn f s →
      s.gpr 2#5 = c → s.gpr 6#5 = limit → s.gpr 8#5 = insn.setWidth 64 → s.gpr 7#5 = irmMarker →
      c.toNat + 4 * (n + 1) = limit.toNat →
      Reach code (fun t => t.pc = pcOf base 13 ∧
        IrmIn (scanUntil Prod.snd (irmBody insn s.mem) (n + 1) c (f, false)).1 t ∧
        t.mem = s.mem ∧ SameOn irmScanRegs s t) s := by
  -- By induction on the words behind the one at the cursor.
  induction n with
  | zero =>
      intro s f c limit hpc hf hc hlim h8 h7 hlen
      refine (irm_match_run hl hpc hf hc h8 h7).trans ?_
      rintro t ⟨htpc, htf, htmem, htsame⟩
      have hlt : ¬ c + 4#64 < limit := by
        have := limit.isLt
        bv_omega
      have htc : t.gpr 2#5 = c := (htsame 2#5 (by decide)).trans hc
      have htlim : t.gpr 6#5 = limit := (htsame 6#5 (by decide)).trans hlim
      refine (irm_turn_end hl htpc htf htc htlim).mono ?_
      rintro u ⟨hupc, -, huf, humem, husame⟩
      rw [if_pos (Or.inr hlt)] at hupc
      exact ⟨hupc, huf, humem.trans htmem, (htsame.mono (List.subset_cons_self ..)).trans husame⟩
  | succ n ih =>
      intro s f c limit hpc hf hc hlim h8 h7 hlen
      refine (irm_match_run hl hpc hf hc h8 h7).trans ?_
      rintro t ⟨htpc, htf, htmem, htsame⟩
      have hlt : c + 4#64 < limit := by
        have := limit.isLt
        bv_omega
      have htc : t.gpr 2#5 = c := (htsame 2#5 (by decide)).trans hc
      have htlim : t.gpr 6#5 = limit := (htsame 6#5 (by decide)).trans hlim
      have hrest : (c + 4#64).toNat + 4 * (n + 1) = limit.toNat := by
        have := limit.isLt
        bv_omega
      have hturn : scanUntil Prod.snd (irmBody insn s.mem) (n + 1 + 1) c (f, false)
          = scanUntil Prod.snd (irmBody insn s.mem) (n + 1) (c + 4#64)
              (irmMatch insn s.mem f c, (irmMatch insn s.mem f c).both) := rfl
      refine (irm_turn_end hl htpc htf htc htlim).trans ?_
      rintro u ⟨hupc, huc, huf, humem, husame⟩
      have hsu : SameOn irmScanRegs s u := (htsame.mono (List.subset_cons_self ..)).trans husame
      have hmem : u.mem = s.mem := humem.trans htmem
      cases hboth : (irmMatch insn s.mem f c).both with
      | true =>
          -- Both were found.
          rw [if_pos (Or.inl hboth)] at hupc
          rw [hturn, hboth, scanUntil_stopped rfl]
          exact .refl ⟨hupc, huf, hmem, hsu⟩
      | false =>
          rw [if_neg (by simp [hboth, hlt])] at hupc
          rw [hturn, hboth, ← hmem]
          refine (ih u _ (c + 4#64) limit hupc huf (huc hboth) ((hsu 6#5 (by decide)).trans hlim)
            ((hsu 8#5 (by decide)).trans h8) ((hsu 7#5 (by decide)).trans h7) hrest).mono ?_
          rintro v ⟨hvpc, hvf, hvmem, hvsame⟩
          exact ⟨hvpc, hmem ▸ hvf, hvmem, hsu.trans hvsame⟩

/-- The constants of the scan; nothing is found yet. -/
theorem irm_setup_run (hl : Loaded code base (irmScanProgram insn)) {s : State}
    (hpc : s.pc = pcOf base 4) :
    Reach code (fun t => t.pc = pcOf base 16 ∧ IrmIn ⟨0#64, 0#64⟩ t ∧
      t.gpr 8#5 = insn.setWidth 64 ∧ t.gpr 7#5 = irmMarker ∧ t.mem = s.mem ∧
      SameOn (9#5 :: 10#5 :: transferRegs) s t) s := by
  have hhalves : insn.extractLsb' 16 16 ++ insn.extractLsb' 0 16 = insn := by
    apply BitVec.eq_of_getLsbD_eq
    intro i hi
    simp only [BitVec.getLsbD_append, BitVec.getLsbD_extractLsb']
    grind
  refine .set (r := 3#5) (v := 0#64) hl 4 hpc rfl rfl ?_
  refine .set (r := 4#5) (v := 0#64) hl 5 rfl rfl rfl ?_
  refine .constW (r := 8#5) (by decide) (insn.extractLsb' 0 16) (insn.extractLsb' 16 16) hl 6 rfl
    rfl rfl ?_
  rw [hhalves]
  refine .constX (r := 7#5) (by decide) 3 9 0x16 9 hl 8 rfl rfl rfl rfl rfl ?_
  refine .b hl 12 16 rfl rfl (.refl ⟨rfl, ⟨rfl, rfl⟩, rfl, rfl, rfl, ?_⟩)
  exact ((((SameOn.refl _ s).setGpr (by decide)).setGpr (by decide)).setGpr (by decide)).setGpr
    (by decide)

/-- Behind the last word, the patch follows only when both were found. -/
theorem irm_scan_end (hl : Loaded code base (irmScanProgram insn)) {s : State} {f : IrmFound}
    (hpc : s.pc = pcOf base 13) (hf : IrmIn f s) :
    Reach code (fun t => t.pc = pcOf base (if f.both = true then 37 else 104) ∧ IrmIn f t ∧
      t.mem = s.mem ∧ SameOn transferRegs s t) s := by
  refine .ldrX (r := 9#5) (n := 9#5) (o := 0#64) (by decide) hl 13 hpc rfl ?_
  refine .flags (i := cmpX 9#5 10#5) hl 14 rfl rfl (exec_cmpX ..) ?_
  refine .b hl 15 34 rfl rfl ?_
  have hsame : ∀ v, SameOn transferRegs s (s.setGpr 9#5 v) := fun v =>
    (SameOn.refl _ s).setGpr (by decide)
  refine irm_both_test (f := f) hl 34 rfl rfl rfl ⟨hf.1, hf.2⟩ fun fl hfl => ?_
  refine .bcond (c := .eq) hl 36 104 rfl rfl ?_ ?_
  · intro hz
    have hboth : ¬ f.both = true := by simpa [Cond.holds, hfl] using hz
    rw [if_neg hboth]
    exact .refl ⟨rfl, ⟨hf.1, hf.2⟩, rfl, hsame _⟩
  · intro hz
    have hboth : f.both = true := by simpa [Cond.holds, hfl] using hz
    rw [if_pos hboth]
    exact .refl ⟨rfl, ⟨hf.1, hf.2⟩, rfl, hsame _⟩

/-- The scan of the first image, from the prologue to the patch. -/
theorem irm_firstModule_run (hl : Loaded code base (irmScanProgram insn)) {s : State}
    (hpc : s.pc = pcOf base 0) (himg : FirstImageOk s.mem (s.gpr 0#5)) {f : IrmFound}
    (hfound : irmFirstModuleFound insn s.mem (s.gpr 0#5) = f) :
    Reach code (fun t => t.pc = pcOf base (if f.both = true then 37 else 104) ∧
      (f.both = true → IrmIn f t) ∧ t.mem = s.mem ∧ SameOn transferRegs s t) s := by
  obtain ⟨entry, hentry⟩ : ∃ entry, entry = firstEntry s.mem (s.gpr 0#5) := ⟨_, rfl⟩
  rw [irmFirstModuleFound, ← hentry] at hfound
  refine (reach_firstEntry (h := 10#5) (e := 9#5) (x := 104) hl rfl rfl rfl rfl
    (by decide) (by decide) (by decide) hpc hentry).trans ?_
  rintro t ⟨htpc, htentry, htmem, htsame⟩
  by_cases hempty : entry = loadOrderListHead (s.gpr 0#5)
  · -- The list is empty: the code leaves the block.
    rw [if_pos hempty] at htpc hfound
    have hboth : ¬ f.both = true := by simp [← hfound, IrmFound.both]
    rw [if_neg hboth]
    exact .refl ⟨htpc, fun h => absurd h hboth, htmem, htsame⟩
  rw [if_neg hempty] at htpc hfound
  have hok : ImageOk (dllBase s.mem entry) (sizeOfImage s.mem entry) :=
    hentry ▸ himg (hentry ▸ hempty)
  have hlen := hok.limit
  -- The two words that are looked for, and the bounds of the image.
  refine (irm_setup_run hl htpc).trans ?_
  rintro u ⟨hupc, huf, hu8, hu7, humem, husame⟩
  have hsu : SameOn transferRegs s u :=
    htsame.trans (husame.mono fun r hr => List.mem_cons_of_mem _ (List.mem_cons_of_mem _ hr))
  have huentry : u.gpr 9#5 = entry := (husame 9#5 (by decide)).trans htentry
  have hmem : u.mem = s.mem := humem.trans htmem
  refine (reach_bounds (e := 9#5) (l := 6#5) hl 16 rfl rfl rfl (by decide)
    (by decide) (by decide) hupc huentry rfl rfl).trans ?_
  rw [hmem]
  rintro v ⟨hvpc, hvc, hvlim, hvmem, hvsame⟩
  -- The bounds leave the other registers as they are.
  have hvf : IrmIn ⟨0#64, 0#64⟩ v :=
    ⟨(hvsame [4#5] (by decide) (by decide) 4#5 (by decide)).trans huf.1,
      (hvsame [3#5] (by decide) (by decide) 3#5 (by decide)).trans huf.2⟩
  have hv8 := (hvsame [8#5] (by decide) (by decide) 8#5 (by decide)).trans hu8
  have hv7 := (hvsame [7#5] (by decide) (by decide) 7#5 (by decide)).trans hu7
  have hsv : SameOn transferRegs s v := hsu.trans (hvsame _ (by decide) (by decide))
  refine .cmpX (n := 2#5) (m := 6#5)
    (q := ¬ dllBase s.mem entry < dllBase s.mem entry + sizeOfImage s.mem entry)
    (by decide) (by decide) hl 19 13 hvpc rfl rfl ?_ ?_ ?_
  · rw [holds_cs, decide_eq_decide, BitVec.not_lt, hvc, hvlim]
  · -- The image has no words: nothing was found.
    intro hlt fl
    have hn : wordCount (sizeOfImage s.mem entry) = 0 := by rw [BitVec.lt_def] at hlt; omega
    rw [hn] at hfound
    have hf : IrmIn f v := hfound ▸ hvf
    refine Reach.mono (irm_scan_end hl rfl ⟨hf.1, hf.2⟩) ?_
    rintro w ⟨hwpc, hwf, hwmem, hwsame⟩
    exact ⟨hwpc, fun _ => hwf, hwmem.trans hvmem, hsv.trans hwsame⟩
  · intro hlt fl
    -- The image has a word, and the scan is made.
    have hlt' := not_not.mp hlt
    obtain ⟨n, hn⟩ : ∃ n, wordCount (sizeOfImage s.mem entry) = n + 1 :=
      ⟨wordCount (sizeOfImage s.mem entry) - 1, by rw [BitVec.lt_def] at hlt'; omega⟩
    rw [hn] at hlen hfound
    refine Reach.trans (irm_scan_run hl n _ ⟨0#64, 0#64⟩ _ _ rfl ⟨hvf.1, hvf.2⟩ hvc hvlim hv8 hv7
      hlen) ?_
    rintro w ⟨hwpc, hwf, hwmem, hwsame⟩
    rw [State.mem_setPc, State.mem_setFlags, hvmem, hfound] at hwf
    refine (irm_scan_end hl hwpc hwf).mono ?_
    rintro z ⟨hzpc, hzf, hzmem, hzsame⟩
    refine ⟨hzpc, fun _ => hzf, hzmem.trans (hwmem.trans hvmem), hsv.trans (SameOn.trans ?_ hzsame)⟩
    exact SameOn.mono hwsame (by decide)

end Scan

/-- An IRM block does to the first image what its reference does. -/
theorem irm_run {code : Code} {base : Addr} {v : IrmVariant}
    (hlen : v.trampoline.length = 11) (hl : Loaded code base (irmProgram v)) {s : State}
    (hpc : s.pc = pcOf base 0) (himg : FirstImageOk s.mem (s.gpr 0#5)) :
    Reach code (fun t => t.pc = pcOf base 104 ∧ t.mem = irmFirstModuleMem v s.mem (s.gpr 0#5) ∧
      SameOn transferRegs s t) s := by
  have hscan : Loaded code base (irmScanProgram v.insn) := hl.left
  have hpatch : Loaded code (pcOf base 37) (irmPatchProgram v.trampoline) :=
    Loaded.right (p := irmScanProgram v.insn) hl
  obtain ⟨f, hf⟩ : ∃ f, irmFirstModuleFound v.insn s.mem (s.gpr 0#5) = f := ⟨_, rfl⟩
  refine (irm_firstModule_run hscan hpc himg hf).trans ?_
  rintro t ⟨htpc, htf, htmem, htsame⟩
  rw [irmFirstModuleMem, hf]
  -- Without both places the program goes to its end.
  cases hboth : f.both with
  | false =>
      rw [if_neg (by simp [hboth])] at htpc
      rw [irmPatch_of_not_both hboth]
      exact .refl ⟨htpc, htmem, htsame⟩
  | true =>
      rw [if_pos hboth] at htpc
      refine (irmPatch_run hlen hpatch htpc hboth (htf hboth).1 (htf hboth).2).mono ?_
      rintro u ⟨hupc, humem, husame⟩
      rw [pcOf_add] at hupc
      exact ⟨hupc, by rw [humem, htmem], htsame.trans husame⟩

end KernelErrataPatcher
