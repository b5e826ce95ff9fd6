/-
  MsmnilePkg.KernelErrataPatcher.IrmPair

  The IRM block and then the IRM_X8 block.

  Each block plants a branch at the instruction it selects and a trampoline
  before the marker it selects.  With one marker in the image both select it,
  and the second trampoline replaces the first one while the branch of the
  first block still leads there.
-/

import MsmnilePkg.KernelErrataPatcher.BlockRun
import MsmnilePkg.KernelErrataPatcher.IrmSelect
import MsmnilePkg.KernelErrataPatcher.Trampoline

namespace KernelErrataPatcher

open ByteMem A64 WordScan

/-- The loader's fields lie outside the first image and the 168 bytes before it, where a
    trampoline can come to lie. -/
structure LoaderApart (m : Mem) (loaderBlock : Addr) : Prop where
  head_apart : Apart (dllBase m (firstEntry m loaderBlock) - 168#64)
    (168 + (sizeOfImage m (firstEntry m loaderBlock)).toNat) (loadOrderListHead loaderBlock) 8
  dllBase_apart : Apart (dllBase m (firstEntry m loaderBlock) - 168#64)
    (168 + (sizeOfImage m (firstEntry m loaderBlock)).toNat) (firstEntry m loaderBlock + 48#64) 8
  sizeOfImage_apart : Apart (dllBase m (firstEntry m loaderBlock) - 168#64)
    (168 + (sizeOfImage m (firstEntry m loaderBlock)).toNat)
    (firstEntry m loaderBlock + 64#64) 4

/-! ## One block -/

section OneBlock

variable {v : IrmVariant} {m : Mem} {loaderBlock site marker : Addr}

theorem irmFirstModuleMem_of_selects (hlen : v.trampoline.length = 11)
    (hinsn : v.insn ≠ 0x00090003#32) (himg : FirstImageOk m loaderBlock)
    (h : IrmSelects v.insn m loaderBlock site marker) :
    irmFirstModuleMem v m loaderBlock = planted v m site marker := by
  obtain ⟨hboth, hfound⟩ := (irmSelects_iff hinsn himg).mp h
  rw [irmFirstModuleMem, irmPatch_eq hlen hboth, hfound]
  rfl

theorem irmFirstModuleMem_of_none (hinsn : v.insn ≠ 0x00090003#32)
    (himg : FirstImageOk m loaderBlock)
    (h : ∀ site marker, ¬ IrmSelects v.insn m loaderBlock site marker) :
    irmFirstModuleMem v m loaderBlock = m := by
  have hboth : (irmFirstModuleFound v.insn m loaderBlock).both = false := by
    by_contra hb
    rw [Bool.not_eq_false] at hb
    exact h _ _ ((irmSelects_iff hinsn himg).mpr ⟨hb, rfl⟩)
  rw [irmFirstModuleMem, irmPatch, if_neg (by simp [hboth])]

/-- A selected instruction and a selected marker are words of the image. -/
theorem IrmSelects.offsets (h : IrmSelects v.insn m loaderBlock site marker) :
    ∃ i j, 4 * i + 4 ≤ (sizeOfImage m (firstEntry m loaderBlock)).toNat ∧
      4 * j + 4 ≤ (sizeOfImage m (firstEntry m loaderBlock)).toNat ∧
      site = wordAddr (dllBase m (firstEntry m loaderBlock)) i ∧
      marker = wordAddr (dllBase m (firstEntry m loaderBlock)) j := by
  obtain ⟨-, i, hi, j, hj, -, hsite, hmarker⟩ := h
  unfold wordCount at hi hj
  exact ⟨i, j, by omega, by omega, hsite, hmarker⟩

theorem IrmSelects.read_site (h : IrmSelects v.insn m loaderBlock site marker) :
    read32 m site = v.insn := by
  obtain ⟨-, i, -, j, -, hsel, rfl, -⟩ := h
  rcases hsel with ⟨hP, -⟩ | ⟨-, hP, -⟩
  · exact hP.2
  · exact hP.2

/-- What a patch stores lies in the image or in the 168 bytes before it. -/
theorem planted_outside (hv : v.Distinct) (h : IrmSelects v.insn m loaderBlock site marker)
    {b : Addr} (hb : 168 + (sizeOfImage m (firstEntry m loaderBlock)).toNat
      ≤ (b - (dllBase m (firstEntry m loaderBlock) - 168#64)).toNat) :
    planted v m site marker b = m b := by
  obtain ⟨i, j, hi, hj, rfl, rfl⟩ := h.offsets
  have hcode : codeLocation (wordAddr (dllBase m (firstEntry m loaderBlock)) j)
      = wordAddr (dllBase m (firstEntry m loaderBlock) - 168#64) j := by
    unfold codeLocation arm64TotalInstructionLength wordAddr
    bv_omega
  rw [planted, hcode, writeWords_of_outside, write32_of_outside]
  · unfold wordAddr
    bv_omega
  · rw [hv.length]
    unfold wordAddr
    bv_omega

/-- After a patch the loader's fields are as they were. -/
theorem planted_fields (hloader : LoaderApart m loaderBlock) (hv : v.Distinct)
    (h : IrmSelects v.insn m loaderBlock site marker) :
    firstEntry (planted v m site marker) loaderBlock = firstEntry m loaderBlock ∧
      dllBase (planted v m site marker) (firstEntry m loaderBlock)
        = dllBase m (firstEntry m loaderBlock) ∧
      sizeOfImage (planted v m site marker) (firstEntry m loaderBlock)
        = sizeOfImage m (firstEntry m loaderBlock) := by
  refine ⟨?_, ?_, ?_⟩
  · exact read64_congr fun i hi => planted_outside hv h (hloader.head_apart.outside hi)
  · exact read64_congr fun i hi => planted_outside hv h (hloader.dllBase_apart.outside hi)
  · exact congrArg (BitVec.setWidth 64)
      (read32_congr fun i hi => planted_outside hv h (hloader.sizeOfImage_apart.outside hi))

/-- A word that is no branch and not in the trampoline is there after a patch where it was
    there before and is not covered. -/
theorem read32_planted_eq_iff (hv : v.Distinct) {a : Addr} {w : BitVec 32}
    (ha : (a - codeLocation marker).toNat % 4 = 0) (hsite : (a - site).toNat % 4 = 0)
    (hbl : isBl w = false) (hw : w ∉ trampolineWords v) (hne : read32 m site ≠ w) :
    read32 (planted v m site marker) a = w ↔ read32 m a = w ∧ ClearOf a marker := by
  -- Words clear of the trampoline are kept, but for the one at the site.
  by_cases hclear : ClearOf a marker
  · rw [planted_word hv ha hsite hclear]
    by_cases heq : a = site
    · rw [if_pos heq]
      constructor
      · intro h
        -- At the site there is a branch now.
        have htrue := isBl_of_blTarget
          (blTarget_bl site (arm64BranchLocationInstruction_opcode site (codeLocation marker)))
        rw [h, hbl] at htrue
        cases htrue
      · rintro ⟨h, -⟩
        exact absurd (heq ▸ h) hne
    · rw [if_neg heq]
      exact (and_iff_left hclear).symm
  · constructor
    · intro h
      -- A word of the trampoline is none of the words searched for.
      have hin : (a - codeLocation marker).toNat < 4 * (trampolineWords v).length := by
        rw [hv.length]
        unfold ClearOf at hclear
        omega
      obtain ⟨w', hw', hread⟩ := (planted_holds m site marker hv).get ha hin
      exact absurd (h.symm.trans hread ▸ hw') hw
    · rintro ⟨-, h⟩
      exact absurd h hclear

end OneBlock

/-! ## What the second block selects -/

section Second

variable {m : Mem} {loaderBlock site marker : Addr}

/-- The trampoline of the IRM block, if it plants one, does not cover the word at `a`. -/
def Uncovered (m : Mem) (loaderBlock a : Addr) : Prop :=
  ∀ site marker, IrmSelects irmX10.insn m loaderBlock site marker → ClearOf a marker

/-- The IRM_X8 block selects as the IRM block does, among the words that the trampoline of
    that block has not covered. -/
def IrmX8Selects (m : Mem) (loaderBlock site marker : Addr) : Prop :=
  firstEntry m loaderBlock ≠ loadOrderListHead loaderBlock ∧
  ∃ i < wordCount (sizeOfImage m (firstEntry m loaderBlock)),
  ∃ j < wordCount (sizeOfImage m (firstEntry m loaderBlock)),
    CompletedFirst
      (fun k => InsnAt irmX8.insn m (dllBase m (firstEntry m loaderBlock)) k ∧
        Uncovered m loaderBlock (wordAddr (dllBase m (firstEntry m loaderBlock)) k))
      (fun k => MarkerAt m (dllBase m (firstEntry m loaderBlock)) k ∧
        Uncovered m loaderBlock (wordAddr (dllBase m (firstEntry m loaderBlock)) k) ∧
        Uncovered m loaderBlock (wordAddr (dllBase m (firstEntry m loaderBlock)) k + 4#64))
      i j ∧
    site = wordAddr (dllBase m (firstEntry m loaderBlock)) i ∧
    marker = wordAddr (dllBase m (firstEntry m loaderBlock)) j

theorem uncovered_iff (h : IrmSelects irmX10.insn m loaderBlock site marker) (a : Addr) :
    Uncovered m loaderBlock a ↔ ClearOf a marker := by
  constructor
  · intro hun
    exact hun site marker h
  · intro hclear site' marker' h'
    rw [← (h.unique h').2]
    exact hclear

theorem uncovered_of_none (h : ∀ site marker, ¬ IrmSelects irmX10.insn m loaderBlock site marker)
    (a : Addr) : Uncovered m loaderBlock a :=
  fun site marker hsel => absurd hsel (h site marker)

theorem irmX8Insn_apart : isBl irmX8.insn = false ∧ irmX8.insn ∉ trampolineWords irmX10 ∧
    irmX10.insn ≠ irmX8.insn := by
  decide +kernel

theorem marker_apart : isBl 0x00090003#32 = false ∧ 0x00090003#32 ∉ trampolineWords irmX10 ∧
    irmX10.insn ≠ 0x00090003#32 ∧ isBl 0x00090016#32 = false ∧
    0x00090016#32 ∉ trampolineWords irmX10 ∧ irmX10.insn ≠ 0x00090016#32 := by
  decide +kernel

/-- The memory between the two blocks has the instructions for `x8` and the markers that the
    trampoline has left. -/
theorem planted_matches (h : IrmSelects irmX10.insn m loaderBlock site marker) (k : Nat) :
    (InsnAt irmX8.insn (planted irmX10 m site marker) (dllBase m (firstEntry m loaderBlock)) k ↔
      InsnAt irmX8.insn m (dllBase m (firstEntry m loaderBlock)) k ∧
        Uncovered m loaderBlock (wordAddr (dllBase m (firstEntry m loaderBlock)) k)) ∧
    (MarkerAt (planted irmX10 m site marker) (dllBase m (firstEntry m loaderBlock)) k ↔
      MarkerAt m (dllBase m (firstEntry m loaderBlock)) k ∧
        Uncovered m loaderBlock (wordAddr (dllBase m (firstEntry m loaderBlock)) k) ∧
        Uncovered m loaderBlock (wordAddr (dllBase m (firstEntry m loaderBlock)) k + 4#64)) := by
  obtain ⟨i, j, hi, hj, hsite, hmarker⟩ := h.offsets
  obtain ⟨hbl, hword, hne⟩ := irmX8Insn_apart
  obtain ⟨hbl3, hword3, hne3, hbl16, hword16, hne16⟩ := marker_apart
  have hread := h.read_site
  -- Everything lies a multiple of four apart, so that a word is covered whole or not at all.
  have hcode : (wordAddr (dllBase m (firstEntry m loaderBlock)) k
      - codeLocation marker).toNat % 4 = 0 := by
    rw [hmarker]
    unfold codeLocation arm64TotalInstructionLength wordAddr
    bv_omega
  have hcode' : (wordAddr (dllBase m (firstEntry m loaderBlock)) k + 4#64
      - codeLocation marker).toNat % 4 = 0 := by bv_omega
  have hdist : (wordAddr (dllBase m (firstEntry m loaderBlock)) k - site).toNat % 4 = 0 := by
    rw [hsite]
    unfold wordAddr
    bv_omega
  have hdist' :
      (wordAddr (dllBase m (firstEntry m loaderBlock)) k + 4#64 - site).toNat % 4 = 0 := by
    bv_omega
  have hlo : irmMarker.setWidth 32 = 0x00090003#32 := by decide
  have hhi : (irmMarker >>> 32).setWidth 32 = 0x00090016#32 := by decide
  rw [uncovered_iff h, uncovered_iff h]
  constructor
  · rw [InsnAt, InsnAt, read32_planted_eq_iff irmX10_distinct hcode hdist hbl hword
      (by rw [hread]; exact hne), and_assoc]
  · -- The marker is two words.
    rw [MarkerAt, MarkerAt, read64_eq_iff, read64_eq_iff, hlo, hhi,
      read32_planted_eq_iff irmX10_distinct hcode hdist hbl3 hword3 (by rw [hread]; exact hne3),
      read32_planted_eq_iff irmX10_distinct hcode' hdist' hbl16 hword16
        (by rw [hread]; exact hne16)]
    constructor
    · rintro ⟨hz, ⟨hw, hc⟩, hw', hc'⟩
      exact ⟨⟨hz, hw, hw'⟩, hc, hc'⟩
    · rintro ⟨⟨hz, hw, hw'⟩, hc, hc'⟩
      exact ⟨hz, ⟨hw, hc⟩, hw', hc'⟩

theorem irmX8Selects_of_none (h : ∀ site marker, ¬ IrmSelects irmX10.insn m loaderBlock site marker)
    (site' marker' : Addr) :
    IrmSelects irmX8.insn m loaderBlock site' marker' ↔
      IrmX8Selects m loaderBlock site' marker' := by
  simp only [IrmSelects, IrmX8Selects, SelectsAt, uncovered_of_none h, and_true]

theorem irmX8Selects_of_planted (hloader : LoaderApart m loaderBlock)
    (h : IrmSelects irmX10.insn m loaderBlock site marker) (site' marker' : Addr) :
    IrmSelects irmX8.insn (planted irmX10 m site marker) loaderBlock site' marker' ↔
      IrmX8Selects m loaderBlock site' marker' := by
  obtain ⟨hfirst, hbase, hsize⟩ := planted_fields hloader irmX10_distinct h
  have hinsn : InsnAt irmX8.insn (planted irmX10 m site marker)
      (dllBase m (firstEntry m loaderBlock)) = _ := funext fun k => propext (planted_matches h k).1
  have hmark : MarkerAt (planted irmX10 m site marker)
      (dllBase m (firstEntry m loaderBlock)) = _ := funext fun k => propext (planted_matches h k).2
  simp only [IrmSelects, IrmX8Selects, SelectsAt, hfirst, hbase, hsize, hinsn, hmark]

end Second

/-! ## Both blocks -/

/-- Every instruction that was replaced, by the first block in `m` or by the second one in
    `m1`, branches in `m2` to the trampoline for its source register. -/
structure SitesReach (m m1 m2 : Mem) (loaderBlock : Addr) : Prop where
  x10 : ∀ site marker, IrmSelects irmX10.insn m loaderBlock site marker →
    ReachesTrampoline irmX10 m2 site marker
  x8 : ∀ site marker, IrmSelects irmX8.insn m1 loaderBlock site marker →
    ReachesTrampoline irmX8 m2 site marker

/-- Every site is in reach of its trampoline and not covered by it, and with two of them the
    second trampoline covers neither the first one nor its site. -/
structure SitesApart (m : Mem) (loaderBlock : Addr) : Prop where
  x10 : ∀ site marker, IrmSelects irmX10.insn m loaderBlock site marker →
    InBranchRange site (codeLocation marker) ∧ ClearOf site marker
  x8 : ∀ site marker, IrmX8Selects m loaderBlock site marker →
    InBranchRange site (codeLocation marker) ∧ ClearOf site marker
  both : ∀ site marker site' marker', IrmSelects irmX10.insn m loaderBlock site marker →
    IrmX8Selects m loaderBlock site' marker' →
      Apart (codeLocation marker) 92 (codeLocation marker') 92 ∧ ClearOf site marker'

section Pair

variable {m : Mem} {loaderBlock site marker : Addr}

theorem irm_insn_ne_marker : irmX10.insn ≠ 0x00090003#32 ∧ irmX8.insn ≠ 0x00090003#32 := by
  decide

theorem irm_trampolines_ne : trampolineWords irmX10 ≠ trampolineWords irmX8 := by
  decide +kernel

/-- The places of a selected pair are whole words apart. -/
theorem IrmSelects.aligned {insn : BitVec 32} (h : IrmSelects insn m loaderBlock site marker) :
    (site - codeLocation marker).toNat % 4 = 0 := by
  obtain ⟨-, i, -, j, -, -, rfl, rfl⟩ := h
  unfold codeLocation arm64TotalInstructionLength wordAddr
  bv_omega

/-- What the second block does for its own site. -/
theorem second_reaches_iff {m1 : Mem} (hfirst : FirstImageOk m1 loaderBlock)
    (h : IrmSelects irmX8.insn m1 loaderBlock site marker) :
    ReachesTrampoline irmX8 (irmFirstModuleMem irmX8 m1 loaderBlock) site marker ↔
      InBranchRange site (codeLocation marker) ∧ ClearOf site marker := by
  rw [irmFirstModuleMem_of_selects rfl irm_insn_ne_marker.2 hfirst h]
  exact reaches_planted_iff irmX8_distinct h.aligned

/-- What both blocks do for the site of the first one. -/
theorem first_reaches_iff (hloader : LoaderApart m loaderBlock)
    (hsel : IrmSelects irmX10.insn m loaderBlock site marker)
    (hfirst : FirstImageOk (planted irmX10 m site marker) loaderBlock) :
    ReachesTrampoline irmX10
        (irmFirstModuleMem irmX8 (planted irmX10 m site marker) loaderBlock) site marker ↔
      (InBranchRange site (codeLocation marker) ∧ ClearOf site marker) ∧
        ∀ site' marker', IrmX8Selects m loaderBlock site' marker' →
          Apart (codeLocation marker) 92 (codeLocation marker') 92 ∧ ClearOf site marker' := by
  by_cases hsecond : ∃ site' marker', IrmX8Selects m loaderBlock site' marker'
  · -- The second block has planted a trampoline of its own.
    obtain ⟨site', marker', hsel'⟩ := hsecond
    have hplanted := (irmX8Selects_of_planted hloader hsel site' marker').mpr hsel'
    obtain ⟨hfe, hbase, hsize⟩ := planted_fields hloader irmX10_distinct hsel
    obtain ⟨i, j, -, -, hsite, hmarker⟩ := hsel.offsets
    obtain ⟨-, i', -, j', -, -, hsite', hmarker'⟩ := id hsel'
    obtain ⟨hbl, hword, -⟩ := irmX8Insn_apart
    have hsites : (site - site').toNat % 4 = 0 := by
      rw [hsite, hsite']
      unfold wordAddr
      bv_omega
    have hmarkers : (codeLocation marker' - codeLocation marker).toNat % 4 = 0 := by
      rw [hmarker, hmarker']
      unfold codeLocation arm64TotalInstructionLength wordAddr
      bv_omega
    rw [irmFirstModuleMem_of_selects rfl irm_insn_ne_marker.2 hfirst hplanted,
      reaches_planted_planted_iff irmX10_distinct irmX8_distinct irm_trampolines_ne hbl hword
        hsel.aligned hsites hmarkers hplanted.read_site]
    refine and_congr_right fun _ => ⟨fun h site'' marker'' hsel'' => ?_, fun h => ?_⟩
    · obtain ⟨-, rfl⟩ := hplanted.unique
        ((irmX8Selects_of_planted hloader hsel site'' marker'').mpr hsel'')
      exact h
    · exact h site' marker' hsel'
  · -- The second block leaves the memory as it is.
    have hnone : ∀ site' marker', ¬ IrmX8Selects m loaderBlock site' marker' :=
      fun site' marker' h => hsecond ⟨site', marker', h⟩
    rw [irmFirstModuleMem_of_none irm_insn_ne_marker.2 hfirst fun site' marker' h =>
        hnone site' marker' ((irmX8Selects_of_planted hloader hsel site' marker').mp h),
      reaches_planted_iff irmX10_distinct hsel.aligned]
    exact (and_iff_left fun site' marker' h => absurd h (hnone site' marker')).symm

/-- After both patches the sites reach their trampolines exactly when they are apart. -/
theorem sitesReach_iff (himg : FirstImageOk m loaderBlock) (hloader : LoaderApart m loaderBlock)
    {m1 : Mem} (hm1 : m1 = irmFirstModuleMem irmX10 m loaderBlock)
    (hfirst : FirstImageOk m1 loaderBlock) :
    SitesReach m m1 (irmFirstModuleMem irmX8 m1 loaderBlock) loaderBlock ↔
      SitesApart m loaderBlock := by
  by_cases hsome : ∃ site marker, IrmSelects irmX10.insn m loaderBlock site marker
  · -- The first block has patched, so that the second one scans what is planted.
    obtain ⟨site, marker, hsel⟩ := hsome
    rw [irmFirstModuleMem_of_selects rfl irm_insn_ne_marker.1 himg hsel] at hm1
    subst hm1
    have hsecond := irmX8Selects_of_planted hloader hsel
    constructor
    · rintro ⟨hx10, hx8⟩
      have hreach := (first_reaches_iff hloader hsel hfirst).mp (hx10 site marker hsel)
      refine ⟨?_, ?_, ?_⟩
      · intro site' marker' hsel'
        obtain ⟨rfl, rfl⟩ := hsel.unique hsel'
        exact hreach.1
      · intro site' marker' hsel'
        have hsel1 := (hsecond site' marker').mpr hsel'
        exact (second_reaches_iff hfirst hsel1).mp (hx8 site' marker' hsel1)
      · intro site1 marker1 site' marker' hsel1 hsel'
        obtain ⟨rfl, rfl⟩ := hsel.unique hsel1
        exact hreach.2 site' marker' hsel'
    · rintro ⟨hx10, hx8, hboth⟩
      refine ⟨?_, ?_⟩
      · intro site1 marker1 hsel1
        obtain ⟨rfl, rfl⟩ := hsel.unique hsel1
        rw [first_reaches_iff hloader hsel hfirst]
        exact ⟨hx10 site marker hsel, fun site' marker' hsel' =>
          hboth site marker site' marker' hsel hsel'⟩
      · intro site' marker' hsel1
        rw [second_reaches_iff hfirst hsel1]
        exact hx8 site' marker' ((hsecond site' marker').mp hsel1)
  · -- The first block has found nothing, and the second one scans the image as it was.
    have hnone : ∀ site marker, ¬ IrmSelects irmX10.insn m loaderBlock site marker :=
      fun site marker h => hsome ⟨site, marker, h⟩
    rw [irmFirstModuleMem_of_none irm_insn_ne_marker.1 himg hnone] at hm1
    subst hm1
    have hsecond := irmX8Selects_of_none hnone
    constructor
    · rintro ⟨-, hx8⟩
      refine ⟨fun site marker h => absurd h (hnone site marker), ?_,
        fun site marker _ _ h => absurd h (hnone site marker)⟩
      intro site' marker' hsel'
      have hsel1 := (hsecond site' marker').mpr hsel'
      exact (second_reaches_iff hfirst hsel1).mp (hx8 site' marker' hsel1)
    · rintro ⟨-, hx8, -⟩
      refine ⟨fun site marker h => absurd h (hnone site marker), ?_⟩
      intro site' marker' hsel1
      rw [second_reaches_iff hfirst hsel1]
      exact hx8 site' marker' ((hsecond site' marker').mp hsel1)

/-- The IRM block leaves the first image where it is. -/
theorem firstImageOk_between (himg : FirstImageOk m loaderBlock)
    (hloader : LoaderApart m loaderBlock) :
    FirstImageOk (irmFirstModuleMem irmX10 m loaderBlock) loaderBlock := by
  by_cases hsome : ∃ site marker, IrmSelects irmX10.insn m loaderBlock site marker
  · obtain ⟨site, marker, hsel⟩ := hsome
    obtain ⟨hfe, hbase, hsize⟩ := planted_fields hloader irmX10_distinct hsel
    rw [irmFirstModuleMem_of_selects rfl irm_insn_ne_marker.1 himg hsel]
    unfold FirstImageOk
    rw [hfe, hbase, hsize]
    exact himg
  · rw [irmFirstModuleMem_of_none irm_insn_ne_marker.1 himg fun site marker h =>
      hsome ⟨site, marker, h⟩]
    exact himg

end Pair

/-- The two blocks, one behind the other, leave what the two patches leave. -/
theorem irm_blocks_run {base : Addr} {s : State} (hpc : s.pc = base)
    (himg : FirstImageOk s.mem (s.gpr 0#5)) (hloader : LoaderApart s.mem (s.gpr 0#5)) :
    ∃ n1 t1 n2 t2, BlockRun irmBlock base s n1 t1 ∧
      BlockRun irmX8Block (base + BitVec.ofNat 64 irmBlock.length) t1 n2 t2 ∧
      t1.mem = irmFirstModuleMem irmX10 s.mem (s.gpr 0#5) ∧
      t2.mem = irmFirstModuleMem irmX8 t1.mem (s.gpr 0#5) := by
  obtain ⟨n1, t1, hrun1, hmem1⟩ := irm_block_run (v := irmX10) rfl irmBlock_decode
    (by decide +kernel) hpc himg
  rw [irmPatchFirstModule_eq himg, Option.some.injEq] at hmem1
  have himg1 : FirstImageOk t1.mem (t1.gpr 0#5) := by
    rw [hrun1.x0, ← hmem1]
    exact firstImageOk_between himg hloader
  obtain ⟨n2, t2, hrun2, hmem2⟩ := irm_block_run (v := irmX8) rfl irmX8Block_decode
    (by decide +kernel) hrun1.falls_through himg1
  rw [irmPatchFirstModule_eq himg1, Option.some.injEq, hrun1.x0] at hmem2
  exact ⟨n1, t1, n2, t2, hrun1, hrun2, hmem1.symm, hmem2.symm⟩

/-- The IRM block and then the IRM_X8 block: every replaced instruction branches to the
    trampoline for its source register exactly when the sites and the trampolines are
    apart. -/
theorem irm_blocks_sites_iff (base : Addr) (s : State) (hpc : s.pc = base)
    (himg : FirstImageOk s.mem (s.gpr 0#5)) (hloader : LoaderApart s.mem (s.gpr 0#5)) :
    ∃ n1 t1 n2 t2, BlockRun irmBlock base s n1 t1 ∧
      BlockRun irmX8Block (base + BitVec.ofNat 64 irmBlock.length) t1 n2 t2 ∧
      (SitesReach s.mem t1.mem t2.mem (s.gpr 0#5) ↔ SitesApart s.mem (s.gpr 0#5)) := by
  obtain ⟨n1, t1, n2, t2, hrun1, hrun2, hmem1, hmem2⟩ := irm_blocks_run hpc himg hloader
  have himg1 : FirstImageOk t1.mem (s.gpr 0#5) := by
    rw [hmem1]
    exact firstImageOk_between himg hloader
  refine ⟨n1, t1, n2, t2, hrun1, hrun2, ?_⟩
  rw [hmem2]
  exact sitesReach_iff himg hloader hmem1 himg1

/-! ## One marker for both -/

/-- An image with both instructions and a marker. -/
def bothSites : List (BitVec 32) := [0xD518CBAA, 0xD518CBA8, 0x00090003, 0x00090016]

theorem bothSites_image : FirstImageOk (sampleMem bothSites) 0x1000#64 :=
  fun _ => ⟨by decide +kernel, by decide +kernel, by decide +kernel⟩

theorem bothSites_loader : LoaderApart (sampleMem bothSites) 0x1000#64 :=
  ⟨by decide +kernel, by decide +kernel, by decide +kernel⟩

theorem irm_blocks_sites_sample :
    ∃ n1 t1 n2 t2, BlockRun irmBlock 0x8000#64 (sampleState bothSites) n1 t1 ∧
      BlockRun irmX8Block (0x8000#64 + BitVec.ofNat 64 irmBlock.length) t1 n2 t2 ∧
      (SitesReach (sampleMem bothSites) t1.mem t2.mem 0x1000#64 ↔
        SitesApart (sampleMem bothSites) 0x1000#64) :=
  irm_blocks_sites_iff 0x8000#64 (sampleState bothSites) rfl bothSites_image bothSites_loader

/-- The two patches share the marker, so the branch at `0x3000` leads into the trampoline
    for `x8`. -/
theorem irm_blocks_share_marker :
    ∃ n1 t1 n2 t2, BlockRun irmBlock 0x8000#64 (sampleState bothSites) n1 t1 ∧
      BlockRun irmX8Block (0x8000#64 + BitVec.ofNat 64 irmBlock.length) t1 n2 t2 ∧
      ¬ SitesReach (sampleMem bothSites) t1.mem t2.mem 0x1000#64 := by
  obtain ⟨n1, t1, n2, t2, hrun1, hrun2, hmem1, hmem2⟩ :=
    irm_blocks_run (s := sampleState bothSites) (show _ = 0x8000#64 from rfl) bothSites_image
      bothSites_loader
  have hmem1 : t1.mem = irmFirstModuleMem irmX10 (sampleMem bothSites) 0x1000#64 := hmem1
  have hmem2 : t2.mem = irmFirstModuleMem irmX8 t1.mem 0x1000#64 := hmem2
  have himg1 : FirstImageOk t1.mem 0x1000#64 := by
    rw [hmem1]
    exact firstImageOk_between bothSites_image bothSites_loader
  have hfirst : IrmSelects irmX10.insn (sampleMem bothSites) 0x1000#64 0x3000#64 0x3008#64 :=
    (irmSelects_iff irm_insn_ne_marker.1 bothSites_image).mpr
      ⟨by decide +kernel, by decide +kernel⟩
  have hplanted : t1.mem = planted irmX10 (sampleMem bothSites) 0x3000#64 0x3008#64 := by
    rw [hmem1]
    exact irmFirstModuleMem_of_selects rfl irm_insn_ne_marker.1 bothSites_image hfirst
  -- The first block leaves the marker, and the second one finds it again.
  have hsecond : IrmSelects irmX8.insn (planted irmX10 (sampleMem bothSites) 0x3000#64 0x3008#64)
      0x1000#64 0x3004#64 0x3008#64 :=
    (irmSelects_iff irm_insn_ne_marker.2 (hplanted ▸ himg1)).mpr
      ⟨by decide +kernel, by decide +kernel⟩
  refine ⟨n1, t1, n2, t2, hrun1, hrun2, fun hreach => ?_⟩
  rw [hmem2] at hreach
  have hapart := (sitesReach_iff bothSites_image bothSites_loader hmem1 himg1).mp hreach
  have hshared := (hapart.both _ _ _ _ hfirst
    ((irmX8Selects_of_planted bothSites_loader hfirst _ _).mp hsecond)).1
  revert hshared
  decide

end KernelErrataPatcher
