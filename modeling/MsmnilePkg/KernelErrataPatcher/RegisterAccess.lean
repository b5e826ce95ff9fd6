/-
  MsmnilePkg.KernelErrataPatcher.RegisterAccess

  What the two reference patches of the register accesses do to the kernel.

  A match `(insn & mask) == mask` looks at the bits that are set in an
  encoding only, so it also catches words that have more bits set.  One kind
  of them is `mrs xt, amcntenset0_el0`: it has every bit of
  `mrs x0, actlr_el1`, and the first patch makes another word of it before
  the second patch looks for it.
-/

import MsmnilePkg.Lib.A64.Instr
import MsmnilePkg.KernelErrataPatcher.ModuleWalk

namespace KernelErrataPatcher

open ByteMem A64 WordScan

/-! ## Encodings -/

/-- `mrs xt, actlr_el1` -/
def mrsActlrEl1 (t : Reg) : BitVec 32 := 0xD5381020#32 ||| t.setWidth 32

/-- `msr actlr_el1, xt` -/
def msrActlrEl1 (t : Reg) : BitVec 32 := 0xD5181020#32 ||| t.setWidth 32

/-- `mrs xt, amcntenset0_el0` -/
def mrsAmcntenset0El0 (t : Reg) : BitVec 32 := 0xD53BD2A0#32 ||| t.setWidth 32

/-- `movz xt, #0` -/
def movzZero (t : Reg) : BitVec 32 := 0xD2800000#32 ||| t.setWidth 32

/-- `nop` -/
def nopWord : BitVec 32 := 0xD503201F#32

/-- The word `w` was one of the accesses and is now what stands for it, or it was not and is
    as it was. -/
structure WordRepaired (w w' : BitVec 32) : Prop where
  changed : w' ≠ w ↔
    (∃ t, w = mrsActlrEl1 t) ∨ (∃ t, w = msrActlrEl1 t) ∨ ∃ t, w = mrsAmcntenset0El0 t
  mrs : ∀ t, w = mrsActlrEl1 t ∨ w = mrsAmcntenset0El0 t → w' = movzZero t
  msr : ∀ t, w = msrActlrEl1 t → w' = nopWord

/-- The masks of the ACTLR_EL1 patch catch the word only if it is an access to ACTLR_EL1. -/
def OnlyActlrEl1 (w : BitVec 32) : Prop :=
  (w &&& 0xD5381020#32 = 0xD5381020#32 → ∃ t, w = mrsActlrEl1 t) ∧
  (w &&& 0xD5181020#32 = 0xD5181020#32 → w &&& 0xD5381020#32 ≠ 0xD5381020#32 →
    ∃ t, w = msrActlrEl1 t)

/-! ## The two patches of a word -/

theorem actlrEl1Word_mrs : ∀ t : Reg, actlrEl1Word (mrsActlrEl1 t) = movzZero t := by decide

theorem actlrEl1Word_msr : ∀ t : Reg, actlrEl1Word (msrActlrEl1 t) = nopWord := by decide

/-- The first patch leaves `0xD283C280 | t` of an access to AMCNTENSET0_EL0. -/
theorem actlrEl1Word_amcnt : ∀ t : Reg,
    actlrEl1Word (mrsAmcntenset0El0 t) = 0xD283C280#32 ||| t.setWidth 32 := by decide

theorem mrsActlrEl1_mask : ∀ t : Reg,
    mrsActlrEl1 t &&& 0xD5381020#32 = 0xD5381020#32 := by decide

theorem mrsAmcntenset0El0_mask : ∀ t : Reg,
    mrsAmcntenset0El0 t &&& 0xD5381020#32 = 0xD5381020#32 := by decide

theorem msrActlrEl1_mask : ∀ t : Reg, msrActlrEl1 t &&& 0xD5181020#32 = 0xD5181020#32 ∧
    msrActlrEl1 t &&& 0xD5381020#32 ≠ 0xD5381020#32 := by decide

theorem amcnt_not_movz : ∀ t : Reg,
    actlrEl1Word (mrsAmcntenset0El0 t) ≠ movzZero t := by decide

theorem amcnt_not_actlr : ∀ t t' : Reg, mrsAmcntenset0El0 t ≠ mrsActlrEl1 t' := by decide

theorem actlrEl1Word_of_mrs {w : BitVec 32} (h : w &&& 0xD5381020#32 = 0xD5381020#32) :
    actlrEl1Word w = (w &&& ~~~0xD5381020#32) ||| 0xD2800000#32 := by
  rw [actlrEl1Word, if_pos h]

theorem actlrEl1Word_of_msr {w : BitVec 32} (h : w &&& 0xD5381020#32 ≠ 0xD5381020#32)
    (h' : w &&& 0xD5181020#32 = 0xD5181020#32) : actlrEl1Word w = nopWord := by
  rw [actlrEl1Word, if_neg h, if_pos h']
  rfl

theorem actlrEl1Word_of_other {w : BitVec 32} (h : w &&& 0xD5381020#32 ≠ 0xD5381020#32)
    (h' : w &&& 0xD5181020#32 ≠ 0xD5181020#32) : actlrEl1Word w = w := by
  rw [actlrEl1Word, if_neg h, if_neg h']

/-- The bit by which a mask tells that a `movz` does not match it. -/
theorem movz_no_match {w mask mask' : BitVec 32} (h26 : mask.getLsbD 26 = true)
    (h26' : mask'.getLsbD 26 = true) :
    ((w &&& ~~~mask) ||| 0xD2800000#32) &&& mask' ≠ mask' := by
  intro h
  have hbit := getLsbD_of_mask h h26'
  rw [BitVec.getLsbD_or, BitVec.getLsbD_and, BitVec.getLsbD_not, h26] at hbit
  revert hbit
  simp

/-- Neither patch matches what the first one has left. -/
theorem actlrEl1Word_no_match (w : BitVec 32) :
    actlrEl1Word w &&& 0xD5381020#32 ≠ 0xD5381020#32 ∧
      actlrEl1Word w &&& 0xD5181020#32 ≠ 0xD5181020#32 := by
  by_cases hmrs : w &&& 0xD5381020#32 = 0xD5381020#32
  · rw [actlrEl1Word_of_mrs hmrs]
    exact ⟨movz_no_match (by decide) (by decide), movz_no_match (by decide) (by decide)⟩
  · by_cases hmsr : w &&& 0xD5181020#32 = 0xD5181020#32
    · rw [actlrEl1Word_of_msr hmrs hmsr]
      decide
    · rw [actlrEl1Word_of_other hmrs hmsr]
      exact ⟨hmrs, hmsr⟩

theorem actlrEl1Word_idem (w : BitVec 32) : actlrEl1Word (actlrEl1Word w) = actlrEl1Word w :=
  actlrEl1Word_of_other (actlrEl1Word_no_match w).1 (actlrEl1Word_no_match w).2

theorem amcntenset0El0Word_idem (w : BitVec 32) :
    amcntenset0El0Word (amcntenset0El0Word w) = amcntenset0El0Word w := by
  by_cases h : w &&& 0xD53BD2A0#32 = 0xD53BD2A0#32
  · -- what is left is a `movz`, which has bit 26 clear
    have hno : amcntenset0El0Word w &&& 0xD53BD2A0#32 ≠ 0xD53BD2A0#32 := by
      rw [amcntenset0El0Word, if_pos h]
      exact movz_no_match (by decide) (by decide)
    rw [amcntenset0El0Word, if_neg hno]
  · have hfix : amcntenset0El0Word w = w := by rw [amcntenset0El0Word, if_neg h]
    rw [hfix, hfix]

/-- The second patch finds nothing after the first one. -/
theorem amcntenset0El0Word_actlrEl1Word (w : BitVec 32) :
    amcntenset0El0Word (actlrEl1Word w) = actlrEl1Word w := by
  rw [amcntenset0El0Word, if_neg]
  intro h
  refine (actlrEl1Word_no_match w).1 ?_
  have hsub : (0xD53BD2A0#32) &&& 0xD5381020#32 = 0xD5381020#32 := by decide
  calc actlrEl1Word w &&& 0xD5381020#32
      = actlrEl1Word w &&& (0xD53BD2A0#32 &&& 0xD5381020#32) := by rw [hsub]
    _ = (actlrEl1Word w &&& 0xD53BD2A0#32) &&& 0xD5381020#32 := (BitVec.and_assoc ..).symm
    _ = 0xD5381020#32 := by rw [h, hsub]

theorem nopWord_ne_of_msr {w : BitVec 32} (h : w &&& 0xD5181020#32 = 0xD5181020#32) :
    nopWord ≠ w := by
  rintro rfl
  revert h
  decide

/-- A word is repaired exactly when the masks catch no word but an access to ACTLR_EL1. -/
theorem wordRepaired_iff (w : BitVec 32) : WordRepaired w (actlrEl1Word w) ↔ OnlyActlrEl1 w := by
  constructor
  · intro h
    constructor
    · intro hmrs
      have hne : actlrEl1Word w ≠ w := by
        rw [actlrEl1Word_of_mrs hmrs]
        exact (movz_ne hmrs (by decide)).symm
      rcases h.changed.mp hne with hactlr | ⟨t, rfl⟩ | ⟨t, rfl⟩
      · exact hactlr
      · exact absurd hmrs (msrActlrEl1_mask t).2
      · -- the access to AMCNTENSET0_EL0 is caught, but not made a `movz xt, #0`
        exact absurd (h.mrs t (Or.inr rfl)) (amcnt_not_movz t)
    · intro hmsr hmrs
      have hne : actlrEl1Word w ≠ w := by
        rw [actlrEl1Word_of_msr hmrs hmsr]
        exact nopWord_ne_of_msr hmsr
      rcases h.changed.mp hne with ⟨t, rfl⟩ | hactlr | ⟨t, rfl⟩
      · exact absurd (mrsActlrEl1_mask t) hmrs
      · exact hactlr
      · exact absurd (mrsAmcntenset0El0_mask t) hmrs
  · rintro ⟨hmrs, hmsr⟩
    -- the mask catches that access too, so it cannot stand here
    have hamcnt : ∀ t, w ≠ mrsAmcntenset0El0 t := by
      rintro t rfl
      obtain ⟨t', ht'⟩ := hmrs (mrsAmcntenset0El0_mask t)
      exact amcnt_not_actlr t t' ht'
    refine ⟨⟨fun hne => ?_, ?_⟩, ?_, ?_⟩
    · by_cases hm : w &&& 0xD5381020#32 = 0xD5381020#32
      · exact Or.inl (hmrs hm)
      · by_cases hm' : w &&& 0xD5181020#32 = 0xD5181020#32
        · exact Or.inr (Or.inl (hmsr hm' hm))
        · exact absurd (actlrEl1Word_of_other hm hm') hne
    · rintro (⟨t, rfl⟩ | ⟨t, rfl⟩ | ⟨t, rfl⟩)
      · rw [actlrEl1Word_of_mrs (mrsActlrEl1_mask t)]
        exact (movz_ne (mrsActlrEl1_mask t) (by decide)).symm
      · rw [actlrEl1Word_msr]
        exact nopWord_ne_of_msr (msrActlrEl1_mask t).1
      · exact absurd rfl (hamcnt t)
    · rintro t (rfl | h)
      · exact actlrEl1Word_mrs t
      · exact absurd h (hamcnt t)
    · rintro t rfl
      exact actlrEl1Word_msr t

/-! ## All modules -/

/-- Every word of the images of `m` has been repaired in `m'`, and no other byte has
    changed. -/
def Repaired (m m' : Mem) (mods : List Addr) : Prop :=
  (∀ e ∈ mods, ∀ k < wordCount (sizeOfImage m e),
    WordRepaired (read32 m (wordAddr (dllBase m e) k)) (read32 m' (wordAddr (dllBase m e) k))) ∧
  ∀ b, ¬ InSomeImage m mods b → m' b = m b

/-- Both patches together do to every image word what the first one does. -/
theorem reference_patches_run {m : Mem} {loaderBlock : Addr} {mods : List Addr}
    (hlist : ModuleList m loaderBlock mods) {fuel : Nat} (hfuel : mods.length < fuel) :
    ∃ m1 m2, actlrEl1TransferToKernel fuel m loaderBlock = some m1 ∧
      amcntenset0El0TransferToKernel fuel m1 loaderBlock = some m2 ∧
      Patched actlrEl1Word (InSomeImage m mods) m m2 := by
  obtain ⟨m1, hm1, hlist1, hkept, hpatched⟩ := hlist.patched actlrEl1Word_idem hfuel
  obtain ⟨m2, hm2, -, -, hpatched2⟩ := hlist1.patched amcntenset0El0Word_idem hfuel
  refine ⟨m1, m2, ?_, ?_, ?_⟩
  · rw [actlrEl1TransferToKernel, actlrEl1Body_eq, hm1]
  · rw [amcntenset0El0TransferToKernel, amcntenset0El0Body_eq, hm2]
  · -- the first patch changes no bound of an image
    have hinside : ∀ a, InSomeImage m1 mods a ↔ InSomeImage m mods a := by
      intro a
      refine exists_congr fun d => and_congr_right fun hd => ?_
      rw [(hkept d hd).dllBase, (hkept d hd).sizeOfImage]
    have hpatched2' := hpatched2.congr hinside
    intro a ha
    obtain ⟨hin, hout⟩ := hpatched a ha
    obtain ⟨hin2, hout2⟩ := hpatched2' a ha
    refine ⟨fun h => ?_, fun h => by rw [hout2 h, hout h]⟩
    rw [hin2 h, hin h, amcntenset0El0Word_actlrEl1Word]

theorem repaired_iff {m m' : Mem} {loaderBlock : Addr} {mods : List Addr}
    (hlist : ModuleList m loaderBlock mods)
    (hpatched : Patched actlrEl1Word (InSomeImage m mods) m m') :
    Repaired m m' mods ↔
      ∀ e ∈ mods, ∀ k < wordCount (sizeOfImage m e),
        OnlyActlrEl1 (read32 m (wordAddr (dllBase m e) k)) := by
  have hword : ∀ e ∈ mods, ∀ k < wordCount (sizeOfImage m e),
      read32 m' (wordAddr (dllBase m e) k)
        = actlrEl1Word (read32 m (wordAddr (dllBase m e) k)) := by
    intro e he k hk
    exact (hpatched _ (wordAddr_aligned (hlist.images e he).base_aligned k)).1
      ⟨e, he, wordAddr_inImage hk⟩
  constructor
  · rintro ⟨hwords, -⟩ e he k hk
    rw [← wordRepaired_iff, ← hword e he k hk]
    exact hwords e he k hk
  · intro h
    refine ⟨fun e he k hk => ?_, fun b hb => hlist.byte hpatched hb⟩
    rw [hword e he k hk, wordRepaired_iff]
    exact h e he k hk

/-- The two reference patches repair the kernel exactly when the masks of the first one catch
    no image word but an access to ACTLR_EL1. -/
theorem reference_patches_repair_iff {m : Mem} {loaderBlock : Addr} {mods : List Addr}
    (hlist : ModuleList m loaderBlock mods) {fuel : Nat} (hfuel : mods.length < fuel) :
    ∃ m1 m2, actlrEl1TransferToKernel fuel m loaderBlock = some m1 ∧
      amcntenset0El0TransferToKernel fuel m1 loaderBlock = some m2 ∧
      (Repaired m m2 mods ↔
        ∀ e ∈ mods, ∀ k < wordCount (sizeOfImage m e),
          OnlyActlrEl1 (read32 m (wordAddr (dllBase m e) k))) := by
  obtain ⟨m1, m2, hm1, hm2, hpatched⟩ := reference_patches_run hlist hfuel
  exact ⟨m1, m2, hm1, hm2, repaired_iff hlist hpatched⟩

/-- An image with `mrs x8, actlr_el1` and `msr actlr_el1, x8`. -/
theorem reference_patches_repair_sample :
    ∃ m1 m2, actlrEl1TransferToKernel 2 (sampleMem [0xD5381028, 0xD5181028]) 0x1000#64 = some m1 ∧
      amcntenset0El0TransferToKernel 2 m1 0x1000#64 = some m2 ∧
      (Repaired (sampleMem [0xD5381028, 0xD5181028]) m2 [0x2000#64] ↔
        ∀ e ∈ [0x2000#64], ∀ k < wordCount (sizeOfImage (sampleMem [0xD5381028, 0xD5181028]) e),
          OnlyActlrEl1 (read32 (sampleMem [0xD5381028, 0xD5181028])
            (wordAddr (dllBase (sampleMem [0xD5381028, 0xD5181028]) e) k))) :=
  reference_patches_repair_iff
    (moduleList_singleton 0x3000#64 8#64 (by decide +kernel) (by decide +kernel)
      (by decide +kernel) (by decide +kernel) (by decide +kernel)
      ⟨by decide, by decide, by decide⟩ ⟨by decide +kernel, by decide +kernel, by decide +kernel⟩
      (by decide +kernel))
    (by decide)

/-- `mrs x0, amcntenset0_el0` becomes `movz x0, #0x1e14`. -/
theorem reference_patches_miss_amcntenset0 :
    ModuleList (sampleMem [0xD53BD2A0]) 0x1000#64 [0x2000#64] ∧
    ∃ m1 m2, actlrEl1TransferToKernel 2 (sampleMem [0xD53BD2A0]) 0x1000#64 = some m1 ∧
      amcntenset0El0TransferToKernel 2 m1 0x1000#64 = some m2 ∧
      ¬ Repaired (sampleMem [0xD53BD2A0]) m2 [0x2000#64] ∧
      read32 m2 0x3000#64 = 0xD283C280#32 := by
  have hbase : dllBase (sampleMem [0xD53BD2A0]) 0x2000#64 = 0x3000#64 := by decide +kernel
  have hsize : sizeOfImage (sampleMem [0xD53BD2A0]) 0x2000#64 = 4#64 := by decide +kernel
  have hword : read32 (sampleMem [0xD53BD2A0]) 0x3000#64 = mrsAmcntenset0El0 0#5 := by
    decide +kernel
  have hlist : ModuleList (sampleMem [0xD53BD2A0]) 0x1000#64 [0x2000#64] :=
    moduleList_singleton 0x3000#64 4#64 (by decide +kernel) (by decide +kernel)
      (by decide +kernel) hbase hsize ⟨by decide, by decide, by decide⟩
      ⟨by decide +kernel, by decide +kernel, by decide +kernel⟩ (by decide +kernel)
  obtain ⟨m1, m2, hm1, hm2, hpatched⟩ := reference_patches_run hlist
    (show [0x2000#64].length < 2 by decide)
  have hin : InSomeImage (sampleMem [0xD53BD2A0]) [0x2000#64] 0x3000#64 :=
    ⟨0x2000#64, List.mem_singleton.mpr rfl, by rw [hbase, hsize]; decide⟩
  have hlast := (hpatched 0x3000#64 (by decide)).1 hin
  rw [hword, actlrEl1Word_amcnt] at hlast
  refine ⟨hlist, m1, m2, hm1, hm2, ?_, hlast⟩
  intro h
  -- Repaired would mean that the word is an access to ACTLR_EL1 as well.
  have hcaught := (repaired_iff hlist hpatched).mp h 0x2000#64 (List.mem_singleton.mpr rfl) 0
    (by rw [hsize]; decide)
  rw [hbase, wordAddr_zero, hword] at hcaught
  obtain ⟨t, ht⟩ := hcaught.1 (mrsAmcntenset0El0_mask 0#5)
  exact amcnt_not_actlr 0#5 t ht

end KernelErrataPatcher
