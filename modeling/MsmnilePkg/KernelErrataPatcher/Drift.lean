/-
  MsmnilePkg.KernelErrataPatcher.Drift

  How far the embedded ACTLR_EL1 and AMCNTENSET0_EL0 bytes have drifted from
  the assembly they are to be built from.

  The assembly is the reference loop on the first module.  The embedded bytes
  are that only on images whose words they compare exactly: `mrs x8` for the
  reads, `msr` from x8 and x9 for the writes.
-/

import MsmnilePkg.KernelErrataPatcher.ActlrAmcnt
import MsmnilePkg.KernelErrataPatcher.BlockRun

namespace KernelErrataPatcher

open ByteMem A64 WordScan

/-- Executed from `s`, the code comes to where it ends and leaves the memory `m`. -/
def Leaves (code : Code) (s : State) (m : Mem) : Prop :=
  ∃ n t, stepN code n s = some t ∧ code t.pc = none ∧ t.mem = m

theorem Leaves.unique {code : Code} {s : State} {m m' : Mem} (h : Leaves code s m)
    (h' : Leaves code s m') : m = m' := by
  obtain ⟨n, t, hn, ht, rfl⟩ := h
  obtain ⟨n', t', hn', ht', rfl⟩ := h'
  have hstuck : ∀ u : State, code u.pc = none → A64.step code u = none := by
    intro u hu
    rw [A64.step, hu]
    rfl
  rw [stepN_unique hn hn' (hstuck t ht) (hstuck t' ht')]

/-- The code an assembly text stands for. -/
def sourceCode (text : List (Line SourceLabel)) (base : Addr) : Code :=
  match assemble text with
  | some prog => progAt base prog
  | none => fun _ => none

/-- An embedded block, its assembly and its reference loop on the first module leave one
    and the same memory. -/
def BlockAgrees (block : List Byte) (text : List (Line SourceLabel)) (body : Mem → Addr → Mem)
    (base : Addr) (s : State) : Prop :=
  ∃ m, Leaves (codeAt base (wordsOf block)) s m ∧ Leaves (sourceCode text base) s m ∧
    patchFirstModule body s.mem (s.gpr 0#5) = some m

/-- The words on which the embedded ACTLR_EL1 block does what its source does. -/
def ActlrEl1Exact (w : BitVec 32) : Prop :=
  (w &&& 0xD5381020#32 = 0xD5381020#32 → w = 0xD5381028#32) ∧
  (w &&& 0xD5181020#32 = 0xD5181020#32 → w &&& 0xD5381020#32 ≠ 0xD5381020#32 →
    w = 0xD5181028#32 ∨ w = 0xD5181029#32)

/-- The words on which the embedded AMCNTENSET0_EL0 block does what its source does. -/
def Amcntenset0El0Exact (w : BitVec 32) : Prop :=
  w &&& 0xD53BD2A0#32 = 0xD53BD2A0#32 → w = 0xD53BD2A8#32

theorem actlrEl1EmbeddedWord_eq_iff (w : BitVec 32) :
    actlrEl1EmbeddedWord w = actlrEl1Word w ↔ ActlrEl1Exact w := by
  unfold actlrEl1EmbeddedWord actlrEl1Word ActlrEl1Exact
  by_cases hmrs : w &&& 0xD5381020#32 = 0xD5381020#32
  · rw [if_pos hmrs]
    have hne : w ≠ (w &&& ~~~0xD5381020#32) ||| 0xD2800000#32 := movz_ne hmrs (by decide)
    -- the source rewrites the word, the embedded bytes only this one
    by_cases hw : w = 0xD5381028#32
    · simp [hw]
    · have hmsr : ¬ (w = 0xD5181028#32 ∨ w = 0xD5181029#32) := by
        rintro (rfl | rfl)
        · revert hmrs; decide
        · revert hmrs; decide
      rw [if_neg hw, if_neg hmsr]
      exact ⟨fun h => absurd h hne, fun h => absurd (h.1 hmrs) hw⟩
  · have hw : w ≠ 0xD5381028#32 := by
      rintro rfl
      revert hmrs
      decide
    rw [if_neg hmrs, if_neg hw]
    by_cases hmsr : w &&& 0xD5181020#32 = 0xD5181020#32
    · have hnop : w ≠ 0xD503201F#32 := by
        rintro rfl
        revert hmsr
        decide
      rw [if_pos hmsr]
      by_cases hset : w = 0xD5181028#32 ∨ w = 0xD5181029#32
      · simp [hset, hmrs]
      · simp [hset, hmrs, hmsr, hnop]
    · have hset : ¬ (w = 0xD5181028#32 ∨ w = 0xD5181029#32) := by
        rintro (rfl | rfl)
        · revert hmsr; decide
        · revert hmsr; decide
      simp [hmsr, hset, hmrs]

theorem amcntenset0El0EmbeddedWord_eq_iff (w : BitVec 32) :
    amcntenset0El0EmbeddedWord w = amcntenset0El0Word w ↔ Amcntenset0El0Exact w := by
  unfold amcntenset0El0EmbeddedWord amcntenset0El0Word Amcntenset0El0Exact
  by_cases hmrs : w &&& 0xD53BD2A0#32 = 0xD53BD2A0#32
  · have hne : w ≠ (w &&& ~~~0xD53BD2A0#32) ||| 0xD2800000#32 := movz_ne hmrs (by decide)
    rw [if_pos hmrs]
    by_cases hw : w = 0xD53BD2A8#32
    · simp [hw]
    · rw [if_neg hw]
      exact ⟨fun h => absurd h hne, fun h => absurd (h hmrs) hw⟩
  · have hw : w ≠ 0xD53BD2A8#32 := by
      rintro rfl
      revert hmrs
      decide
    simp [hmrs, hw]

section Agreement

variable {base : Addr} {s : State}

/-- A scan block, loaded alone, leaves the memory of its body on the first module. -/
theorem ScanBlock.leaves {b : ScanBlock} (hb : b.Layout)
    (hp : b.Pieces (progAt base b.prog) base) (hlen : 4 * b.prog.length < 2 ^ 64)
    (hpc : s.pc = base) (himg : FirstImageOk s.mem (s.gpr 0#5)) :
    Leaves (progAt base b.prog) s (firstModuleMem b.body s.mem (s.gpr 0#5)) := by
  have hl : Loaded (progAt base b.prog) base b.prog := loaded_progAt (by omega)
  obtain ⟨n, t, hn, htpc, htmem, -⟩ := b.run hb hp hl (hpc.trans (pcOf_zero base).symm) himg
  exact ⟨n, t, hn, by rw [htpc, progAt_end hlen], htmem⟩

/-- Word patches of the first image agree exactly when they agree on its words. -/
theorem firstModuleMem_eq_iff (g g' : BitVec 32 → BitVec 32)
    (hne : firstEntry s.mem (s.gpr 0#5) ≠ loadOrderListHead (s.gpr 0#5)) :
    firstModuleMem (patchWord g) s.mem (s.gpr 0#5)
        = firstModuleMem (patchWord g') s.mem (s.gpr 0#5) ↔
      ∀ k < wordCount (sizeOfImage s.mem (firstEntry s.mem (s.gpr 0#5))),
        g (read32 s.mem (wordAddr (dllBase s.mem (firstEntry s.mem (s.gpr 0#5))) k))
          = g' (read32 s.mem (wordAddr (dllBase s.mem (firstEntry s.mem (s.gpr 0#5))) k)) := by
  have hn : 4 * wordCount (sizeOfImage s.mem (firstEntry s.mem (s.gpr 0#5))) ≤ 2 ^ 64 := by
    have := (sizeOfImage s.mem (firstEntry s.mem (s.gpr 0#5))).isLt
    unfold wordCount
    omega
  unfold firstModuleMem
  rw [if_neg hne, if_neg hne, scan_patch_eq_iff g g' _ s.mem hn]

/-- The property of the words `P` holds for every word of the first image. -/
def EveryWord (P : BitVec 32 → Prop) (m : Mem) (loaderBlock : Addr) : Prop :=
  ∀ k < wordCount (sizeOfImage m (firstEntry m loaderBlock)),
    P (read32 m (wordAddr (dllBase m (firstEntry m loaderBlock)) k))

theorem blockAgrees_iff {block : List Byte} {text : List (Line SourceLabel)} (b b' : ScanBlock)
    {g g' : BitVec 32 → BitVec 32} {P : BitVec 32 → Prop}
    (hdec : (wordsOf block).map decode = b.prog.map some) (hasm : assemble text = some b'.prog)
    (hleaves : Leaves (progAt base b.prog) s (firstModuleMem b.body s.mem (s.gpr 0#5)))
    (hleaves' : Leaves (progAt base b'.prog) s (firstModuleMem b'.body s.mem (s.gpr 0#5)))
    (hg : b.body = patchWord g) (hg' : b'.body = patchWord g') (hP : ∀ w, g w = g' w ↔ P w)
    (hne : firstEntry s.mem (s.gpr 0#5) ≠ loadOrderListHead (s.gpr 0#5))
    (himg : FirstImageOk s.mem (s.gpr 0#5)) :
    BlockAgrees block text b'.body base s ↔ EveryWord P s.mem (s.gpr 0#5) := by
  have hcode : codeAt base (wordsOf block) = progAt base b.prog := codeAt_eq_progAt hdec base
  have hsource : sourceCode text base = progAt base b'.prog := by rw [sourceCode, hasm]
  have hwords := firstModuleMem_eq_iff (s := s) g g' hne
  unfold BlockAgrees EveryWord
  rw [hcode, hsource, patchFirstModule_eq himg]
  constructor
  · -- both leave one memory, so they make the same of each word
    rintro ⟨m, hm, hm', -⟩ k hk
    have hmem : firstModuleMem (patchWord g) s.mem (s.gpr 0#5)
        = firstModuleMem (patchWord g') s.mem (s.gpr 0#5) := by
      rw [← hg, ← hg', hleaves.unique hm, hleaves'.unique hm']
    exact (hP _).mp (hwords.mp hmem k hk)
  · intro h
    have hmem := hwords.mpr fun k hk => (hP _).mpr (h k hk)
    rw [← hg, ← hg'] at hmem
    exact ⟨_, hmem ▸ hleaves, hleaves', rfl⟩

theorem actlrEl1_agrees_iff (hpc : s.pc = base)
    (hne : firstEntry s.mem (s.gpr 0#5) ≠ loadOrderListHead (s.gpr 0#5))
    (himg : FirstImageOk s.mem (s.gpr 0#5)) :
    BlockAgrees actlrEl1Block actlrEl1Source actlrEl1Body base s ↔
      EveryWord ActlrEl1Exact s.mem (s.gpr 0#5) := by
  have hl : Loaded (progAt base actlrEl1Program) base actlrEl1Program := loaded_progAt (by decide)
  have hl' : Loaded (progAt base actlrEl1SourceProgram) base actlrEl1SourceProgram :=
    loaded_progAt (by decide)
  rw [actlrEl1Body_eq]
  exact blockAgrees_iff actlrEl1ScanBlock actlrEl1SourceScanBlock
    actlrEl1Block_decode actlrEl1Source_assemble
    (actlrEl1ScanBlock.leaves actlrEl1ScanBlock_layout ⟨actlrEl1_consts hl, actlrEl1_body hl⟩
      (by decide) hpc himg)
    (actlrEl1SourceScanBlock.leaves actlrEl1SourceScanBlock_layout
      ⟨actlrEl1Source_consts hl', actlrEl1Source_body hl'⟩ (by decide) hpc himg)
    rfl rfl actlrEl1EmbeddedWord_eq_iff hne himg

theorem amcntenset0El0_agrees_iff (hpc : s.pc = base)
    (hne : firstEntry s.mem (s.gpr 0#5) ≠ loadOrderListHead (s.gpr 0#5))
    (himg : FirstImageOk s.mem (s.gpr 0#5)) :
    BlockAgrees amcntenset0El0Block amcntenset0El0Source amcntenset0El0Body base s ↔
      EveryWord Amcntenset0El0Exact s.mem (s.gpr 0#5) := by
  have hl : Loaded (progAt base amcntenset0El0Program) base amcntenset0El0Program :=
    loaded_progAt (by decide)
  have hl' : Loaded (progAt base amcntenset0El0SourceProgram) base amcntenset0El0SourceProgram :=
    loaded_progAt (by decide)
  rw [amcntenset0El0Body_eq]
  exact blockAgrees_iff amcntenset0El0ScanBlock amcntenset0El0SourceScanBlock
    amcntenset0El0Block_decode amcntenset0El0Source_assemble
    (amcntenset0El0ScanBlock.leaves amcntenset0El0ScanBlock_layout
      ⟨amcntenset0El0_consts hl, amcntenset0El0_body hl⟩ (by decide) hpc himg)
    (amcntenset0El0SourceScanBlock.leaves amcntenset0El0SourceScanBlock_layout
      ⟨amcntenset0El0Source_consts hl', amcntenset0El0Source_body hl'⟩ (by decide) hpc himg)
    rfl rfl amcntenset0El0EmbeddedWord_eq_iff hne himg

end Agreement

/-- The embedded blocks leave the memory of their sources exactly when every word of the
    first image that a source would patch is one the embedded bytes compare with. -/
theorem embedded_blocks_agree_iff (base : Addr) (s : State) (hpc : s.pc = base)
    (hne : firstEntry s.mem (s.gpr 0#5) ≠ loadOrderListHead (s.gpr 0#5))
    (himg : FirstImageOk s.mem (s.gpr 0#5)) :
    (BlockAgrees actlrEl1Block actlrEl1Source actlrEl1Body base s ∧
      BlockAgrees amcntenset0El0Block amcntenset0El0Source amcntenset0El0Body base s) ↔
    EveryWord (fun w => ActlrEl1Exact w ∧ Amcntenset0El0Exact w) s.mem (s.gpr 0#5) := by
  rw [actlrEl1_agrees_iff hpc hne himg, amcntenset0El0_agrees_iff hpc hne himg]
  constructor
  · rintro ⟨hactlr, hamcnt⟩ k hk
    exact ⟨hactlr k hk, hamcnt k hk⟩
  · intro h
    exact ⟨fun k hk => (h k hk).1, fun k hk => (h k hk).2⟩

/-- An image with `mrs x8, actlr_el1` only. -/
theorem embedded_blocks_agree_sample :
    (BlockAgrees actlrEl1Block actlrEl1Source actlrEl1Body 0x8000#64 (sampleState [0xD5381028]) ∧
      BlockAgrees amcntenset0El0Block amcntenset0El0Source amcntenset0El0Body 0x8000#64
        (sampleState [0xD5381028])) ↔
    EveryWord (fun w => ActlrEl1Exact w ∧ Amcntenset0El0Exact w) (sampleMem [0xD5381028])
      0x1000#64 :=
  embedded_blocks_agree_iff 0x8000#64 (sampleState [0xD5381028]) rfl (by decide +kernel)
    fun _ => ⟨by decide +kernel, by decide +kernel, by decide +kernel⟩

/-- On `mrs x0, actlr_el1` and `mrs x0, amcntenset0_el0` both embedded blocks differ from
    their sources. -/
theorem embedded_blocks_disagree_on_x0 :
    firstEntry (sampleMem [0xD5381020, 0xD53BD2A0]) 0x1000#64 ≠ loadOrderListHead 0x1000#64 ∧
    FirstImageOk (sampleMem [0xD5381020, 0xD53BD2A0]) 0x1000#64 ∧
    ¬ BlockAgrees actlrEl1Block actlrEl1Source actlrEl1Body 0x8000#64
      (sampleState [0xD5381020, 0xD53BD2A0]) ∧
    ¬ BlockAgrees amcntenset0El0Block amcntenset0El0Source amcntenset0El0Body 0x8000#64
      (sampleState [0xD5381020, 0xD53BD2A0]) := by
  have hne : firstEntry (sampleMem [0xD5381020, 0xD53BD2A0]) 0x1000#64
      ≠ loadOrderListHead 0x1000#64 := by decide +kernel
  have himg : FirstImageOk (sampleMem [0xD5381020, 0xD53BD2A0]) 0x1000#64 :=
    fun _ => ⟨by decide +kernel, by decide +kernel, by decide +kernel⟩
  refine ⟨hne, himg, ?_, ?_⟩
  · intro h
    have hword := (actlrEl1_agrees_iff (s := sampleState [0xD5381020, 0xD53BD2A0]) rfl hne
      himg).mp h 0 (by decide +kernel)
    exact absurd (hword.1 (by decide +kernel)) (by decide +kernel)
  · intro h
    have hword := (amcntenset0El0_agrees_iff (s := sampleState [0xD5381020, 0xD53BD2A0]) rfl hne
      himg).mp h 1 (by decide +kernel)
    exact absurd (hword (by decide +kernel)) (by decide +kernel)

end KernelErrataPatcher
