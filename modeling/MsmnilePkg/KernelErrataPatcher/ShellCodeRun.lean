/-
  MsmnilePkg.KernelErrataPatcher.ShellCodeRun

  The whole shell code: its blocks, one behind the other.

  A block falls through to its end, with the first image patched and the
  registers of the transfer as they were.  The next block begins there; that
  it finds the loader block in order again is because no block writes outside
  the image and the 168 bytes before it, where an IRM block puts its code.
-/

import MsmnilePkg.KernelErrataPatcher.ActlrAmcnt
import MsmnilePkg.KernelErrataPatcher.BlockRun
import MsmnilePkg.KernelErrataPatcher.IrmSearch
import MsmnilePkg.KernelErrataPatcher.ReferenceAccess

namespace KernelErrataPatcher

open ByteMem A64 WordScan

/-! ## The loader block -/

/-- The image, and the code of an IRM patch before it. -/
def InPatchedRange (base : Addr) (size : BitVec 64) (a : Addr) : Prop :=
  (a - codeLocation base).toNat < 168 + size.toNat

theorem inPatchedRange_of_inImage {base a : Addr} {size : BitVec 64} (hsize : size.toNat < 2 ^ 32)
    (h : InImage base size a) : InPatchedRange base size a := by
  unfold InImage at h
  unfold InPatchedRange codeLocation arm64TotalInstructionLength
  bv_omega

theorem sizeOfImage_lt (m : Mem) (entry : Addr) : (sizeOfImage m entry).toNat < 2 ^ 32 := by
  rw [sizeOfImage, BitVec.toNat_setWidth, Nat.mod_eq_of_lt]
  · exact (read32 m (entry + 64#64)).isLt
  · exact Nat.lt_of_lt_of_le (read32 m (entry + 64#64)).isLt (by decide)

/-- The bytes that the way to the first image goes through are not bytes a block may write. -/
structure FieldsApart (base : Addr) (size : BitVec 64) (loaderBlock entry : Addr) : Prop where
  head : ∀ i < 8, ¬ InPatchedRange base size (loadOrderListHead loaderBlock + BitVec.ofNat 64 i)
  dllBase : ∀ i < 8, ¬ InPatchedRange base size (entry + 48#64 + BitVec.ofNat 64 i)
  sizeOfImage : ∀ i < 4, ¬ InPatchedRange base size (entry + 64#64 + BitVec.ofNat 64 i)

/-- A loader block whose list is empty or begins with a proper image. -/
structure LoaderBlockOk (m : Mem) (loaderBlock : Addr) : Prop where
  image : FirstImageOk m loaderBlock
  fields : firstEntry m loaderBlock ≠ loadOrderListHead loaderBlock →
    FieldsApart (dllBase m (firstEntry m loaderBlock)) (sizeOfImage m (firstEntry m loaderBlock))
      loaderBlock (firstEntry m loaderBlock)

/-- What a block makes of the memory and the loader block. -/
abbrev Patch := Mem → Addr → Mem

namespace Patch

/-- One patch after the other. -/
def andThen (f g : Patch) : Patch := fun m loaderBlock => g (f m loaderBlock) loaderBlock

/-- A patch of the builds that have the erratum. -/
def when (b : Bool) (f : Patch) : Patch := fun m loaderBlock => if b then f m loaderBlock else m

/-- The patch writes only bytes of the first image and the code before it. -/
def StaysInFirstImage (f : Patch) : Prop :=
  ∀ m loaderBlock, FirstImageOk m loaderBlock → ∀ b,
    (firstEntry m loaderBlock ≠ loadOrderListHead loaderBlock →
      ¬ InPatchedRange (dllBase m (firstEntry m loaderBlock))
        (sizeOfImage m (firstEntry m loaderBlock)) b) →
    f m loaderBlock b = m b

end Patch

/-- Behind a patch of the first image the loader block is in order again. -/
theorem LoaderBlockOk.patched {f : Patch} (hf : f.StaysInFirstImage) {m : Mem} {loaderBlock : Addr}
    (h : LoaderBlockOk m loaderBlock) : LoaderBlockOk (f m loaderBlock) loaderBlock := by
  have hkeep := hf m loaderBlock h.image
  -- the links and the fields are bytes that the patch keeps
  have hentry : firstEntry (f m loaderBlock) loaderBlock = firstEntry m loaderBlock :=
    read64_congr fun i hi => hkeep _ fun hne => (h.fields hne).head i hi
  have hbase : firstEntry m loaderBlock ≠ loadOrderListHead loaderBlock →
      dllBase (f m loaderBlock) (firstEntry m loaderBlock)
        = dllBase m (firstEntry m loaderBlock) := fun hne =>
    read64_congr fun i hi => hkeep _ fun _ => (h.fields hne).dllBase i hi
  have hsize : firstEntry m loaderBlock ≠ loadOrderListHead loaderBlock →
      sizeOfImage (f m loaderBlock) (firstEntry m loaderBlock)
        = sizeOfImage m (firstEntry m loaderBlock) := fun hne =>
    congrArg (BitVec.setWidth 64)
      (read32_congr fun i hi => hkeep _ fun _ => (h.fields hne).sizeOfImage i hi)
  constructor
  · intro hne
    rw [hentry] at hne ⊢
    rw [hbase hne, hsize hne]
    exact h.image hne
  · intro hne
    rw [hentry] at hne ⊢
    rw [hbase hne, hsize hne]
    exact h.fields hne

/-! ## The bytes a block writes -/

theorem staysInFirstImage_word (g : BitVec 32 → BitVec 32) :
    Patch.StaysInFirstImage (firstModuleMem (patchWord g)) := by
  intro m loaderBlock himg b hb
  rw [firstModuleMem]
  by_cases hempty : firstEntry m loaderBlock = loadOrderListHead loaderBlock
  · rw [if_pos hempty]
  · rw [if_neg hempty]
    exact scan_patched_byte (himg hempty) g m fun hin =>
      hb hempty (inPatchedRange_of_inImage (sizeOfImage_lt ..) hin)

/-- The body writes within the 32 bytes before the word at the cursor. -/
theorem psciMemprotectBody_of_outside {m : Mem} {current b : Addr}
    (h : 32 ≤ (b - (current - 32#64)).toNat) : psciMemprotectBody m current b = m b := by
  have h8 : 4 ≤ (b - (current - arm64TotalInstructionLength 8)).toNat := by
    unfold arm64TotalInstructionLength
    bv_omega
  have h7 : 4 ≤ (b - (current - arm64TotalInstructionLength 7)).toNat := by
    unfold arm64TotalInstructionLength
    bv_omega
  rw [psciMemprotectBody]
  split_ifs
  · exact write32_of_outside h8
  · exact write32_of_outside h7
  · rfl

theorem psci_scan_of_outside {b : Addr} : ∀ (n : Nat) (c : Addr) (m : Mem),
    32 + 4 * n ≤ (b - (c - 32#64)).toNat →
      scanUntil never psciMemprotectBody n c m b = m b := by
  intro n
  induction n with
  | zero => intro c m _; rfl
  | succ n ih =>
      intro c m hb
      have hnext : 32 + 4 * n ≤ (b - (c + 4#64 - 32#64)).toNat := by bv_omega
      rw [scanUntil_never_succ, ih _ _ hnext, psciMemprotectBody_of_outside (by omega)]

theorem staysInFirstImage_psci : Patch.StaysInFirstImage (firstModuleMem psciMemprotectBody) := by
  intro m loaderBlock _ b hb
  rw [firstModuleMem]
  by_cases hempty : firstEntry m loaderBlock = loadOrderListHead loaderBlock
  · rw [if_pos hempty]
  rw [if_neg hempty]
  have hout := hb hempty
  apply psci_scan_of_outside
  unfold InPatchedRange codeLocation arm64TotalInstructionLength at hout
  unfold wordCount
  bv_omega

/-- The two places an IRM block finds are words of the first image. -/
theorem irmFirstModuleFound_words (insn : BitVec 32) (m : Mem) (loaderBlock : Addr) :
    FoundWith (fun a => firstEntry m loaderBlock ≠ loadOrderListHead loaderBlock ∧
      ∃ k < wordCount (sizeOfImage m (firstEntry m loaderBlock)),
        a = wordAddr (dllBase m (firstEntry m loaderBlock)) k)
      (irmFirstModuleFound insn m loaderBlock) := by
  rw [irmFirstModuleFound]
  by_cases hempty : firstEntry m loaderBlock = loadOrderListHead loaderBlock
  · rw [if_pos hempty]
    exact ⟨fun h => absurd rfl h, fun h => absurd rfl h⟩
  · rw [if_neg hempty]
    exact scan_foundWith _ _ _ (fun k hk => ⟨hempty, k, hk, rfl⟩)
      ⟨fun h => absurd rfl h, fun h => absurd rfl h⟩

theorem staysInFirstImage_irm {v : IrmVariant} (hlen : v.trampoline.length = 11) :
    Patch.StaysInFirstImage (irmFirstModuleMem v) := by
  intro m loaderBlock _ b hb
  rw [irmFirstModuleMem]
  cases hboth : (irmFirstModuleFound v.insn m loaderBlock).both with
  | false => rw [irmPatch_of_not_both hboth]
  | true =>
      obtain ⟨hfoundInsn, hfoundMarker⟩ := irmFirstModuleFound_words v.insn m loaderBlock
      obtain ⟨hinsn, hmarker⟩ := IrmFound.both_eq_true.mp hboth
      obtain ⟨hne, k, hk, hsite⟩ := hfoundInsn hinsn
      obtain ⟨-, j, hj, hmark⟩ := hfoundMarker hmarker
      have hout := hb hne
      have hwords : (trampolineWords v).length = 23 := by
        rw [trampolineWords, List.length_append, dwordWords_length, hlen]
        rfl
      unfold InPatchedRange codeLocation arm64TotalInstructionLength at hout
      unfold wordCount at hk hj
      rw [irmPatch_eq hlen hboth, writeWords_of_outside, write32_of_outside]
      · -- the branch replaces a word of the image
        rw [hsite]
        unfold wordAddr
        bv_omega
      · -- the trampoline begins 168 bytes before the marker, which is a word of the image
        rw [hwords, hmark]
        unfold codeLocation arm64TotalInstructionLength wordAddr
        bv_omega

/-! ## Programs one behind the other -/

/-- The program, wherever it is loaded, falls through to its end and has then applied the
    patch. -/
structure Executes (prog : List Instr) (f : Patch) : Prop where
  run : ∀ {code : Code} {base : Addr} {s : State}, Loaded code base prog → s.pc = base →
    LoaderBlockOk s.mem (s.gpr 0#5) →
    Reach code (fun t => t.pc = pcOf base prog.length ∧ t.mem = f s.mem (s.gpr 0#5) ∧
      SameOn transferRegs s t) s
  keeps : ∀ {m : Mem} {loaderBlock : Addr}, LoaderBlockOk m loaderBlock →
    LoaderBlockOk (f m loaderBlock) loaderBlock

theorem Executes.nil : Executes [] (fun m _ => m) where
  run := by
    intro code base s _ hpc _
    exact .refl ⟨hpc.trans (pcOf_zero base).symm, rfl, SameOn.refl _ s⟩
  keeps := fun h => h

theorem Executes.append {p q : List Instr} {f g : Patch} (hp : Executes p f)
    (hq : Executes q g) : Executes (p ++ q) (f.andThen g) where
  run := by
    intro code base s hl hpc hok
    refine (hp.run hl.left hpc hok).trans ?_
    rintro t ⟨htpc, htmem, htsame⟩
    have hx0 : t.gpr 0#5 = s.gpr 0#5 := htsame 0#5 (by decide)
    have htok : LoaderBlockOk t.mem (t.gpr 0#5) := by
      rw [htmem, hx0]
      exact hp.keeps hok
    refine (hq.run hl.right htpc htok).mono ?_
    rintro u ⟨hupc, humem, husame⟩
    refine ⟨?_, ?_, htsame.trans husame⟩
    · rw [hupc, pcOf_add, List.length_append]
    · rw [humem, htmem, hx0]
      rfl
  keeps := fun h => hq.keeps (hp.keeps h)

theorem Executes.when {p : List Instr} {f : Patch} (b : Bool) (hp : Executes p f) :
    Executes (if b then p else []) (f.when b) := by
  cases b with
  | true => exact hp
  | false => exact .nil

theorem ScanBlock.executes {b : ScanBlock} (hb : b.Layout)
    (hp : ∀ {code : Code} {base : Addr}, Loaded code base b.prog → b.Pieces code base)
    (hkeep : Patch.StaysInFirstImage (firstModuleMem b.body)) :
    Executes b.prog (firstModuleMem b.body) where
  run := fun hl hpc hok => ScanBlock.run hb (hp hl) hl (hpc.trans (pcOf_zero _).symm) hok.image
  keeps := fun h => h.patched hkeep

theorem irm_executes {v : IrmVariant} (hlen : v.trampoline.length = 11) :
    Executes (irmProgram v) (irmFirstModuleMem v) where
  run := by
    intro code base s hl hpc hok
    rw [irmProgram_length hlen]
    exact irm_run hlen hl (hpc.trans (pcOf_zero base).symm) hok.image
  keeps := fun h => h.patched (staysInFirstImage_irm hlen)

/-! ## The shell code -/

/-- What `oslArm64TransferToKernelShellCode` decodes to. -/
def oslArm64TransferToKernelProgram (e : Errata) : List Instr :=
  (if e.actlrEl1 then actlrEl1Program else []) ++
  (if e.amcntenset0El0 then amcntenset0El0Program else []) ++
  (if e.gicV3WithoutIrm then irmProgram irmX10 ++ irmProgram irmX8 else []) ++
  (if e.psciMemprotect then psciMemprotectProgram else [])

/-- What the shell code makes of the memory. -/
def oslArm64TransferToKernelPatch (e : Errata) : Patch :=
  ((((Patch.when e.actlrEl1 (firstModuleMem (patchWord actlrEl1EmbeddedWord))).andThen
    (Patch.when e.amcntenset0El0 (firstModuleMem (patchWord amcntenset0El0EmbeddedWord)))).andThen
    (Patch.when e.gicV3WithoutIrm
      (Patch.andThen (irmFirstModuleMem irmX10) (irmFirstModuleMem irmX8)))).andThen
    (Patch.when e.psciMemprotect (firstModuleMem psciMemprotectBody)))

theorem shellCode_executes (e : Errata) :
    Executes (oslArm64TransferToKernelProgram e) (oslArm64TransferToKernelPatch e) := by
  have hactlr : Executes actlrEl1Program (firstModuleMem (patchWord actlrEl1EmbeddedWord)) :=
    ScanBlock.executes actlrEl1ScanBlock_layout
      (fun hl => ⟨actlrEl1_consts hl, actlrEl1_body hl⟩) (staysInFirstImage_word _)
  have hamcnt : Executes amcntenset0El0Program
      (firstModuleMem (patchWord amcntenset0El0EmbeddedWord)) :=
    ScanBlock.executes amcntenset0El0ScanBlock_layout
      (fun hl => ⟨amcntenset0El0_consts hl, amcntenset0El0_body hl⟩) (staysInFirstImage_word _)
  have hpsci : Executes psciMemprotectProgram (firstModuleMem psciMemprotectBody) :=
    ScanBlock.executes psciScanBlock_layout (fun hl => psciScanBlock_pieces hl)
      staysInFirstImage_psci
  have hirm : Executes (irmProgram irmX10 ++ irmProgram irmX8)
      (Patch.andThen (irmFirstModuleMem irmX10) (irmFirstModuleMem irmX8)) :=
    (irm_executes rfl).append (irm_executes rfl)
  exact (((hactlr.when _).append (hamcnt.when _)).append (hirm.when _)).append (hpsci.when _)

/-- The bytes are those of the program. -/
structure Embeds (block : List Byte) (prog : List Instr) : Prop where
  length : block.length = 4 * prog.length
  decode : (wordsOf block).map decode = prog.map some

theorem wordsOf_append {l : List Byte} (h : l.length % 4 = 0) (l' : List Byte) :
    wordsOf (l ++ l') = wordsOf l ++ wordsOf l' := by
  induction l using wordsOf.induct with
  | case1 b0 b1 b2 b3 rest ih =>
      have hrest : rest.length % 4 = 0 := by
        simp only [List.length_cons] at h
        omega
      have hwords := ih hrest
      simpa [wordsOf] using hwords
  | case2 l hshort =>
      -- a length that is a multiple of four leaves no bytes behind the last word
      match l, hshort, h with
      | [], _, _ => rfl
      | b0 :: b1 :: b2 :: b3 :: rest, hshort, _ => exact absurd rfl (hshort b0 b1 b2 b3 rest)

theorem Embeds.append {b b' : List Byte} {p p' : List Instr} (h : Embeds b p)
    (h' : Embeds b' p') : Embeds (b ++ b') (p ++ p') where
  length := by
    rw [List.length_append, List.length_append, h.length, h'.length, Nat.mul_add]
  decode := by
    have hmod : b.length % 4 = 0 := by rw [h.length, Nat.mul_mod_right]
    rw [wordsOf_append hmod, List.map_append, List.map_append, h.decode, h'.decode]

theorem Embeds.when {block : List Byte} {prog : List Instr} (b : Bool) (h : Embeds block prog) :
    Embeds (if b then block else []) (if b then prog else []) := by
  cases b with
  | true => exact h
  | false => exact ⟨rfl, rfl⟩

theorem shellCode_embeds (e : Errata) :
    Embeds (oslArm64TransferToKernelShellCode e) (oslArm64TransferToKernelProgram e) := by
  have hactlr : Embeds actlrEl1Block actlrEl1Program :=
    ⟨by decide +kernel, actlrEl1Block_decode⟩
  have hamcnt : Embeds amcntenset0El0Block amcntenset0El0Program :=
    ⟨by decide +kernel, amcntenset0El0Block_decode⟩
  have hpsci : Embeds psciMemprotectBlock psciMemprotectProgram :=
    ⟨by decide +kernel, psciMemprotectBlock_decode⟩
  have hirm : Embeds irmBlock (irmProgram irmX10) :=
    ⟨by rw [irmProgram_length rfl]; decide +kernel, irmBlock_decode⟩
  have hirm8 : Embeds irmX8Block (irmProgram irmX8) :=
    ⟨by rw [irmProgram_length rfl]; decide +kernel, irmX8Block_decode⟩
  exact (((hactlr.when _).append (hamcnt.when _)).append ((hirm.append hirm8).when _)).append
    (hpsci.when _)

/-! ## The shell code in memory -/

/-- Bytes that lie in memory are words that lie in memory. -/
theorem holdsWords_of_bytes {m : Mem} {bs : List Byte} : ∀ {a : Addr},
    (∀ i (hi : i < bs.length), m (a + BitVec.ofNat 64 i) = bs[i]) →
      HoldsWords m a (wordsOf bs) := by
  induction bs using wordsOf.induct with
  | case1 b0 b1 b2 b3 rest ih =>
      intro a h k w hk
      cases k with
      | zero =>
          have hw : word32 b0 b1 b2 b3 = w := by simpa [wordsOf] using hk
          have h0 := h 0 (by simp)
          rw [BitVec.add_zero] at h0
          rw [wordAddr_zero, ← hw, read32, h0, h 1 (by simp), h 2 (by simp), h 3 (by simp)]
          rfl
      | succ k =>
          rw [wordAddr_succ]
          -- The other words begin four bytes further on.
          refine ih (fun i hi => ?_) k w (by simpa [wordsOf] using hk)
          have hbyte := h (4 + i) (by simp only [List.length_cons]; omega)
          rw [BitVec.ofNat_add, ← BitVec.add_assoc] at hbyte
          rw [hbyte]
          simp [Nat.add_comm 4 i]
  | case2 l hshort =>
      intro a _ k w hk
      rcases l with _ | ⟨b0, _ | ⟨b1, _ | ⟨b2, _ | ⟨b3, rest⟩⟩⟩⟩
      · simp [wordsOf] at hk
      · simp [wordsOf] at hk
      · simp [wordsOf] at hk
      · simp [wordsOf] at hk
      · exact absurd rfl (hshort b0 b1 b2 b3 rest)

/-- Words that lie in memory are the code there. -/
theorem loaded_of_holdsWords {m : Mem} {a : Addr} {ws : List (BitVec 32)} {prog : List Instr}
    (h : HoldsWords m a ws) (hdec : ws.map A64.decode = prog.map some) :
    Loaded (memCode m) a prog := by
  intro k i hi
  have hk : (ws.map A64.decode)[k]? = some (some i) := by
    rw [hdec, List.getElem?_map, hi]
    rfl
  rw [List.getElem?_map, Option.map_eq_some_iff] at hk
  obtain ⟨w, hw, hdecode⟩ := hk
  have hread := h k w hw
  rw [← hdecode, ← hread]
  rfl

end KernelErrataPatcher
