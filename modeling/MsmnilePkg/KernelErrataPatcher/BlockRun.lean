/-
  MsmnilePkg.KernelErrataPatcher.BlockRun

  The embedded blocks, executed alone.

  A block is done when the machine has come to the first byte behind it: the
  next block, or the kernel's own first instructions, follow there.
-/

import MsmnilePkg.KernelErrataPatcher.Irm
import MsmnilePkg.KernelErrataPatcher.ModuleWalk
import MsmnilePkg.KernelErrataPatcher.Psci

namespace KernelErrataPatcher

open ByteMem A64 WordScan

/-- The machine, started in `s` at the first byte of the embedded `block`, is in `t`
    after `n` instructions: it has fallen through without meeting a `b .`, and what the
    transfer to the kernel needs is as it was. -/
structure BlockRun (block : List Byte) (base : Addr) (s : State) (n : Nat) (t : State) : Prop where
  run : stepN (codeAt base (wordsOf block)) n s = some t
  falls_through : t.pc = base + BitVec.ofNat 64 block.length
  no_self_branch : ∀ i ≤ n, ∀ u, stepN (codeAt base (wordsOf block)) i s = some u →
    codeAt base (wordsOf block) u.pc ≠ some (.b 0#64)
  x0 : t.gpr 0#5 = s.gpr 0#5
  x1 : t.gpr 1#5 = s.gpr 1#5
  x30 : t.gpr 30#5 = s.gpr 30#5
  sp : t.gpr 31#5 = s.gpr 31#5

/-- A walk through the decoded program is a run of the block. -/
theorem blockRun_of_reach {block : List Byte} {prog : List Instr} {base : Addr} {s : State}
    {Q : State → Prop} (hdec : (wordsOf block).map decode = prog.map some)
    (hlen : block.length = 4 * prog.length) (hsmall : 4 * prog.length < 2 ^ 64)
    (h : Reach (progAt base prog) (fun t => t.pc = pcOf base prog.length ∧ Q t ∧
      SameOn transferRegs s t) s) :
    ∃ n t, BlockRun block base s n t ∧ Q t := by
  obtain ⟨n, t, hn, hpc, hQ, hsame⟩ := h
  have hcode : codeAt base (wordsOf block) = progAt base prog := codeAt_eq_progAt hdec base
  have hend : progAt base prog t.pc = none := by rw [hpc, progAt_end hsmall]
  refine ⟨n, t, ?_, hQ⟩
  exact {
    run := by rw [hcode, hn]
    falls_through := by rw [hpc, hlen, pcOf]
    no_self_branch := by
      rw [hcode]
      exact stepN_avoids_self_loop hn hend
    x0 := hsame 0#5 (by decide)
    x1 := hsame 1#5 (by decide)
    x30 := hsame 30#5 (by decide)
    sp := hsame 31#5 (by decide) }

section Blocks

variable {base : Addr} {s : State}

theorem psciMemprotectBlock_run (hpc : s.pc = base) (himg : FirstImageOk s.mem (s.gpr 0#5)) :
    ∃ n t, BlockRun psciMemprotectBlock base s n t ∧
      patchFirstModule psciMemprotectBody s.mem (s.gpr 0#5) = some t.mem := by
  have hl : Loaded (progAt base psciMemprotectProgram) base psciMemprotectProgram :=
    loaded_progAt (by decide)
  have hrun := ScanBlock.run psciScanBlock_layout (psciScanBlock_pieces hl) hl
    (hpc.trans (pcOf_zero base).symm) himg
  refine blockRun_of_reach psciMemprotectBlock_decode (by decide +kernel) (by decide) (hrun.mono ?_)
  rintro t ⟨htpc, htmem, htsame⟩
  exact ⟨htpc, by rw [patchFirstModule_eq himg, htmem]; rfl, htsame⟩

theorem irmProgram_length {v : IrmVariant} (hlen : v.trampoline.length = 11) :
    (irmProgram v).length = 104 := by
  rw [irmProgram, List.length_append, irmPatchProgram, List.length_append, List.length_append,
    storeDwords_length, hlen]
  rfl

theorem irm_block_run {block : List Byte} {v : IrmVariant} (hlen : v.trampoline.length = 11)
    (hdec : (wordsOf block).map decode = (irmProgram v).map some)
    (hblock : block.length = 416) (hpc : s.pc = base) (himg : FirstImageOk s.mem (s.gpr 0#5)) :
    ∃ n t, BlockRun block base s n t ∧
      irmPatchFirstModule v s.mem (s.gpr 0#5) = some t.mem := by
  have hprog := irmProgram_length hlen
  have hl : Loaded (progAt base (irmProgram v)) base (irmProgram v) :=
    loaded_progAt (by rw [hprog]; decide)
  refine blockRun_of_reach hdec (by rw [hprog, hblock]) (by rw [hprog]; decide)
    ((irm_run hlen hl (hpc.trans (pcOf_zero base).symm) himg).mono ?_)
  rintro t ⟨htpc, htmem, htsame⟩
  exact ⟨by rw [hprog, htpc], by rw [irmPatchFirstModule_eq himg, htmem], htsame⟩

end Blocks

/-- Each of the three blocks terminates, falls through and leaves the memory of its
    reference loop. -/
theorem psci_irm_blocks_refine (base : Addr) (s : State) (hpc : s.pc = base)
    (himg : FirstImageOk s.mem (s.gpr 0#5)) :
    (∃ n t, BlockRun psciMemprotectBlock base s n t ∧
      patchFirstModule psciMemprotectBody s.mem (s.gpr 0#5) = some t.mem) ∧
    (∃ n t, BlockRun irmBlock base s n t ∧
      irmPatchFirstModule irmX10 s.mem (s.gpr 0#5) = some t.mem) ∧
    (∃ n t, BlockRun irmX8Block base s n t ∧
      irmPatchFirstModule irmX8 s.mem (s.gpr 0#5) = some t.mem) :=
  ⟨psciMemprotectBlock_run hpc himg,
    irm_block_run rfl irmBlock_decode (by decide +kernel) hpc himg,
    irm_block_run rfl irmX8Block_decode (by decide +kernel) hpc himg⟩

/-! ## A small run -/

/-- The call of the first block with a small loader block. -/
def sampleState (words : List (BitVec 32)) : State where
  gpr := fun r => if r = 0#5 then 0x1000#64 else 0#64
  pc := 0x8000#64
  flags := ⟨false, false, false, false⟩
  mem := sampleMem words
  sys := fun _ => 0#64
  sysWrites := []

/-- The image holds the instruction of the IRM block and the marker. -/
theorem psci_irm_blocks_refine_sample :
    (∃ n t, BlockRun psciMemprotectBlock 0x8000#64
      (sampleState [0xD518CBAA, 0x00090003, 0x00090016]) n t ∧
      patchFirstModule psciMemprotectBody (sampleMem [0xD518CBAA, 0x00090003, 0x00090016])
        0x1000#64 = some t.mem) ∧
    (∃ n t, BlockRun irmBlock 0x8000#64 (sampleState [0xD518CBAA, 0x00090003, 0x00090016]) n t ∧
      irmPatchFirstModule irmX10 (sampleMem [0xD518CBAA, 0x00090003, 0x00090016]) 0x1000#64
        = some t.mem) ∧
    (∃ n t, BlockRun irmX8Block 0x8000#64 (sampleState [0xD518CBAA, 0x00090003, 0x00090016]) n t ∧
      irmPatchFirstModule irmX8 (sampleMem [0xD518CBAA, 0x00090003, 0x00090016]) 0x1000#64
        = some t.mem) :=
  psci_irm_blocks_refine 0x8000#64 (sampleState [0xD518CBAA, 0x00090003, 0x00090016]) rfl
    fun _ => ⟨by decide +kernel, by decide +kernel, by decide +kernel⟩

end KernelErrataPatcher
