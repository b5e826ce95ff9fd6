/-
  MsmnilePkg.KernelErrataPatcher.TransferCall

  The call of OslArm64TransferToKernel in winload.

  The two loops of KernelErrataPatcherExitBootServices look for it in two
  windows that overlap.  What they leave is stated word by word and byte by
  byte: the branch of the first call found goes to the copied shell code, and
  the machine that takes it passes through every block of the shell code and
  comes to the function that was called.
-/

import MsmnilePkg.KernelErrataPatcher.ExitBootServices
import MsmnilePkg.KernelErrataPatcher.ShellCodeRun
import MsmnilePkg.KernelErrataPatcher.WinloadBase

namespace KernelErrataPatcher

open ByteMem A64 WordScan Efi

/-! ## The window -/

/-- The number of words the loop over the window at `addr` comes to.  Its limit is computed in
    64 bits: a limit that wraps is below `addr`, and the loop is over at once. -/
def windowWords (addr : Addr) : Nat :=
  if addr.toNat + scanMax.toNat < 2 ^ 64 then scanMax.toNat / 4 else 0

/-- Word `k` of the window at `addr` is a `bl` to `addr`, and `movz x2, #0` follows it. -/
structure TransferCallAt (m : Mem) (addr : Addr) (k : Nat) : Prop where
  in_window : k < windowWords addr
  calls : blTarget (wordAddr addr k) (read32 m (wordAddr addr k)) = some addr
  argument : read32 m (wordAddr addr k + 4#64) = 0xD2800002#32

theorem scanMax_toNat : scanMax.toNat = 0x300000 := rfl

theorem windowWords_le (addr : Addr) : windowWords addr ≤ 0xC0000 := by
  unfold windowWords
  rw [scanMax_toNat]
  split <;> omega

/-- A branch from a word of the window to an address a little below `addr`. -/
theorem blTarget_back {addr target : Addr} {k n : Nat} (hk : k < windowWords addr)
    (htarget : target = addr - BitVec.ofNat 64 (4 * n)) (hn : n ≤ 0x10000) :
    blTarget (wordAddr addr k) (arm64BranchLocationInstruction (wordAddr addr k) target)
      = some target := by
  have hle := windowWords_le addr
  have hdist : (target - wordAddr addr k).toNat = (2 ^ 64 - 4 * (k + n)) % 2 ^ 64 := by
    rw [htarget]
    unfold wordAddr
    bv_omega
  have hint : branchDistance (wordAddr addr k) target = -(4 * (k + n : Nat) : Int) := by
    rw [branchDistance, BitVec.toInt_eq_toNat_cond, hdist]
    split <;> omega
  apply (blTarget_planted_iff (by rw [hdist]; omega)).mpr
  rw [InBranchRange, hint]
  omega

/-- The comparison of the source finds the calls. -/
theorem isTransferCall_iff {m : Mem} {addr : Addr} {k : Nat} (hk : k < windowWords addr) :
    isTransferCall m addr (wordAddr addr k) = true ↔ TransferCallAt m addr k := by
  have hself : blTarget (wordAddr addr k) (arm64BranchLocationInstruction (wordAddr addr k) addr)
      = some addr := blTarget_back (n := 0) hk (by simp) (by omega)
  rw [isTransferCall, Bool.and_eq_true, beq_iff_eq, beq_iff_eq]
  constructor
  · rintro ⟨hcall, hargument⟩
    exact ⟨hk, hcall ▸ hself, hargument⟩
  · rintro ⟨-, hcalls, hargument⟩
    exact ⟨blTarget_inj hself hcalls, hargument⟩

/-! ## One loop -/

section OneLoop

variable {e : Errata} {addr : Addr} {s : Winload}

/-- The loop comes to the words of the window. -/
theorem patchTransferCall_eq (e : Errata) (addr : Addr) (s : Winload) :
    patchTransferCall e addr s = some (scanUntil Prod.fst (transferCallBody e addr)
      (windowWords addr) addr (false, s)) := by
  have hmax := scanMax_toNat
  rw [patchTransferCall, windowWords]
  by_cases hfit : addr.toNat + scanMax.toNat < 2 ^ 64
  · rw [if_pos hfit]
    apply forWords_eq
    rw [BitVec.toNat_add, Nat.mod_eq_of_lt hfit]
    omega
  · have hlimit : (addr + scanMax).toNat ≤ addr.toNat := by
      rw [BitVec.toNat_add]
      omega
    rw [if_neg hfit, forWords_wrapped hlimit]
    rfl

theorem transferCallBody_of_not {k : Nat} (hk : k < windowWords addr)
    (h : ¬ TransferCallAt s.mem addr k) :
    transferCallBody e addr (false, s) (wordAddr addr k) = (false, s) := by
  rw [transferCallBody, if_neg (mt (isTransferCall_iff hk).mp h)]

/-- Without a call in its window the loop does nothing. -/
theorem patchTransferCall_none (h : ∀ k, ¬ TransferCallAt s.mem addr k) :
    patchTransferCall e addr s = some (false, s) := by
  rw [patchTransferCall_eq, scanUntil_none fun k hk => transferCallBody_of_not hk (h k)]

/-- The loop rewrites the first call of its window. -/
theorem patchTransferCall_first {k : Nat} (h : First (TransferCallAt s.mem addr) k) :
    patchTransferCall e addr s
      = some (true, injectShellCode e addr (wordAddr addr k) s) := by
  obtain ⟨hcall, hbefore⟩ := h
  have hk := hcall.in_window
  have hbody : transferCallBody e addr (false, s) (wordAddr addr k)
      = (true, injectShellCode e addr (wordAddr addr k) s) := by
    rw [transferCallBody, if_pos ((isTransferCall_iff hk).mpr hcall)]
  have hearlier : ∀ j < k, transferCallBody e addr (false, s) (wordAddr addr j) = (false, s) :=
    fun j hj => transferCallBody_of_not (by omega) (hbefore j hj)
  rw [patchTransferCall_eq, scanUntil_first rfl hk hearlier (by rw [hbody]), hbody]

end OneLoop

/-! ## The two loops -/

/-- The call that is rewritten, with the function it calls: the first one of the window at
    `0x480`, or without any there the first one of the window at `0x400`. -/
inductive ChosenCall (m : Mem) (winloadBase : Addr) : Addr → Addr → Prop where
  | germanium {k : Nat} :
      First (TransferCallAt m
        (transferToKernelAddr winloadBase transferToKernelOffsetGermanium)) k →
      ChosenCall m winloadBase (transferToKernelAddr winloadBase transferToKernelOffsetGermanium)
        (wordAddr (transferToKernelAddr winloadBase transferToKernelOffsetGermanium) k)
  | older {k : Nat} :
      (∀ j, ¬ TransferCallAt m
        (transferToKernelAddr winloadBase transferToKernelOffsetGermanium) j) →
      First (TransferCallAt m (transferToKernelAddr winloadBase transferToKernelOffset)) k →
      ChosenCall m winloadBase (transferToKernelAddr winloadBase transferToKernelOffset)
        (wordAddr (transferToKernelAddr winloadBase transferToKernelOffset) k)

/-- Neither window has a call. -/
def NoTransferCall (m : Mem) (winloadBase : Addr) : Prop :=
  ∀ k, ¬ TransferCallAt m (transferToKernelAddr winloadBase transferToKernelOffsetGermanium) k ∧
    ¬ TransferCallAt m (transferToKernelAddr winloadBase transferToKernelOffset) k

theorem patchTransferCalls_none {e : Errata} {wb : Addr} {s : Winload}
    (h : NoTransferCall s.mem wb) : patchTransferCalls e wb s = some s := by
  rw [patchTransferCalls, patchTransferCall_none fun k => (h k).1, Option.bind_some,
    if_neg Bool.false_ne_true, patchTransferCall_none fun k => (h k).2]
  rfl

theorem patchTransferCalls_chosen {e : Errata} {wb addr site : Addr} {s : Winload}
    (h : ChosenCall s.mem wb addr site) :
    patchTransferCalls e wb s = some (injectShellCode e addr site s) := by
  cases h with
  | germanium hfirst =>
      rw [patchTransferCalls, patchTransferCall_first hfirst, Option.bind_some, if_pos rfl]
  | older hnone hfirst =>
      rw [patchTransferCalls, patchTransferCall_none hnone, Option.bind_some,
        if_neg Bool.false_ne_true, patchTransferCall_first hfirst]
      rfl

theorem noTransferCall_or_chosen (m : Mem) (wb : Addr) :
    NoTransferCall m wb ∨ ∃ addr site, ChosenCall m wb addr site := by
  by_cases hnew : ∃ k, TransferCallAt m (transferToKernelAddr wb transferToKernelOffsetGermanium) k
  · obtain ⟨k, hk⟩ := hnew
    obtain ⟨j, hj⟩ := exists_first hk
    exact .inr ⟨_, _, .germanium hj⟩
  have hnone := not_exists.mp hnew
  by_cases hold : ∃ k, TransferCallAt m (transferToKernelAddr wb transferToKernelOffset) k
  · obtain ⟨k, hk⟩ := hold
    obtain ⟨j, hj⟩ := exists_first hk
    exact .inr ⟨_, _, .older hnone hj⟩
  · exact .inl fun k => ⟨hnone k, not_exists.mp hold k⟩

/-! ## The rewritten call -/

theorem shellCode_length (e : Errata) : (oslArm64TransferToKernelShellCode e).length
    = (if e.actlrEl1 then 144 else 0) + (if e.amcntenset0El0 then 112 else 0) +
      (if e.gicV3WithoutIrm then 832 else 0) + (if e.psciMemprotect then 208 else 0) := by
  have hactlr : actlrEl1Block.length = 144 := by decide +kernel
  have hamcnt : amcntenset0El0Block.length = 112 := by decide +kernel
  have hirm : (irmBlock ++ irmX8Block).length = 832 := by decide +kernel
  have hpsci : psciMemprotectBlock.length = 208 := by decide +kernel
  rw [oslArm64TransferToKernelShellCode, List.length_append, List.length_append,
    List.length_append, apply_ite List.length, apply_ite List.length, apply_ite List.length,
    apply_ite List.length, hactlr, hamcnt, hirm, hpsci]
  rfl

theorem shellCode_length_le (e : Errata) :
    (oslArm64TransferToKernelShellCode e).length ≤ 1296 := by
  rw [shellCode_length]
  split_ifs <;> omega

/-- The call at `site` goes through the shell code to the function at `addr`. -/
structure RetargetedCall (e : Errata) (m m' : Mem) (addr site : Addr) : Prop where
  ends_before : newTransferToKernelAddr e addr
    + BitVec.ofNat 64 (oslArm64TransferToKernelShellCode e).length = addr
  shell : ∀ i (hi : i < (oslArm64TransferToKernelShellCode e).length),
    m' (newTransferToKernelAddr e addr + BitVec.ofNat 64 i)
      = (oslArm64TransferToKernelShellCode e)[i]
  branch : blTarget site (read32 m' site) = some (newTransferToKernelAddr e addr)
  frame : ∀ b, 4 ≤ (b - site).toNat →
    (oslArm64TransferToKernelShellCode e).length ≤ (b - newTransferToKernelAddr e addr).toNat →
    m' b = m b
  passes : ∀ t : State, t.pc = site → LoaderBlockOk t.mem (t.gpr 0#5) →
    Reach (memCode m') (fun u => u.pc = addr ∧
      u.mem = oslArm64TransferToKernelPatch e t.mem (t.gpr 0#5) ∧
      u.gpr 30#5 = site + 4#64 ∧ SameOn [0#5, 1#5, 31#5] t u) t

/-- The machine that takes the branch to the shell code passes through it. -/
theorem shellCode_passes {e : Errata} {m : Mem} {addr site : Addr}
    (hend : newTransferToKernelAddr e addr
      + BitVec.ofNat 64 (oslArm64TransferToKernelShellCode e).length = addr)
    (hshell : ∀ i (hi : i < (oslArm64TransferToKernelShellCode e).length),
      m (newTransferToKernelAddr e addr + BitVec.ofNat 64 i)
        = (oslArm64TransferToKernelShellCode e)[i])
    (hbranch : blTarget site (read32 m site) = some (newTransferToKernelAddr e addr))
    {t : State} (hpc : t.pc = site) (hok : LoaderBlockOk t.mem (t.gpr 0#5)) :
    Reach (memCode m) (fun u => u.pc = addr ∧
      u.mem = oslArm64TransferToKernelPatch e t.mem (t.gpr 0#5) ∧
      u.gpr 30#5 = site + 4#64 ∧ SameOn [0#5, 1#5, 31#5] t u) t := by
  have hembeds := shellCode_embeds e
  have hloaded : Loaded (memCode m) (newTransferToKernelAddr e addr)
      (oslArm64TransferToKernelProgram e) :=
    loaded_of_holdsWords (holdsWords_of_bytes hshell) hembeds.decode
  have hrun := (shellCode_executes e).run hloaded
    (s := (t.setGpr 30#5 (site + 4#64)).setPc (newTransferToKernelAddr e addr)) rfl hok
  -- The call enters the copy of the program, which falls through to its end.
  refine .step (step_blTarget hbranch hpc) (hrun.mono ?_)
  rintro u ⟨hupc, humem, husame⟩
  refine ⟨?_, humem, ?_, ?_⟩
  · rw [hupc, pcOf, ← hembeds.length, hend]
  · exact husame 30#5 (by decide)
  · have hsame : SameOn [0#5, 1#5, 31#5] t (t.setGpr 30#5 (site + 4#64)) :=
      (SameOn.refl _ t).setGpr (by decide)
    exact hsame.trans (husame.mono (by decide))

theorem retargetedCall_of_chosen {e : Errata} {wb addr site : Addr} {s : Winload}
    (h : ChosenCall s.mem wb addr site) :
    RetargetedCall e s.mem (injectShellCode e addr site s).mem addr site := by
  obtain ⟨k, hk, hsite⟩ : ∃ k, k < windowWords addr ∧ site = wordAddr addr k := by
    cases h with
    | germanium hfirst => exact ⟨_, hfirst.1.in_window, rfl⟩
    | older _ hfirst => exact ⟨_, hfirst.1.in_window, rfl⟩
  have hlen := shellCode_length_le e
  have hmod : (oslArm64TransferToKernelShellCode e).length
      = 4 * (oslArm64TransferToKernelProgram e).length := (shellCode_embeds e).length
  have hwords := windowWords_le addr
  have hmem : (injectShellCode e addr site s).mem = copyMemory
      (write32 s.mem site (arm64BranchLocationInstruction site (newTransferToKernelAddr e addr)))
      (newTransferToKernelAddr e addr) (oslArm64TransferToKernelShellCode e) := rfl
  have hend : newTransferToKernelAddr e addr
      + BitVec.ofNat 64 (oslArm64TransferToKernelShellCode e).length = addr := by
    unfold newTransferToKernelAddr
    bv_omega
  have hshell : ∀ i (hi : i < (oslArm64TransferToKernelShellCode e).length),
      (injectShellCode e addr site s).mem (newTransferToKernelAddr e addr + BitVec.ofNat 64 i)
        = (oslArm64TransferToKernelShellCode e)[i] := by
    intro i hi
    rw [hmem, copyMemory_inside _ _ _ i hi (by omega)]
  -- The copy ends before the window begins.
  have hclear : ∀ i < 4, (oslArm64TransferToKernelShellCode e).length
      ≤ (site + BitVec.ofNat 64 i - newTransferToKernelAddr e addr).toNat := by
    intro i hi
    rw [hsite]
    unfold newTransferToKernelAddr wordAddr
    bv_omega
  -- The branch reaches back over the copy.
  have hbranch : blTarget site (read32 (injectShellCode e addr site s).mem site)
      = some (newTransferToKernelAddr e addr) := by
    rw [hmem, read32_congr fun i hi => copyMemory_of_outside _ _ _ (hclear i hi),
      read32_write32_self, hsite]
    exact blTarget_back (n := (oslArm64TransferToKernelProgram e).length) hk
      (by rw [← hmod]; rfl) (by omega)
  exact {
    ends_before := hend
    shell := hshell
    branch := hbranch
    frame := fun b hb hcopy => by
      rw [hmem, copyMemory_of_outside _ _ _ hcopy, write32_of_outside hb]
    passes := fun t hpc hok => shellCode_passes hend hshell hbranch hpc hok }

/-! ## The whole call -/

theorem fixUpWinload_some (e : Errata) (fwp : Addr) (s : Winload) :
    ∃ t, fixUpWinload e fwp s = some t ∧ t.calls = s.calls := by
  rw [fixUpWinload]
  by_cases hactlr : e.actlrEl1 = true
  · obtain ⟨r, hr, -⟩ := findPattern_actlrEl1 s.mem fwp scanMax
    rw [if_pos hactlr, Winload.applyReadActlrEl1Patches, hr, Option.map_some]
    refine ⟨_, rfl, ?_⟩
    split_ifs <;> rfl
  · rw [if_neg hactlr]
    exact ⟨s, rfl, rfl⟩

theorem unprotectWinload_state (p : Option MemoryAttributeProtocol) (base : Addr)
    (length : BitVec 64) (s : Winload) :
    (unprotectWinload p base length s).2.mem = s.mem ∧
      (unprotectWinload p base length s).2.written = s.written ∧
      (unprotectWinload p base length s).2.calls
        = s.calls ++ [.unprotectWinload base length] := by
  cases p with
  | none => exact ⟨rfl, rfl, rfl⟩
  | some p =>
      rw [unprotectWinload]
      split_ifs
      · exact ⟨rfl, rfl, rfl⟩
      · exact ⟨rfl, rfl, rfl⟩
      · exact ⟨rfl, rfl, rfl⟩

theorem reProtectWinload_state (p : Option MemoryAttributeProtocol) (base : Addr)
    (length : BitVec 64) (s : Winload) :
    (reProtectWinload p base length s).2.mem = s.mem ∧
      (reProtectWinload p base length s).2.written = s.written ∧
      (reProtectWinload p base length s).2.calls
        = s.calls ++ [.reProtectWinload base length] := by
  cases p with
  | none => exact ⟨rfl, rfl, rfl⟩
  | some p =>
      rw [reProtectWinload]
      split_ifs
      · exact ⟨rfl, rfl, rfl⟩
      · exact ⟨rfl, rfl, rfl⟩

section WholeCall

variable {e : Errata} {p : Option MemoryAttributeProtocol} {fwp wb : Addr} {size : BitVec 64}
  {s s1 s2 : Winload}

/-- A winload that cannot be made writable is left alone. -/
theorem exitBootServices_protected (hloc : locateWinloadBase s.mem fwp = some (wb, size))
    (hun : (unprotectWinload p (wb + efiPageSize) size s).1.isError = true) :
    kernelErrataPatcherExitBootServices e p fwp s
      = some (unprotectWinload p (wb + efiPageSize) size s).2 := by
  unfold kernelErrataPatcherExitBootServices
  rw [hloc, Option.bind_some]
  exact if_pos hun

/-- Otherwise the fix-up, the search for the call and the protection follow. -/
theorem exitBootServices_unprotected (hloc : locateWinloadBase s.mem fwp = some (wb, size))
    (hun : (unprotectWinload p (wb + efiPageSize) size s).1.isError = false)
    (hfix : fixUpWinload e fwp (unprotectWinload p (wb + efiPageSize) size s).2 = some s1)
    (hcalls : patchTransferCalls e wb s1 = some s2) :
    kernelErrataPatcherExitBootServices e p fwp s
      = some (reProtectWinload p (wb + efiPageSize) size s2).2 := by
  have hne : ¬ (unprotectWinload p (wb + efiPageSize) size s).1.isError = true := by
    rw [hun]
    exact Bool.false_ne_true
  unfold kernelErrataPatcherExitBootServices
  rw [hloc, Option.bind_some]
  dsimp only
  rw [if_neg hne, hfix, Option.bind_some, hcalls, Option.map_some]

/-- With winload writable, at most one call is rewritten, and the range that was unprotected
    is protected again. -/
theorem transfer_call_retargeted_once
    (hloc : locateWinloadBase s.mem fwp = some (wb, size))
    (hun : (unprotectWinload p (wb + efiPageSize) size s).1.isError = false) :
    ∃ fixed s', fixUpWinload e fwp (unprotectWinload p (wb + efiPageSize) size s).2 = some fixed ∧
      kernelErrataPatcherExitBootServices e p fwp s = some s' ∧
      s'.calls = s.calls ++ [.unprotectWinload (wb + efiPageSize) size,
        .reProtectWinload (wb + efiPageSize) size] ∧
      ((NoTransferCall fixed.mem wb ∧ s'.mem = fixed.mem ∧ s'.written = fixed.written) ∨
        ∃ addr site, ChosenCall fixed.mem wb addr site ∧
          RetargetedCall e fixed.mem s'.mem addr site ∧
          s'.written = span (newTransferToKernelAddr e addr)
            (oslArm64TransferToKernelShellCode e).length ++ (span site 4 ++ fixed.written)) := by
  obtain ⟨fixed, hfix, hfixCalls⟩ := fixUpWinload_some e fwp
    (unprotectWinload p (wb + efiPageSize) size s).2
  obtain ⟨-, -, hunCalls⟩ := unprotectWinload_state p (wb + efiPageSize) size s
  have hcallsList : fixed.calls ++ [.reProtectWinload (wb + efiPageSize) size]
      = s.calls ++ [.unprotectWinload (wb + efiPageSize) size,
        .reProtectWinload (wb + efiPageSize) size] := by
    rw [hfixCalls, hunCalls, List.append_assoc]
    rfl
  rcases noTransferCall_or_chosen fixed.mem wb with hnone | ⟨addr, site, hchosen⟩
  · -- No call in either window: nothing is copied.
    obtain ⟨hmem, hwritten, hcalls⟩ := reProtectWinload_state p (wb + efiPageSize) size fixed
    exact ⟨fixed, _, hfix,
      exitBootServices_unprotected hloc hun hfix (patchTransferCalls_none hnone),
      hcalls.trans hcallsList, .inl ⟨hnone, hmem, hwritten⟩⟩
  · obtain ⟨hmem, hwritten, hcalls⟩ := reProtectWinload_state p (wb + efiPageSize) size
      (injectShellCode e addr site fixed)
    refine ⟨fixed, _, hfix,
      exitBootServices_unprotected hloc hun hfix (patchTransferCalls_chosen hchosen),
      hcalls.trans hcallsList, .inr ⟨addr, site, hchosen, ?_, hwritten⟩⟩
    rw [hmem]
    exact retargetedCall_of_chosen hchosen

end WholeCall

/-! ## A small winload -/

/-- An image at `0x100000` with one section of `0x3000` bytes, its function at `0x480` in the
    section and a call of it `0x40` bytes behind. -/
def calledWinload (callSite : Addr) : Winload where
  mem :=
    let m := write32 (fun _ => 0#8) 0x100000#64 0x5A4D#32
    let m := write32 (write32 m 0x10003C#64 0x80#32) 0x100080#64 0x4550#32
    let m := write32 m 0x100190#64 0x3000#32
    let m := write32 m callSite (arm64BranchLocationInstruction callSite 0x101080#64)
    write32 m (callSite + 4#64) 0xD2800002#32
  winloadAttributes := 0#64
  calls := []
  written := []

/-- The errata of the Surface Duo 2. -/
def surfaceDuo2 : Errata := ⟨true, false, true, false⟩

theorem calledWinload_located :
    locateWinloadBase (calledWinload 0x1010C0#64).mem 0x101000#64
      = some (0x100000#64, 0x3000#64) := by
  have hup : pageUp 0x101000#64 = 0x101000#64 := by decide
  have hback : pageBelow 0x101000#64 1 = 0x100000#64 := by decide
  have hbefore : ∀ k < 1,
      looksLikeImage (calledWinload 0x1010C0#64).mem (pageBelow 0x101000#64 k) = false := by
    decide +kernel
  have hfound :
      looksLikeImage (calledWinload 0x1010C0#64).mem (pageBelow 0x101000#64 1) = true := by
    decide +kernel
  have hsize : firstSectionSize (calledWinload 0x1010C0#64).mem 0x100000#64 = 0x3000#64 := by
    decide +kernel
  rw [locateWinloadBase, hup, locateLoop_eq (by decide) hbefore hfound, hback, hsize]

theorem transfer_call_retargeted_once_called :
    ∃ fixed s', fixUpWinload surfaceDuo2 0x101000#64
        (unprotectWinload none (0x100000#64 + efiPageSize) 0x3000#64 (calledWinload 0x1010C0#64)).2
          = some fixed ∧
      kernelErrataPatcherExitBootServices surfaceDuo2 none 0x101000#64 (calledWinload 0x1010C0#64)
        = some s' ∧
      s'.calls = [] ++ [.unprotectWinload (0x100000#64 + efiPageSize) 0x3000#64,
        .reProtectWinload (0x100000#64 + efiPageSize) 0x3000#64] ∧
      ((NoTransferCall fixed.mem 0x100000#64 ∧ s'.mem = fixed.mem ∧ s'.written = fixed.written) ∨
        ∃ addr site, ChosenCall fixed.mem 0x100000#64 addr site ∧
          RetargetedCall surfaceDuo2 fixed.mem s'.mem addr site ∧
          s'.written = span (newTransferToKernelAddr surfaceDuo2 addr)
            (oslArm64TransferToKernelShellCode surfaceDuo2).length ++
              (span site 4 ++ fixed.written)) :=
  transfer_call_retargeted_once calledWinload_located rfl

end KernelErrataPatcher
