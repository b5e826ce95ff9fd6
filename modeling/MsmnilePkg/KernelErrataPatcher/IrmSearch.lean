/-
  MsmnilePkg.KernelErrataPatcher.IrmSearch

  The search of an IRM reference patch over the whole load-order list, and
  the branch that is planted at what it finds.

  The search only reads, so it is a fold over the images.  It takes the
  instruction and the marker wherever they are, in one image or in two.
-/

import MsmnilePkg.KernelErrataPatcher.ModuleWalk
import MsmnilePkg.KernelErrataPatcher.Trampoline

namespace KernelErrataPatcher

open ByteMem A64 WordScan

/-! ## The search as a fold -/

/-- What the scan of one image makes of what was found before it. -/
def irmScanFound (insn : BitVec 32) (m : Mem) (entry : Addr) (f : IrmFound) : IrmFound :=
  (scanUntil Prod.snd (irmBody insn m) (wordCount (sizeOfImage m entry)) (dllBase m entry)
    (f, false)).1

/-- What the scans of one image after the other find. -/
def irmScanAll (insn : BitVec 32) (m : Mem) : List Addr → IrmFound → IrmFound
  | [], f => f
  | entry :: rest, f => irmScanAll insn m rest (irmScanFound insn m entry f)

/-- What the patch of a list with the entries `mods` finds. -/
def irmFound (insn : BitVec 32) (m : Mem) (mods : List Addr) : IrmFound :=
  irmScanAll insn m mods ⟨0#64, 0#64⟩

section Walk

variable {insn : BitVec 32} {m : Mem}

theorem irmScanImage_eq {entry : Addr} (h : ImageOk (dllBase m entry) (sizeOfImage m entry))
    (f : IrmFound) :
    irmScanImage insn (m, f) (dllBase m entry) (sizeOfImage m entry)
      = some (m, irmScanFound insn m entry f) := by
  rw [irmScanImage]
  exact congrArg (Option.map _) (forWords_eq h.limit Prod.snd (irmBody insn m) (f, false))

theorem irm_walk {head entry : Addr} {mods : List Addr} (hchain : LinkChain m head entry mods) :
    ∀ (f : IrmFound) (fuel : Nat), (∀ d ∈ mods, ImageOk (dllBase m d) (sizeOfImage m d)) →
      mods.length < fuel →
      forEachModule Prod.fst (irmScanImage insn) head fuel entry (m, f)
        = some (m, irmScanAll insn m mods f) := by
  induction hchain with
  | nil =>
      intro f fuel _ hfuel
      obtain ⟨fuel, rfl⟩ : ∃ k, fuel = k + 1 := ⟨fuel - 1, by omega⟩
      rw [forEachModule, if_pos rfl]
      rfl
  | @cons entry rest hne _ ih =>
      intro f fuel himages hfuel
      obtain ⟨fuel, rfl⟩ : ∃ k, fuel = k + 1 := ⟨fuel - 1, by omega⟩
      -- The scan of this image, and from there the walk over the rest.
      have hscan : irmScanImage insn (m, f) (dllBase m entry) (sizeOfImage m entry)
          = some (m, irmScanFound insn m entry f) :=
        irmScanImage_eq (himages entry (List.mem_cons_self ..)) f
      rw [forEachModule, if_neg hne]
      show (irmScanImage insn (m, f) (dllBase m entry) (sizeOfImage m entry)).bind _ = _
      rw [hscan, Option.bind_some]
      exact ih (irmScanFound insn m entry f) fuel
        (fun d hd => himages d (List.mem_cons_of_mem _ hd)) (by simpa using hfuel)

theorem irmTransferToKernel_eq {loaderBlock : Addr} {mods : List Addr}
    (hchain : LinkChain m (loadOrderListHead loaderBlock)
      (forwardLink m (loadOrderListHead loaderBlock)) mods)
    (himages : ∀ d ∈ mods, ImageOk (dllBase m d) (sizeOfImage m d)) {fuel : Nat}
    (hfuel : mods.length < fuel) (v : IrmVariant) :
    irmTransferToKernel v fuel m loaderBlock = some (irmPatch v m (irmFound v.insn m mods)) := by
  rw [irmTransferToKernel, irm_walk hchain ⟨0#64, 0#64⟩ fuel himages hfuel]
  rfl

/-! ## What is found -/

/-- The two places, as far as they were found, are places with `P`. -/
def FoundWith (P : Addr → Prop) (f : IrmFound) : Prop :=
  (f.gicInstr ≠ 0#64 → P f.gicInstr) ∧ (f.realEstateFunc ≠ 0#64 → P f.realEstateFunc)

theorem FoundWith.match {P : Addr → Prop} {f : IrmFound} (h : FoundWith P f) {c : Addr} (hc : P c) :
    FoundWith P (irmMatch insn m f c) := by
  constructor
  · intro hne
    by_cases hinsn : read32 m c = insn
    · simpa [irmMatch, hinsn] using hc
    · simp only [irmMatch, if_neg hinsn] at hne ⊢
      exact h.1 hne
  · intro hne
    by_cases hmarker : read64 m c = irmMarker
    · simpa [irmMatch, hmarker] using hc
    · simp only [irmMatch, if_neg hmarker] at hne ⊢
      exact h.2 hne

/-- A scan finds words of its range. -/
theorem scan_foundWith {P : Addr → Prop} : ∀ (n : Nat) (c : Addr) (f : IrmFound × Bool),
    (∀ k < n, P (wordAddr c k)) → FoundWith P f.1 →
      FoundWith P (scanUntil Prod.snd (irmBody insn m) n c f).1 := by
  intro n
  induction n with
  | zero => intro c f _ h; exact h
  | succ n ih =>
      intro c f hwords h
      rw [scanUntil]
      -- both were found, and the scan is left before it reads the word
      by_cases hstop : f.2 = true
      · rw [if_pos hstop]
        exact h
      · have hfirst := hwords 0 (Nat.succ_pos n)
        rw [wordAddr_zero] at hfirst
        rw [if_neg hstop]
        refine ih _ _ (fun k hk => ?_) (h.match hfirst)
        rw [← wordAddr_succ]
        exact hwords (k + 1) (by omega)

theorem irmScanAll_foundWith {P : Addr → Prop} : ∀ (mods : List Addr) (f : IrmFound),
    (∀ d ∈ mods, ∀ k < wordCount (sizeOfImage m d), P (wordAddr (dllBase m d) k)) →
      FoundWith P f → FoundWith P (irmScanAll insn m mods f) := by
  intro mods
  induction mods with
  | nil => intro f _ h; exact h
  | cons d mods ih =>
      intro f hwords h
      refine ih _ (fun e he => hwords e (List.mem_cons_of_mem _ he)) ?_
      exact scan_foundWith _ _ (f, false) (hwords d (List.mem_cons_self ..)) h

end Walk

/-! ## The branch -/

/-- Up to 128 MB in either direction are in the range of a branch. -/
theorem blTarget_near {current target : Addr} (hcurrent : current.toNat % 4 = 0)
    (htarget : target.toNat % 4 = 0)
    (hnear : (target - current).toNat < 2 ^ 27 ∨ (current - target).toNat < 2 ^ 27) :
    blTarget current (arm64BranchLocationInstruction current target) = some target := by
  rw [blTarget_planted_iff (by bv_omega), InBranchRange, branchDistance,
    BitVec.toInt_eq_toNat_cond]
  -- forward the signed distance is the distance itself, back it is negative or zero
  rcases hnear with hforward | hback
  · rw [if_pos (by omega)]
    omega
  · by_cases hzero : (target - current).toNat = 0
    · rw [if_pos (by omega)]
      omega
    · have hsum : (target - current).toNat + (current - target).toNat = 2 ^ 64 := by bv_omega
      rw [if_neg (by omega)]
      omega

/-- In the memory that the patch leaves, the instruction found branches to the place for the
    trampoline. -/
def PlantsBranch (left : Mem) (f : IrmFound) : Prop :=
  f.both = true →
    blTarget f.gicInstr (read32 left f.gicInstr) = some (codeLocation f.realEstateFunc)

theorem plantsBranch_iff {m : Mem} {mods : List Addr}
    (himages : ∀ d ∈ mods, ImageOk (dllBase m d) (sizeOfImage m d)) :
    PlantsBranch (irmPatch irmX10 m (irmFound irmX10.insn m mods)) (irmFound irmX10.insn m mods) ↔
      ((irmFound irmX10.insn m mods).both = true →
        InBranchRange (irmFound irmX10.insn m mods).gicInstr
            (codeLocation (irmFound irmX10.insn m mods).realEstateFunc) ∧
          ClearOf (irmFound irmX10.insn m mods).gicInstr
            (irmFound irmX10.insn m mods).realEstateFunc) := by
  have haligned : FoundWith (fun a => a.toNat % 4 = 0) (irmFound irmX10.insn m mods) :=
    irmScanAll_foundWith mods ⟨0#64, 0#64⟩
      (fun d hd k _ => wordAddr_aligned (himages d hd).base_aligned k)
      ⟨fun h => absurd rfl h, fun h => absurd rfl h⟩
  refine forall_congr' fun hboth => ?_
  obtain ⟨hgic, hreal⟩ := IrmFound.both_eq_true.mp hboth
  have hgic4 : (irmFound irmX10.insn m mods).gicInstr.toNat % 4 = 0 := haligned.1 hgic
  have hreal4 : (irmFound irmX10.insn m mods).realEstateFunc.toNat % 4 = 0 := haligned.2 hreal
  rw [irmPatch_eq rfl hboth]
  refine blTarget_at_planted_iff irmX10_distinct ?_
  unfold codeLocation arm64TotalInstructionLength
  bv_omega

/-- A branch word between aligned addresses less than 128 MB apart decodes to a branch to its
    target.  In the memory that an IRM patch leaves, the instruction found is a branch to the
    place for the trampoline exactly when the distance to that place is in the range of a
    branch and the trampoline does not cover the instruction. -/
theorem branch_decodes_iff {m : Mem} {loaderBlock : Addr} {mods : List Addr}
    (hchain : LinkChain m (loadOrderListHead loaderBlock)
      (forwardLink m (loadOrderListHead loaderBlock)) mods)
    (himages : ∀ d ∈ mods, ImageOk (dllBase m d) (sizeOfImage m d)) {fuel : Nat}
    (hfuel : mods.length < fuel) :
    (∀ current target : Addr, current.toNat % 4 = 0 → target.toNat % 4 = 0 →
      (target - current).toNat < 2 ^ 27 ∨ (current - target).toNat < 2 ^ 27 →
      blTarget current (arm64BranchLocationInstruction current target) = some target) ∧
    ∃ left, irmTransferToKernel irmX10 fuel m loaderBlock = some left ∧
      (PlantsBranch left (irmFound irmX10.insn m mods) ↔
        ((irmFound irmX10.insn m mods).both = true →
          InBranchRange (irmFound irmX10.insn m mods).gicInstr
              (codeLocation (irmFound irmX10.insn m mods).realEstateFunc) ∧
            ClearOf (irmFound irmX10.insn m mods).gicInstr
              (irmFound irmX10.insn m mods).realEstateFunc)) :=
  ⟨fun _ _ => blTarget_near, _, irmTransferToKernel_eq hchain himages hfuel irmX10,
    plantsBranch_iff himages⟩

/-! ## Two modules -/

/-- A list with the entries `0x2000` and `0x2100`: the instruction is in the image of the first
    module, at `0x3000`, and the marker in that of the second one, at `marker`. -/
def twoModulesMem (marker : Addr) : Mem :=
  writeWords [0x00090003, 0x00090016] marker
    (writeWords [0xD518CBAA] 0x3000#64
      (write32 (write32
        (write64 (write64
          (write64 (write64 (write64 (fun _ => 0#8) 0x1010#64 0x2000#64) 0x2000#64 0x2100#64)
            0x2100#64 0x1010#64)
          0x2030#64 0x3000#64) 0x2130#64 marker)
        0x2040#64 4#32) 0x2140#64 8#32))

theorem twoModules_chain (marker : Addr)
    (hfirst : forwardLink (twoModulesMem marker) 0x1010#64 = 0x2000#64)
    (hnext : forwardLink (twoModulesMem marker) 0x2000#64 = 0x2100#64)
    (hlast : forwardLink (twoModulesMem marker) 0x2100#64 = 0x1010#64) :
    LinkChain (twoModulesMem marker) (loadOrderListHead 0x1000#64)
      (forwardLink (twoModulesMem marker) (loadOrderListHead 0x1000#64))
      [0x2000#64, 0x2100#64] := by
  have hhead : loadOrderListHead 0x1000#64 = 0x1010#64 := by decide
  rw [hhead, hfirst]
  refine .cons (by decide) ?_
  rw [hnext]
  refine .cons (by decide) ?_
  rw [hlast]
  exact .nil

theorem twoModules_images (marker : Addr)
    (hfirst : ImageOk (dllBase (twoModulesMem marker) 0x2000#64)
      (sizeOfImage (twoModulesMem marker) 0x2000#64))
    (hsecond : ImageOk (dllBase (twoModulesMem marker) 0x2100#64)
      (sizeOfImage (twoModulesMem marker) 0x2100#64)) :
    ∀ d ∈ [0x2000#64, 0x2100#64],
      ImageOk (dllBase (twoModulesMem marker) d) (sizeOfImage (twoModulesMem marker) d) := by
  intro d hd
  rcases List.mem_cons.mp hd with rfl | hd
  · exact hfirst
  · rw [List.mem_singleton.mp hd]
    exact hsecond

/-- The marker is 256 bytes behind the instruction: the branch goes 88 bytes ahead. -/
theorem branch_decodes_near :
    ∃ left, irmTransferToKernel irmX10 3 (twoModulesMem 0x3100#64) 0x1000#64 = some left ∧
      blTarget 0x3000#64 (read32 left 0x3000#64) = some 0x3058#64 := by
  have hfound : irmFound irmX10.insn (twoModulesMem 0x3100#64) [0x2000#64, 0x2100#64]
      = ⟨0x3000#64, 0x3100#64⟩ := by decide +kernel
  obtain ⟨-, left, hleft, hiff⟩ := branch_decodes_iff
    (twoModules_chain 0x3100#64 (by decide +kernel) (by decide +kernel) (by decide +kernel))
    (twoModules_images 0x3100#64 ⟨by decide +kernel, by decide +kernel, by decide +kernel⟩
      ⟨by decide +kernel, by decide +kernel, by decide +kernel⟩)
    (show [0x2000#64, 0x2100#64].length < 3 by decide)
  rw [hfound] at hiff
  have hplants := hiff.mpr fun _ => ⟨by
    unfold InBranchRange
    decide +kernel, by
    unfold ClearOf
    decide +kernel⟩
  exact ⟨left, hleft, hplants (by decide)⟩

/-- The marker is 256 MB behind the instruction: the branch goes to 0x2F58. -/
theorem far_marker_is_missed :
    ∃ mods : List Addr, LinkChain (twoModulesMem 0x10003000#64) (loadOrderListHead 0x1000#64)
        (forwardLink (twoModulesMem 0x10003000#64) (loadOrderListHead 0x1000#64)) mods ∧
      (∀ d ∈ mods, ImageOk (dllBase (twoModulesMem 0x10003000#64) d)
        (sizeOfImage (twoModulesMem 0x10003000#64) d)) ∧
      ∃ left, irmTransferToKernel irmX10 3 (twoModulesMem 0x10003000#64) 0x1000#64 = some left ∧
        ¬PlantsBranch left (irmFound irmX10.insn (twoModulesMem 0x10003000#64) mods) ∧
        blTarget 0x3000#64 (read32 left 0x3000#64) = some 0x2F58#64 := by
  have hchain := twoModules_chain 0x10003000#64 (by decide +kernel) (by decide +kernel)
    (by decide +kernel)
  have himages := twoModules_images 0x10003000#64
    ⟨by decide +kernel, by decide +kernel, by decide +kernel⟩
    ⟨by decide +kernel, by decide +kernel, by decide +kernel⟩
  have hfound : irmFound irmX10.insn (twoModulesMem 0x10003000#64) [0x2000#64, 0x2100#64]
      = ⟨0x3000#64, 0x10003000#64⟩ := by decide +kernel
  have htarget : blTarget 0x3000#64 (read32 (irmPatch irmX10 (twoModulesMem 0x10003000#64)
      ⟨0x3000#64, 0x10003000#64⟩) 0x3000#64) = some 0x2F58#64 := by decide +kernel
  have hleft := irmTransferToKernel_eq hchain himages (show [_, _].length < 3 by decide) irmX10
  rw [hfound] at hleft
  refine ⟨_, hchain, himages, _, hleft, ?_, htarget⟩
  rw [hfound]
  intro hplants
  -- The branch planted decodes to another place than the code.
  have hcode := htarget.symm.trans (hplants (by decide))
  exact absurd hcode (by decide)

end KernelErrataPatcher
