/-
  MsmnilePkg.KernelErrataPatcher.Reference

  The reference patches: `OslArm64TransferToKernel` of the four
  Reference/ShellCode.c files.

  Each walks the load-order list of the loader block and scans the image of
  every module word by word.  The walk and the scan are shared; an erratum
  contributes what it does to the word at the cursor.
-/

import MsmnilePkg.Lib.WordScan
import MsmnilePkg.KernelErrataPatcher.ShellCode

namespace KernelErrataPatcher

open ByteMem A64 WordScan

/-! ## The loader's structures -/

/-- `&loaderBlock->LoadOrderListHead` -/
def loadOrderListHead (loaderBlock : Addr) : Addr := loaderBlock + 16#64

/-- `entry->ForwardLink` -/
def forwardLink (m : Mem) (entry : Addr) : Addr := read64 m entry

/-- `kernelModule->DllBase`; `InLoadOrderLinks` is the first field of the entry. -/
def dllBase (m : Mem) (entry : Addr) : Addr := read64 m (entry + 48#64)

/-- `kernelModule->SizeOfImage` -/
def sizeOfImage (m : Mem) (entry : Addr) : BitVec 64 := (read32 m (entry + 64#64)).setWidth 64

variable {σ : Type}

/-- `for (entry = head->ForwardLink; entry != head; entry = entry->ForwardLink)`, with
    `memOf` the memory of the loop's state; `none` when the list does not come back to
    its head within `fuel` entries or a scan does not terminate. -/
def forEachModule (memOf : σ → Mem) (perModule : σ → Addr → BitVec 64 → Option σ)
    (head : Addr) : Nat → Addr → σ → Option σ
  | 0, _, _ => none
  | fuel + 1, entry, s =>
      if entry = head then some s
      else do
        let s' ← perModule s (dllBase (memOf s) entry) (sizeOfImage (memOf s) entry)
        forEachModule memOf perModule head fuel (forwardLink (memOf s') entry) s'

/-- The same walk, left after the first module of the list. -/
def forFirstModule (memOf : σ → Mem) (perModule : σ → Addr → BitVec 64 → Option σ)
    (head : Addr) (s : σ) : Option σ :=
  let entry := forwardLink (memOf s) head
  if entry = head then some s
  else perModule s (dllBase (memOf s) entry) (sizeOfImage (memOf s) entry)

/-- `for (current = base; current < base + size; current += sizeof(UINT32))` -/
def scanImage (body : Mem → Addr → Mem) (m : Mem) (base : Addr) (size : BitVec 64) :
    Option Mem :=
  forWords base (base + size) never body m

/-- The image of a module lies in the address space, in whole words. -/
structure ImageOk (base : Addr) (size : BitVec 64) : Prop where
  base_aligned : base.toNat % 4 = 0
  size_aligned : size.toNat % 4 = 0
  no_wrap : base.toNat + size.toNat < 2 ^ 64

/-- The number of words of an image. -/
def wordCount (size : BitVec 64) : Nat := size.toNat / 4

theorem ImageOk.limit {base : Addr} {size : BitVec 64} (h : ImageOk base size) :
    base.toNat + 4 * wordCount size = (base + size).toNat := by
  obtain ⟨-, hs, hw⟩ := h
  rw [BitVec.toNat_add, Nat.mod_eq_of_lt hw, wordCount]
  omega

theorem scanImage_eq {base : Addr} {size : BitVec 64} (h : ImageOk base size)
    (body : Mem → Addr → Mem) (m : Mem) :
    scanImage body m base size = some (scanUntil never body (wordCount size) base m) :=
  forWords_eq h.limit never body m

/-! ## Masks -/

theorem getLsbD_of_mask {w mask : BitVec 32} (h : w &&& mask = mask) {i : Nat}
    (hi : mask.getLsbD i = true) : w.getLsbD i = true := by
  rw [← h, BitVec.getLsbD_and, Bool.and_eq_true] at hi
  exact hi.1

/-- Bit 26 tells a system register move from a `movz`. -/
theorem movz_ne {w mask : BitVec 32} (h : w &&& mask = mask) (h26 : mask.getLsbD 26 = true) :
    w ≠ (w &&& ~~~mask) ||| 0xD2800000#32 := by
  intro heq
  have hw : w.getLsbD 26 = true := getLsbD_of_mask h h26
  rw [heq, BitVec.getLsbD_or, BitVec.getLsbD_and, BitVec.getLsbD_not, h26] at hw
  revert hw
  simp

/-! ## ACTLR_EL1 -/

/-- `mrs x?, actlr_el1` becomes `movz x?, #0`, `msr actlr_el1, x?` becomes `nop`. -/
def actlrEl1Body (m : Mem) (current : Addr) : Mem :=
  if read32 m current &&& 0xD5381020#32 = 0xD5381020#32 then
    write32 m current ((read32 m current &&& ~~~0xD5381020#32) ||| 0xD2800000#32)
  else if read32 m current &&& 0xD5181020#32 = 0xD5181020#32 then
    write32 m current 0xD503201F#32
  else m

/-- What `actlrEl1Body` makes of a word. -/
def actlrEl1Word (w : BitVec 32) : BitVec 32 :=
  if w &&& 0xD5381020#32 = 0xD5381020#32 then (w &&& ~~~0xD5381020#32) ||| 0xD2800000#32
  else if w &&& 0xD5181020#32 = 0xD5181020#32 then 0xD503201F#32
  else w

theorem actlrEl1Body_eq : actlrEl1Body = patchWord actlrEl1Word := by
  funext m current
  rw [actlrEl1Body, patchWord, actlrEl1Word]
  by_cases hmrs : read32 m current &&& 0xD5381020#32 = 0xD5381020#32
  · rw [if_pos hmrs, if_pos hmrs]
  · rw [if_neg hmrs, if_neg hmrs]
    by_cases hmsr : read32 m current &&& 0xD5181020#32 = 0xD5181020#32
    · rw [if_pos hmsr, if_pos hmsr]
    · -- a word that is left alone is a word that is written back
      rw [if_neg hmsr, if_neg hmsr, write32_read32]

def actlrEl1TransferToKernel (fuel : Nat) (m : Mem) (loaderBlock : Addr) : Option Mem :=
  forEachModule id (scanImage actlrEl1Body) (loadOrderListHead loaderBlock) fuel
    (forwardLink m (loadOrderListHead loaderBlock)) m

/-! ## AMCNTENSET0_EL0 -/

/-- `mrs x?, amcntenset0_el0` becomes `movz x?, #0`. -/
def amcntenset0El0Body (m : Mem) (current : Addr) : Mem :=
  if read32 m current &&& 0xD53BD2A0#32 = 0xD53BD2A0#32 then
    write32 m current ((read32 m current &&& ~~~0xD53BD2A0#32) ||| 0xD2800000#32)
  else m

/-- What `amcntenset0El0Body` makes of a word. -/
def amcntenset0El0Word (w : BitVec 32) : BitVec 32 :=
  if w &&& 0xD53BD2A0#32 = 0xD53BD2A0#32 then (w &&& ~~~0xD53BD2A0#32) ||| 0xD2800000#32
  else w

theorem amcntenset0El0Body_eq : amcntenset0El0Body = patchWord amcntenset0El0Word := by
  funext m current
  rw [amcntenset0El0Body, patchWord, amcntenset0El0Word]
  by_cases hmrs : read32 m current &&& 0xD53BD2A0#32 = 0xD53BD2A0#32
  · rw [if_pos hmrs, if_pos hmrs]
  · rw [if_neg hmrs, if_neg hmrs, write32_read32]

def amcntenset0El0TransferToKernel (fuel : Nat) (m : Mem) (loaderBlock : Addr) : Option Mem :=
  forEachModule id (scanImage amcntenset0El0Body) (loadOrderListHead loaderBlock) fuel
    (forwardLink m (loadOrderListHead loaderBlock)) m

/-! ## PSCI_MEMPROTECT -/

/-- `ARM64_TOTAL_INSTRUCTION_LENGTH(n)` -/
def arm64TotalInstructionLength (n : Nat) : BitVec 64 := BitVec.ofNat 64 (4 * n)

/-- A function whose body loads a PSCI_MEMPROTECT call number and clears `x1` to `x3`
    gets a `ret` as its first instruction. -/
def psciMemprotectBody (m : Mem) (current : Addr) : Mem :=
  if read64 m current = 0xD2800003180002D5#64 ∧
      read64 m (current + arm64TotalInstructionLength 2) = 0xD2800001D2800002#64 then
    write32 m (current - arm64TotalInstructionLength 8) 0xD65F03C0#32
  else if read64 m current = 0xD2800002D2800003#64 ∧
      (read64 m (current + arm64TotalInstructionLength 2) = 0x18000240D2800001#64 ∨
        read64 m (current + arm64TotalInstructionLength 2) = 0x180002C0D2800001#64) then
    write32 m (current - arm64TotalInstructionLength 7) 0xD65F03C0#32
  else m

def psciMemprotectTransferToKernel (fuel : Nat) (m : Mem) (loaderBlock : Addr) : Option Mem :=
  forEachModule id (scanImage psciMemprotectBody) (loadOrderListHead loaderBlock) fuel
    (forwardLink m (loadOrderListHead loaderBlock)) m

/-! ## IRM and IRM_X8 -/

/-- `ARM64_BRANCH_LOCATION_INSTRUCTION(CurrentOffset, TargetOffset)` -/
def arm64BranchLocationInstruction (currentOffset targetOffset : Addr) : BitVec 32 :=
  0x94000000#32 ||| (((targetOffset - currentOffset) / 4#64).setWidth 32 &&& 0x7FFFFFF#32)

/-- The two locals of the scan. -/
structure IrmFound where
  gicInstr : Addr
  realEstateFunc : Addr
  deriving DecidableEq

/-- `GICINSTR != 0 && REALESTATEFUNC != 0` -/
def IrmFound.both (f : IrmFound) : Bool := f.gicInstr != 0#64 && f.realEstateFunc != 0#64

theorem IrmFound.both_eq_true {f : IrmFound} :
    f.both = true ↔ f.gicInstr ≠ 0#64 ∧ f.realEstateFunc ≠ 0#64 := by
  simp [IrmFound.both]

/-- The data doubleword 168 bytes behind which the trampoline goes. -/
def irmMarker : BitVec 64 := 0x0009001600090003#64

/-- The two matches at the cursor. -/
def irmMatch (insn : BitVec 32) (m : Mem) (f : IrmFound) (current : Addr) : IrmFound where
  gicInstr := if read32 m current = insn then current else f.gicInstr
  realEstateFunc := if read64 m current = irmMarker then current else f.realEstateFunc

/-- The body of the inner loop; the second component says that it ended in `break`. -/
def irmBody (insn : BitVec 32) (m : Mem) (f : IrmFound × Bool) (current : Addr) :
    IrmFound × Bool :=
  let f' := irmMatch insn m f.1 current
  (f', f'.both)

/-- The scan of one image, which only reads the memory.  In a later image it still tests
    the first word before it notices that both were found. -/
def irmScanImage (insn : BitVec 32) (s : Mem × IrmFound) (base : Addr) (size : BitVec 64) :
    Option (Mem × IrmFound) :=
  (forWords base (base + size) Prod.snd (irmBody insn s.1) (s.2, false)).map
    fun f => (s.1, f.1)

/-- Stores of consecutive doublewords. -/
def writeDwords : List (BitVec 64) → Addr → Mem → Mem
  | [], _, m => m
  | d :: ds, a, m => writeDwords ds (a + 8#64) (write64 m a d)

/-- `UINT64 CodeLocation = REALESTATEFUNC - ARM64_TOTAL_INSTRUCTION_LENGTH(42)` -/
def codeLocation (realEstateFunc : Addr) : Addr :=
  realEstateFunc - arm64TotalInstructionLength 42

/-- Plant the branch and the trampoline, when both places were found. -/
def irmPatch (v : IrmVariant) (m : Mem) (f : IrmFound) : Mem :=
  if f.both then
    let code := codeLocation f.realEstateFunc
    let m := write32 m f.gicInstr (arm64BranchLocationInstruction f.gicInstr code)
    let m := writeDwords v.trampoline code m
    write32 m (code + arm64TotalInstructionLength 22) 0xD65F03C0#32
  else m

def irmTransferToKernel (v : IrmVariant) (fuel : Nat) (m : Mem) (loaderBlock : Addr) :
    Option Mem :=
  (forEachModule Prod.fst (irmScanImage v.insn) (loadOrderListHead loaderBlock) fuel
    (forwardLink m (loadOrderListHead loaderBlock)) (m, ⟨0#64, 0#64⟩)).map
      fun s => irmPatch v s.1 s.2

/-! ## The first module alone -/

/-- A word patch's loop when it visits only the first module. -/
def patchFirstModule (body : Mem → Addr → Mem) (m : Mem) (loaderBlock : Addr) : Option Mem :=
  forFirstModule id (scanImage body) (loadOrderListHead loaderBlock) m

/-- An IRM patch when its loop visits only the first module. -/
def irmPatchFirstModule (v : IrmVariant) (m : Mem) (loaderBlock : Addr) : Option Mem :=
  (forFirstModule Prod.fst (irmScanImage v.insn) (loadOrderListHead loaderBlock)
    (m, ⟨0#64, 0#64⟩)).map fun s => irmPatch v s.1 s.2

/-- The first entry of the load-order list; the head itself when the list is empty. -/
def firstEntry (m : Mem) (loaderBlock : Addr) : Addr :=
  forwardLink m (loadOrderListHead loaderBlock)

/-- The image of the first module, if there is one, is a proper image. -/
def FirstImageOk (m : Mem) (loaderBlock : Addr) : Prop :=
  firstEntry m loaderBlock ≠ loadOrderListHead loaderBlock →
    ImageOk (dllBase m (firstEntry m loaderBlock)) (sizeOfImage m (firstEntry m loaderBlock))

/-- The memory a patch of the first module leaves. -/
def firstModuleMem (body : Mem → Addr → Mem) (m : Mem) (loaderBlock : Addr) : Mem :=
  if firstEntry m loaderBlock = loadOrderListHead loaderBlock then m
  else scanUntil never body (wordCount (sizeOfImage m (firstEntry m loaderBlock)))
    (dllBase m (firstEntry m loaderBlock)) m

theorem patchFirstModule_eq {m : Mem} {loaderBlock : Addr} (h : FirstImageOk m loaderBlock)
    (body : Mem → Addr → Mem) :
    patchFirstModule body m loaderBlock = some (firstModuleMem body m loaderBlock) := by
  unfold patchFirstModule forFirstModule firstModuleMem
  by_cases he : firstEntry m loaderBlock = loadOrderListHead loaderBlock
  · rw [if_pos he]
    exact if_pos he
  · rw [if_neg he]
    exact (if_neg he).trans (scanImage_eq (h he) body m)

/-- What an IRM scan of the first module finds. -/
def irmFirstModuleFound (insn : BitVec 32) (m : Mem) (loaderBlock : Addr) : IrmFound :=
  if firstEntry m loaderBlock = loadOrderListHead loaderBlock then ⟨0#64, 0#64⟩
  else (scanUntil Prod.snd (irmBody insn m)
    (wordCount (sizeOfImage m (firstEntry m loaderBlock)))
    (dllBase m (firstEntry m loaderBlock)) (⟨0#64, 0#64⟩, false)).1

/-- The memory an IRM patch of the first module leaves. -/
def irmFirstModuleMem (v : IrmVariant) (m : Mem) (loaderBlock : Addr) : Mem :=
  irmPatch v m (irmFirstModuleFound v.insn m loaderBlock)

theorem irmPatchFirstModule_eq {m : Mem} {loaderBlock : Addr} (h : FirstImageOk m loaderBlock)
    (v : IrmVariant) :
    irmPatchFirstModule v m loaderBlock = some (irmFirstModuleMem v m loaderBlock) := by
  unfold irmPatchFirstModule forFirstModule irmFirstModuleMem irmFirstModuleFound
  by_cases he : firstEntry m loaderBlock = loadOrderListHead loaderBlock
  · rw [if_pos he]
    exact congrArg (Option.map _) (if_pos he)
  · rw [if_neg he]
    refine (congrArg (Option.map _) (if_neg he)).trans ?_
    rw [irmScanImage]
    erw [forWords_eq (h he).limit]
    rfl

end KernelErrataPatcher
