/-
  MsmnilePkg.KernelErrataPatcher.ExitBootServices

  KernelErrataPatcherExitBootServices and Mmu.c: winload is made writable,
  fixed up, given the shell code, and protected again.

  Left out are the boot services table, which gets its own ExitBootServices
  back, and the call of that service at the end.
-/

import MsmnilePkg.Efi
import MsmnilePkg.KernelErrataPatcher.ActlrFixup
import MsmnilePkg.KernelErrataPatcher.Reference

namespace KernelErrataPatcher

open ByteMem Efi WordScan

/-- `SCAN_MAX` -/
def scanMax : BitVec 64 := 0x300000#64

/-- `EFI_PAGE_SIZE` -/
def efiPageSize : BitVec 64 := 0x1000#64

/-- `EFI_MEMORY_RO` -/
def efiMemoryRo : BitVec 64 := 0x20000#64

/-! ## State -/

/-- `EFI_MEMORY_ATTRIBUTE_PROTOCOL`, a service of the firmware. -/
structure MemoryAttributeProtocol where
  getMemoryAttributes : Addr → BitVec 64 → Status × BitVec 64
  clearMemoryAttributes : Addr → BitVec 64 → BitVec 64 → Status
  setMemoryAttributes : Addr → BitVec 64 → BitVec 64 → Status

inductive ProtectCall where
  | unprotectWinload (base : Addr) (length : BitVec 64)
  | reProtectWinload (base : Addr) (length : BitVec 64)
  deriving DecidableEq

/-- The memory and the static of Mmu.c.  The two lists are not in the source: the calls of the
    functions of Mmu.c, oldest first, and the addresses of the bytes written to winload. -/
structure Winload where
  mem : Mem
  /-- `WinloadAttributes` -/
  winloadAttributes : BitVec 64
  calls : List ProtectCall
  written : List Addr

/-- The addresses of `n` bytes. -/
def span (a : Addr) (n : Nat) : List Addr := (List.range n).map fun i => a + BitVec.ofNat 64 i

/-- `*(UINT32 *)a = v` -/
def Winload.store32 (s : Winload) (a : Addr) (v : BitVec 32) : Winload :=
  { s with mem := write32 s.mem a v, written := span a 4 ++ s.written }

/-- `CopyMemory` -/
def Winload.copyMemory (s : Winload) (destination : Addr) (source : List Byte) : Winload :=
  { s with
    mem := KernelErrataPatcher.copyMemory s.mem destination source
    written := span destination source.length ++ s.written }

/-- `KernelErrataPatcherApplyReadACTLREL1Patches` -/
def Winload.applyReadActlrEl1Patches (s : Winload) (base : Addr) (size : BitVec 64) :
    Option Winload :=
  (findPattern s.mem base size actlrEl1Pattern).map fun illegalInstruction0 =>
    if illegalInstruction0 ≠ 0#64 then s.copyMemory illegalInstruction0 fixedInstruction0 else s

/-- The memory after it is that of the patch on the memory alone. -/
theorem Winload.applyReadActlrEl1Patches_mem (s : Winload) (base : Addr) (size : BitVec 64) :
    (s.applyReadActlrEl1Patches base size).map Winload.mem
      = KernelErrataPatcher.applyReadActlrEl1Patches s.mem base size := by
  rw [Winload.applyReadActlrEl1Patches, KernelErrataPatcher.applyReadActlrEl1Patches,
    Option.map_map]
  congr 1
  funext a
  by_cases ha : a ≠ 0#64
  · simp [ha, Winload.copyMemory]
  · simp [not_not.mp ha]

/-! ## Mmu.c -/

section Mmu

variable (p : Option MemoryAttributeProtocol) (winloadBase : Addr) (winloadLength : BitVec 64)

def unprotectWinload (s : Winload) : Status × Winload :=
  let s := { s with calls := s.calls ++ [.unprotectWinload winloadBase winloadLength] }
  match p with
  | none => (.success, s)
  | some p =>
      let answer := p.getMemoryAttributes winloadBase winloadLength
      if answer.1.isError then (answer.1, s)
      else
        let s := { s with winloadAttributes := answer.2 }
        if answer.2 &&& efiMemoryRo ≠ 0#64 then
          (p.clearMemoryAttributes winloadBase winloadLength efiMemoryRo, s)
        else (answer.1, s)

def reProtectWinload (s : Winload) : Status × Winload :=
  let s := { s with calls := s.calls ++ [.reProtectWinload winloadBase winloadLength] }
  match p with
  | none => (.success, s)
  | some p =>
      if s.winloadAttributes &&& efiMemoryRo ≠ 0#64 then
        (p.setMemoryAttributes winloadBase winloadLength efiMemoryRo, s)
      else (.success, s)

end Mmu

/-! ## The shell code -/

/-- The word at `current` is the branch to `OslArm64TransferToKernelAddr`, and `movz x2, #0`
    follows it. -/
def isTransferCall (m : Mem) (oslArm64TransferToKernelAddr current : Addr) : Bool :=
  arm64BranchLocationInstruction current oslArm64TransferToKernelAddr == read32 m current &&
    read32 m (current + 4#64) == 0xD2800002#32

/-- `NewOslArm64TransferToKernelAddr` -/
def newTransferToKernelAddr (e : Errata) (oslArm64TransferToKernelAddr : Addr) : Addr :=
  oslArm64TransferToKernelAddr - BitVec.ofNat 64 (oslArm64TransferToKernelShellCode e).length

/-- The branch at `current` goes to the copy of the shell code that is put before the
    function. -/
def injectShellCode (e : Errata) (oslArm64TransferToKernelAddr current : Addr) (s : Winload) :
    Winload :=
  let newAddr := newTransferToKernelAddr e oslArm64TransferToKernelAddr
  (s.store32 current (arm64BranchLocationInstruction current newAddr)).copyMemory newAddr
    (oslArm64TransferToKernelShellCode e)

/-- The body of the loops over a window; the first component is `InjectedShellCode`. -/
def transferCallBody (e : Errata) (oslArm64TransferToKernelAddr : Addr) (s : Bool × Winload)
    (current : Addr) : Bool × Winload :=
  if isTransferCall s.2.mem oslArm64TransferToKernelAddr current then
    (true, injectShellCode e oslArm64TransferToKernelAddr current s.2)
  else s

/-- One of the two loops, left by `break` once the shell code is injected. -/
def patchTransferCall (e : Errata) (oslArm64TransferToKernelAddr : Addr) (s : Winload) :
    Option (Bool × Winload) :=
  forWords oslArm64TransferToKernelAddr (oslArm64TransferToKernelAddr + scanMax) Prod.fst
    (transferCallBody e oslArm64TransferToKernelAddr) (false, s)

/-- `winloadBase + 0xC00 + offset` -/
def transferToKernelAddr (winloadBase : Addr) (offset : BitVec 64) : Addr :=
  winloadBase + 0xC00#64 + offset

/-- `NT_OS_LOADER_ARM64_TRANSFER_TO_KERNEL_FUNCTION_OFFSET` -/
def transferToKernelOffset : BitVec 64 := 0x400#64

/-- `NT_OS_LOADER_ARM64_TRANSFER_TO_KERNEL_FUNCTION_OFFSET_GERMANIUM` -/
def transferToKernelOffsetGermanium : BitVec 64 := 0x480#64

/-- The two attempts. -/
def patchTransferCalls (e : Errata) (winloadBase : Addr) (s : Winload) : Option Winload :=
  (patchTransferCall e (transferToKernelAddr winloadBase transferToKernelOffsetGermanium) s).bind
    fun r =>
      if r.1 then some r.2
      else (patchTransferCall e (transferToKernelAddr winloadBase transferToKernelOffset) r.2).map
        Prod.snd

/-- The fix-up of the builds for ACTLR_EL1. -/
def fixUpWinload (e : Errata) (fwpKernelSetupPhase1 : Addr) (s : Winload) : Option Winload :=
  if e.actlrEl1 then s.applyReadActlrEl1Patches fwpKernelSetupPhase1 scanMax else some s

/-- `KernelErrataPatcherExitBootServices` up to the call of the original service; `none` when
    LocateWinloadBase finds no image. -/
def kernelErrataPatcherExitBootServices (e : Errata) (p : Option MemoryAttributeProtocol)
    (fwpKernelSetupPhase1 : Addr) (s : Winload) : Option Winload :=
  (locateWinloadBase s.mem fwpKernelSetupPhase1).bind fun located =>
    let winloadBase := located.1
    let tempSize := located.2
    let unprotected := unprotectWinload p (winloadBase + efiPageSize) tempSize s
    if unprotected.1.isError then some unprotected.2
    else
      (fixUpWinload e fwpKernelSetupPhase1 unprotected.2).bind fun s =>
        (patchTransferCalls e winloadBase s).map fun s =>
          (reProtectWinload p (winloadBase + efiPageSize) tempSize s).2

end KernelErrataPatcher
