/-
  MsmnilePkg.EarlyGraphics.MsEarlyGraphicsLib

  MsEarlyGraphicsGetFrameBufferInfo: the mode of the GOP for a driver that
  draws on the frame buffer.

  A GOP without a valid mode is set to its largest one first.  The calls of
  one boot share the flag `IsInitialized`.
-/

import Mathlib.Logic.Function.Basic
import MsmnilePkg.Efi
import MsmnilePkg.Lib.Handles
import MsmnilePkg.Lib.Loop

namespace EarlyGraphics

open Efi Handles

/-! ## The Graphics Output Protocol -/

/-- `EFI_PIXEL_BITMASK` -/
structure PixelBitmask where
  redMask : BitVec 32
  greenMask : BitVec 32
  blueMask : BitVec 32
  reservedMask : BitVec 32
  deriving DecidableEq, Repr

/-- `EFI_GRAPHICS_OUTPUT_MODE_INFORMATION` -/
structure ModeInformation where
  version : BitVec 32
  horizontalResolution : BitVec 32
  verticalResolution : BitVec 32
  pixelFormat : BitVec 32
  pixelInformation : PixelBitmask
  pixelsPerScanLine : BitVec 32
  deriving DecidableEq, Repr

/-- `EFI_GRAPHICS_OUTPUT_PROTOCOL_MODE`, besides the pointer `Info`. -/
structure Mode where
  maxMode : BitVec 32
  mode : BitVec 32
  sizeOfInfo : BitVec 64
  frameBufferBase : BitVec 64
  frameBufferSize : BitVec 64
  deriving DecidableEq, Repr

/-- A mode that is not valid: `-1`. -/
def noMode : BitVec 32 := 0xFFFFFFFF#32

/-- `EFI_GRAPHICS_OUTPUT_PROTOCOL`: its current mode, and what `QueryMode` answers.  A GOP
    without a valid mode reports one with a width. -/
structure Gop where
  mode : Mode
  info : ModeInformation
  queryMode : BitVec 32 → Status × ModeInformation
  reports : mode.mode = noMode → ∃ n, n < mode.maxMode ∧ (queryMode n).1.isError = false ∧
    0#32 < (queryMode n).2.horizontalResolution

/-- What `*GraphicsMode` points to, and what its `Info` points to. -/
abbrev Pointed := Option (Mode × Option ModeInformation)

/-- The firmware around one call. -/
structure Firmware where
  /-- The `AllocateZeroPool` calls return memory. -/
  allocatesMode : Bool
  allocatesInfo : Bool
  /-- `LocateProtocol (&gGopOverrideProtocolGuid, ..)` -/
  locate : Status
  /-- `SetMode`, and the GOP after it. -/
  setMode : BitVec 32 → Status × Gop

/-! ## The loop over the modes -/

/-- The locals of the loop, what was done with the `Info` buffers, and how many of them
    `QueryMode` has returned. -/
structure Locals where
  currentModeNumber : BitVec 32
  currentHorizontalResolution : BitVec 32
  currentVerticalResolution : BitVec 32
  status : Status
  /-- The buffer that `Info` points to. -/
  info : Nat
  events : List (Event (BitVec 32))
  buffers : Nat

/-- A read through `Info`. -/
def Locals.readInfo (l : Locals) : Locals := { l with events := l.events ++ [.use l.info] }

/-- `FreePool (Info)` -/
def Locals.freePool (l : Locals) : Locals := { l with events := l.events ++ [.release l.info] }

/-- `CurrentModeNumber = ModeNumber; ..`, which reads the width once more. -/
def Locals.select (l : Locals) (modeNumber : BitVec 32) (info : ModeInformation) : Locals :=
  { l.readInfo with
    currentModeNumber := modeNumber
    currentHorizontalResolution := info.horizontalResolution
    currentVerticalResolution := info.verticalResolution }

/-- `QueryMode` returned a new buffer. -/
def Locals.query (l : Locals) (status : Status) : Locals :=
  { l with
    status := status
    info := l.buffers
    events := l.events ++ [.acquire l.buffers]
    buffers := l.buffers + 1 }

/-- A turn of the loop, for `ModeNumber = k`. -/
def queryTurn (gop : Gop) (k : Nat) (l : Locals) : Locals :=
  let modeNumber := BitVec.ofNat 32 k
  let (status, info) := gop.queryMode modeNumber
  if status.isError then { l with status := status }
  else
    let l := (l.query status).readInfo
    if info.horizontalResolution ≤ l.currentHorizontalResolution then
      if info.horizontalResolution ≠ l.currentHorizontalResolution then l.freePool
      else
        let l := l.readInfo
        if info.verticalResolution ≤ l.currentVerticalResolution then l.freePool
        else (l.select modeNumber info).freePool
    else (l.readInfo.select modeNumber info).freePool

/-- `while (ModeNumber != MaxMode) { .. ++ModeNumber; }` -/
def queryModes (gop : Gop) (status : Status) (buffers : Nat) : Locals :=
  Loop.forTurns (queryTurn gop) gop.mode.maxMode.toNat
    ⟨0#32, 0#32, 0#32, status, 0, [], buffers⟩

/-! ## The function -/

/-- What a call leaves behind. -/
structure Outcome where
  status : Status
  isInitialized : Bool
  gop : Gop
  graphicsMode : Pointed
  events : List (Event (BitVec 32))
  buffers : Nat

/-- From `LABEL_33` on: the copy, field by field. -/
def copyMode (gop : Gop) (status : Status) (events : List (Event (BitVec 32))) (buffers : Nat) :
    Outcome where
  status := status
  isInitialized := gop.mode.mode != noMode
  gop := gop
  graphicsMode := some
    (⟨gop.mode.maxMode, gop.mode.mode, gop.mode.sizeOfInfo, gop.mode.frameBufferBase,
        gop.mode.frameBufferSize⟩,
      some ⟨gop.info.version, gop.info.horizontalResolution, gop.info.verticalResolution,
        gop.info.pixelFormat, gop.info.pixelInformation, gop.info.pixelsPerScanLine⟩)
  events := events
  buffers := buffers

/-- The structures that `AllocateZeroPool` returns. -/
def zeroMode : Mode := ⟨0#32, 0#32, 0#64, 0#64, 0#64⟩

def zeroInformation : ModeInformation := ⟨0#32, 0#32, 0#32, 0#32, ⟨0#32, 0#32, 0#32, 0#32⟩, 0#32⟩

/-- `MsEarlyGraphicsGetFrameBufferInfo` with a pointer.  Its argument `pointed` is what
    `*GraphicsMode` points to before the call. -/
def msEarlyGraphicsGetFrameBufferInfo (fw : Firmware) (isInitialized : Bool) (gop : Gop)
    (pointed : Pointed) (buffers : Nat) : Outcome :=
  if isInitialized then ⟨.success, true, gop, pointed, [], buffers⟩
  else if fw.allocatesMode = false then
    ⟨.outOfResources, false, gop, none, [], buffers⟩
  else if fw.allocatesInfo = false then
    ⟨.outOfResources, false, gop, some (zeroMode, none), [], buffers⟩
  else if fw.locate.isError then
    ⟨fw.locate, false, gop, some (zeroMode, some zeroInformation), [], buffers⟩
  else if gop.mode.mode ≠ noMode then copyMode gop fw.locate [] buffers
  else
    let l := queryModes gop fw.locate buffers
    if l.currentModeNumber ≠ gop.mode.mode then
      let (status, gop') := fw.setMode l.currentModeNumber
      copyMode gop' status (l.events ++ [.other l.currentModeNumber]) l.buffers
    else copyMode gop l.status l.events l.buffers

/-! ## The calls of one boot -/

/-- What a call was asked and what it did. -/
structure CallRecord where
  /-- `GraphicsMode` is not `NULL`. -/
  given : Bool
  firmware : Firmware
  status : Status
  gopBefore : Gop
  gopAfter : Gop
  graphicsMode : Pointed
  /-- The modes that `SetMode` was called with. -/
  setModes : List (BitVec 32)

/-- `IsInitialized`, the GOP, what the callers' variables point to, and what was done so far. -/
structure State where
  isInitialized : Bool
  gop : Gop
  graphicsMode : Nat → Pointed
  events : List (Event (BitVec 32))
  buffers : Nat
  calls : List CallRecord

inductive Input where
  /-- A call with a pointer to a variable of the caller, or with `NULL`. -/
  | call (fw : Firmware) (graphicsMode : Option Nat)
  /-- Something else sets the mode, or moves the frame buffer. -/
  | gopChanges (gop : Gop)
  /-- A caller stores to its variable, or to what it points to. -/
  | callerStores (v : Nat) (pointed : Pointed)

def setModesOf (events : List (Event (BitVec 32))) : List (BitVec 32) :=
  events.filterMap fun
    | .other n => some n
    | _ => none

/-- The call with a pointer to a variable, in a state. -/
def State.callWith (s : State) (fw : Firmware) (v : Nat) : Outcome :=
  msEarlyGraphicsGetFrameBufferInfo fw s.isInitialized s.gop (s.graphicsMode v) s.buffers

def Outcome.record (o : Outcome) (fw : Firmware) (gopBefore : Gop) : CallRecord :=
  ⟨true, fw, o.status, gopBefore, o.gop, o.graphicsMode, setModesOf o.events⟩

/-- The records that an input adds. -/
def newCalls (s : State) : Input → List CallRecord
  | .call fw none => [⟨false, fw, .invalidParameter, s.gop, s.gop, none, []⟩]
  | .call fw (some v) => [(s.callWith fw v).record fw s.gop]
  | .gopChanges _ => []
  | .callerStores _ _ => []

def step (s : State) : Input → State
  | .call fw none => { s with calls := s.calls ++ newCalls s (.call fw none) }
  | .call fw (some v) =>
      let o := s.callWith fw v
      { isInitialized := o.isInitialized
        gop := o.gop
        graphicsMode := Function.update s.graphicsMode v o.graphicsMode
        events := s.events ++ o.events
        buffers := o.buffers
        calls := s.calls ++ newCalls s (.call fw (some v)) }
  | .gopChanges gop => { s with gop := gop }
  | .callerStores v pointed => { s with graphicsMode := Function.update s.graphicsMode v pointed }

/-- No call has been made. -/
def boot (gop : Gop) (graphicsMode : Nat → Pointed) : State :=
  ⟨false, gop, graphicsMode, [], 0, []⟩

end EarlyGraphics
