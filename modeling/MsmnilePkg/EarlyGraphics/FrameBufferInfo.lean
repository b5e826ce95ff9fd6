/-
  MsmnilePkg.EarlyGraphics.FrameBufferInfo

  The calls of MsEarlyGraphicsGetFrameBufferInfo over a whole boot.

  The loop finds the first of the largest modes, and gives back every buffer
  that QueryMode returned.  Once a call has found a valid mode, the later ones
  succeed without a look at the GOP or at what they were given.
-/

import Mathlib.Algebra.Group.Nat.Defs
import Mathlib.Data.Prod.Lex
import MsmnilePkg.EarlyGraphics.MsEarlyGraphicsLib
import MsmnilePkg.Lib.FirstMax
import MsmnilePkg.Lib.History

namespace EarlyGraphics

open Efi Handles FirstMax History

/-! ## The largest mode -/

/-- Width, then height. -/
def ModeInformation.size (info : ModeInformation) : Nat ×ₗ Nat :=
  toLex (info.horizontalResolution.toNat, info.verticalResolution.toNat)

/-- The size of a mode that `QueryMode` reports. -/
def Gop.sizeOf (gop : Gop) (k : Nat) : Option (Nat ×ₗ Nat) :=
  if (gop.queryMode (BitVec.ofNat 32 k)).1.isError then none
  else some (gop.queryMode (BitVec.ofNat 32 k)).2.size

/-- The first mode of the largest size among those that `QueryMode` reports. -/
def Gop.Largest (gop : Gop) (n : BitVec 32) : Prop :=
  ∃ size, IsFirstMax gop.sizeOf gop.mode.maxMode.toNat n.toNat size

/-! ## One turn of the loop -/

/-- The best mode so far, as the locals have it. -/
def Locals.best (l : Locals) : Nat × (Nat ×ₗ Nat) :=
  (l.currentModeNumber.toNat,
    toLex (l.currentHorizontalResolution.toNat, l.currentVerticalResolution.toNat))

section Turn

variable {gop : Gop} {k : Nat} {l : Locals}

theorem queryTurn_error (h : (gop.queryMode (BitVec.ofNat 32 k)).1.isError = true) :
    queryTurn gop k l = { l with status := (gop.queryMode (BitVec.ofNat 32 k)).1 } := by
  simp [queryTurn, h]

/-- The comparison of the code is that of the sizes. -/
theorem best_lt_iff (info : ModeInformation) :
    l.best.2 < info.size ↔
      l.currentHorizontalResolution.toNat < info.horizontalResolution.toNat ∨
        l.currentHorizontalResolution.toNat = info.horizontalResolution.toNat ∧
          l.currentVerticalResolution.toNat < info.verticalResolution.toNat := by
  rw [Locals.best, ModeInformation.size, Prod.Lex.toLex_lt_toLex]

/-- What is done with buffer `id`, which is read `n` times. -/
def block (id n : Nat) : List (Event (BitVec 32)) :=
  (.acquire id :: List.replicate n (.use id)) ++ [.release id]

/-- A reported mode replaces the best one when it is larger.  In either case its buffer is
    read some times and given back. -/
theorem queryTurn_reported (h : (gop.queryMode (BitVec.ofNat 32 k)).1.isError = false) :
    ∃ n, queryTurn gop k l =
      { l with
        currentModeNumber := if l.best.2 < (gop.queryMode (BitVec.ofNat 32 k)).2.size then
          BitVec.ofNat 32 k else l.currentModeNumber
        currentHorizontalResolution :=
          if l.best.2 < (gop.queryMode (BitVec.ofNat 32 k)).2.size then
            (gop.queryMode (BitVec.ofNat 32 k)).2.horizontalResolution
          else l.currentHorizontalResolution
        currentVerticalResolution :=
          if l.best.2 < (gop.queryMode (BitVec.ofNat 32 k)).2.size then
            (gop.queryMode (BitVec.ofNat 32 k)).2.verticalResolution
          else l.currentVerticalResolution
        status := (gop.queryMode (BitVec.ofNat 32 k)).1
        info := l.buffers
        events := l.events ++ block l.buffers n
        buffers := l.buffers + 1 } := by
  simp only [queryTurn, h, Bool.false_eq_true, if_false]
  generalize (gop.queryMode (BitVec.ofNat 32 k)).1 = status
  generalize (gop.queryMode (BitVec.ofNat 32 k)).2 = info
  have hlt := best_lt_iff (l := l) info
  by_cases hwide : info.horizontalResolution
      ≤ (l.query status).readInfo.currentHorizontalResolution
  · have hwide' : info.horizontalResolution.toNat ≤ l.currentHorizontalResolution.toNat := hwide
    rw [if_pos hwide]
    by_cases hne : info.horizontalResolution
        ≠ (l.query status).readInfo.currentHorizontalResolution
    · -- A smaller width.
      have hne' : info.horizontalResolution.toNat ≠ l.currentHorizontalResolution.toNat :=
        fun heq => hne (BitVec.eq_of_toNat_eq heq)
      have hnot : ¬ l.best.2 < info.size := by
        rw [hlt]
        omega
      rw [if_pos hne]
      simp only [if_neg hnot]
      exact ⟨1, by simp [Locals.freePool, Locals.readInfo, Locals.query, block]⟩
    · have heq : info.horizontalResolution.toNat = l.currentHorizontalResolution.toNat :=
        congrArg BitVec.toNat (not_not.mp hne)
      rw [if_neg hne]
      by_cases hhigh : info.verticalResolution
          ≤ (l.query status).readInfo.readInfo.currentVerticalResolution
      · -- The same width, and no larger height.
        have hhigh' : info.verticalResolution.toNat ≤ l.currentVerticalResolution.toNat := hhigh
        have hnot : ¬ l.best.2 < info.size := by
          rw [hlt]
          omega
        rw [if_pos hhigh]
        simp only [if_neg hnot]
        exact ⟨2, by simp [Locals.freePool, Locals.readInfo, Locals.query, block]⟩
      · -- The same width, and a larger height.
        have hhigh' : ¬ info.verticalResolution.toNat ≤ l.currentVerticalResolution.toNat := hhigh
        have hpos : l.best.2 < info.size := by
          rw [hlt]
          omega
        rw [if_neg hhigh]
        simp only [if_pos hpos]
        exact ⟨3, by simp [Locals.freePool, Locals.select, Locals.readInfo, Locals.query, block]⟩
  · -- A larger width.
    have hwide' : ¬ info.horizontalResolution.toNat ≤ l.currentHorizontalResolution.toNat := hwide
    have hpos : l.best.2 < info.size := by
      rw [hlt]
      omega
    rw [if_neg hwide]
    simp only [if_pos hpos]
    exact ⟨3, by simp [Locals.freePool, Locals.select, Locals.readInfo, Locals.query, block]⟩

/-- The locals take the offer of a turn. -/
theorem queryTurn_best (hk : k < 2 ^ 32) :
    (queryTurn gop k l).best = offer gop.sizeOf k l.best := by
  have hnumber : (BitVec.ofNat 32 k).toNat = k := by
    rw [BitVec.toNat_ofNat, Nat.mod_eq_of_lt hk]
  by_cases herr : (gop.queryMode (BitVec.ofNat 32 k)).1.isError = true
  · have hkey : gop.sizeOf k = none := by simp [Gop.sizeOf, herr]
    rw [queryTurn_error herr, offer_none hkey]
    rfl
  · have hkey : gop.sizeOf k = some (gop.queryMode (BitVec.ofNat 32 k)).2.size := by
      simp [Gop.sizeOf, herr]
    obtain ⟨n, heq⟩ := queryTurn_reported (l := l) (Bool.eq_false_iff.mpr herr)
    rw [heq]
    by_cases hlt : l.best.2 < (gop.queryMode (BitVec.ofNat 32 k)).2.size
    · rw [offer_larger hkey hlt]
      simp only [if_pos hlt]
      rw [Locals.best, hnumber, ModeInformation.size]
    · rw [offer_not_larger hkey (not_lt.mp hlt)]
      simp only [if_neg hlt]
      rfl

end Turn

/-! ## The loop -/

/-- Every buffer that the loop got has been given back. -/
structure Clean (first : Nat) (l : Locals) : Prop where
  le : first ≤ l.buffers
  balanced : Balanced l.events
  within : Within first l.buffers l.events

theorem queryTurn_clean {gop : Gop} {k first : Nat} {l : Locals} (h : Clean first l) :
    Clean first (queryTurn gop k l) := by
  by_cases herr : (gop.queryMode (BitVec.ofNat 32 k)).1.isError = true
  · rw [queryTurn_error herr]
    exact ⟨h.le, h.balanced, h.within⟩
  · obtain ⟨n, heq⟩ := queryTurn_reported (l := l) (Bool.eq_false_iff.mpr herr)
    rw [heq]
    constructor
    case le => exact Nat.le_succ_of_le h.le
    case balanced =>
      exact h.balanced.append h.within (balanced_block _ n) (within_block _ n)
    case within =>
      apply Within.append
      · exact h.within.mono le_rfl (Nat.le_succ _)
      · exact (within_block _ n).mono h.le le_rfl

theorem queryModes_clean (gop : Gop) (status : Status) (buffers : Nat) :
    Clean buffers (queryModes gop status buffers) := by
  apply Loop.forTurns_invariant (I := fun _ l => Clean buffers l)
  · exact ⟨le_rfl, balanced_nil, within_nil⟩
  · intro k _ l h
    exact queryTurn_clean h

/-- The loop does what a scan for the first maximum does. -/
theorem queryModes_best (gop : Gop) (status : Status) (buffers : Nat) :
    (queryModes gop status buffers).best
      = Loop.forTurns (offer gop.sizeOf) gop.mode.maxMode.toNat (0, toLex (0, 0)) := by
  have hlt := gop.mode.maxMode.isLt
  unfold queryModes
  generalize gop.mode.maxMode.toNat = n at hlt
  induction n with
  | zero => rfl
  | succ n ih => rw [Loop.forTurns, queryTurn_best (by omega), ih (by omega), Loop.forTurns]

/-- Without a valid mode, the loop ends with the first of the largest modes. -/
theorem queryModes_largest {gop : Gop} (h : gop.mode.mode = noMode) (status : Status)
    (buffers : Nat) : gop.Largest (queryModes gop status buffers).currentModeNumber := by
  obtain ⟨n, hn, hok, hwide⟩ := gop.reports h
  have hkey : gop.sizeOf n.toNat = some (gop.queryMode n).2.size := by
    simp [Gop.sizeOf, hok]
  have hpos : ((0, toLex (0, 0)) : Nat × (Nat ×ₗ Nat)).2 < (gop.queryMode n).2.size := by
    rw [ModeInformation.size, Prod.Lex.toLex_lt_toLex]
    exact Or.inl hwide
  have hmax := isFirstMax_of_larger hn hkey hpos
  rw [← queryModes_best gop status buffers] at hmax
  exact ⟨_, hmax⟩

/-- The number of the largest mode is that of a mode. -/
theorem Gop.Largest.ne_noMode {gop : Gop} {n : BitVec 32} (h : gop.Largest n) : n ≠ noMode := by
  obtain ⟨size, hmax⟩ := h
  have hlt := hmax.lt
  rintro rfl
  have hno : noMode.toNat = 2 ^ 32 - 1 := rfl
  omega

/-! ## One call -/

/-- The call gets as far as the GOP: it was given a pointer, `AllocateZeroPool` returned
    memory, and the GOP was located. -/
structure CallRecord.FindsGop (r : CallRecord) : Prop where
  given : r.given = true
  mode : r.firmware.allocatesMode = true
  info : r.firmware.allocatesInfo = true
  located : r.firmware.locate.isError = false

/-- Mode `n` is set, by one call of `SetMode`, and what that leaves is copied and answered. -/
structure CallRecord.Selects (r : CallRecord) (n : BitVec 32) : Prop where
  setModes : r.setModes = [n]
  status : r.status = (r.firmware.setMode n).1
  gopAfter : r.gopAfter = (r.firmware.setMode n).2
  copied : r.graphicsMode = some (r.gopAfter.mode, some r.gopAfter.info)

/-- A call that succeeds leaves a copy of the current mode.  A GOP without a valid mode is set
    to the first of its largest modes, by every call that gets as far as the GOP and by every
    other that succeeds or sets a mode at all; a valid mode is not changed, and a call that
    gets as far as that succeeds where `LocateProtocol` did. -/
structure CallRight (r : CallRecord) : Prop where
  copied : r.status = .success → r.graphicsMode = some (r.gopAfter.mode, some r.gopAfter.info)
  selected : (r.FindsGop ∨ r.status = .success ∨ r.setModes ≠ []) →
    r.gopBefore.mode.mode = noMode → ∃ n, r.gopBefore.Largest n ∧ r.Selects n
  kept : r.setModes ≠ [] → r.gopBefore.mode.mode = noMode
  succeeds : r.FindsGop → r.firmware.locate = .success → r.gopBefore.mode.mode ≠ noMode →
    r.status = .success

/-- A call after `IsInitialized` was set finds a valid mode, and a copy of it behind its
    pointer. -/
def UpToDate (s : State) : Input → Prop
  | .call _ (some v) => s.isInitialized = true → s.gop.mode.mode ≠ noMode ∧
      s.graphicsMode v = some (s.gop.mode, some s.gop.info)
  | _ => True

@[simp] theorem copyMode_graphicsMode (gop : Gop) (status : Status)
    (events : List (Event (BitVec 32))) (buffers : Nat) :
    (copyMode gop status events buffers).graphicsMode = some (gop.mode, some gop.info) := rfl

/-- The events of the loop set no mode. -/
theorem setModesOf_queryModes (gop : Gop) (status : Status) (buffers : Nat) :
    setModesOf (queryModes gop status buffers).events = [] := by
  apply Loop.forTurns_invariant (I := fun _ (l : Locals) => setModesOf l.events = [])
  · rfl
  · intro k _ l h
    by_cases herr : (gop.queryMode (BitVec.ofNat 32 k)).1.isError = true
    · rw [queryTurn_error herr]
      exact h
    · obtain ⟨n, heq⟩ := queryTurn_reported (l := l) (Bool.eq_false_iff.mpr herr)
      have hblock : setModesOf (block l.buffers n) = [] := by
        simp [setModesOf, block]
      rw [heq]
      show setModesOf (l.events ++ block l.buffers n) = []
      rw [setModesOf, List.filterMap_append]
      exact (congrArg₂ _ h hblock)

section OneCall

variable {fw : Firmware} {gop : Gop} {pointed : Pointed} {buffers : Nat}

/-- Without a valid mode, a call that finds the GOP sets the largest one and copies the mode
    that is current then. -/
theorem getFrameBufferInfo_select (hmode : fw.allocatesMode = true)
    (hinfo : fw.allocatesInfo = true) (hlocate : fw.locate.isError = false)
    (h : gop.mode.mode = noMode) (pointed : Pointed) (buffers : Nat) :
    ∃ n, gop.Largest n ∧
      (msEarlyGraphicsGetFrameBufferInfo fw false gop pointed buffers).status = (fw.setMode n).1 ∧
      (msEarlyGraphicsGetFrameBufferInfo fw false gop pointed buffers).gop = (fw.setMode n).2 ∧
      (msEarlyGraphicsGetFrameBufferInfo fw false gop pointed buffers).graphicsMode
        = some ((fw.setMode n).2.mode, some (fw.setMode n).2.info) ∧
      (msEarlyGraphicsGetFrameBufferInfo fw false gop pointed buffers).events
        = (queryModes gop fw.locate buffers).events ++ [.other n] ∧
      (msEarlyGraphicsGetFrameBufferInfo fw false gop pointed buffers).buffers
        = (queryModes gop fw.locate buffers).buffers := by
  have hlargest := queryModes_largest h fw.locate buffers
  have hne := hlargest.ne_noMode
  refine ⟨_, hlargest, ?_⟩
  simp [msEarlyGraphicsGetFrameBufferInfo, hmode, hinfo, hlocate, h, hne, copyMode]

/-- A call that returns an error before it has found the GOP. -/
theorem callRight_of_error {r : CallRecord} (hfinds : ¬ r.FindsGop) (hstatus : r.status ≠ .success)
    (hsets : r.setModes = []) : CallRight r where
  copied h := absurd h hstatus
  selected := by
    rintro (h | h | h)
    · exact absurd h hfinds
    · exact absurd h hstatus
    · exact absurd hsets h
  kept h := absurd hsets h
  succeeds h := absurd h hfinds

/-- What a call does before the flag is set, case by case. -/
theorem getFrameBufferInfo_right :
    CallRight ((msEarlyGraphicsGetFrameBufferInfo fw false gop pointed buffers).record fw gop) := by
  by_cases hmode : fw.allocatesMode = true
  · by_cases hinfo : fw.allocatesInfo = true
    · by_cases hlocate : fw.locate.isError = true
      · -- No GOP: an error.
        have hne : fw.locate ≠ .success := by
          rintro heq
          simp [heq] at hlocate
        apply callRight_of_error
        · rintro ⟨-, -, -, hlocated⟩
          rw [Outcome.record] at hlocated
          simp [hlocate] at hlocated
        · simp [msEarlyGraphicsGetFrameBufferInfo, hmode, hinfo, hlocate, Outcome.record, hne]
        · simp [msEarlyGraphicsGetFrameBufferInfo, hmode, hinfo, hlocate, Outcome.record,
            setModesOf]
      · by_cases h : gop.mode.mode = noMode
        · obtain ⟨n, hlargest, hstatus, hgop, hcopy, hevents, -⟩ :=
            getFrameBufferInfo_select hmode hinfo (Bool.eq_false_iff.mpr hlocate) h pointed buffers
          have hsets : setModesOf
              (msEarlyGraphicsGetFrameBufferInfo fw false gop pointed buffers).events = [n] := by
            rw [hevents, setModesOf, List.filterMap_append]
            exact congrArg₂ _ (setModesOf_queryModes gop fw.locate buffers) rfl
          have hafter : (msEarlyGraphicsGetFrameBufferInfo fw false gop pointed buffers).graphicsMode
              = some ((msEarlyGraphicsGetFrameBufferInfo fw false gop pointed buffers).gop.mode, some
                (msEarlyGraphicsGetFrameBufferInfo fw false gop pointed buffers).gop.info) := by
            rw [hcopy, hgop]
          constructor
          case copied => exact fun _ => hafter
          case selected => exact fun _ _ => ⟨n, hlargest, hsets, hstatus, hgop, hafter⟩
          case kept => exact fun _ => h
          case succeeds => exact fun _ _ hvalid => absurd h hvalid
        · -- A valid mode is copied.
          constructor <;>
            simp [msEarlyGraphicsGetFrameBufferInfo, hmode, hinfo, hlocate, h, Outcome.record,
              setModesOf, copyMode]
    · -- No memory for `Info`.
      apply callRight_of_error
      · rintro ⟨-, -, halloc, -⟩
        exact hinfo halloc
      · simp [msEarlyGraphicsGetFrameBufferInfo, hmode, hinfo, Outcome.record]
      · simp [msEarlyGraphicsGetFrameBufferInfo, hmode, hinfo, Outcome.record, setModesOf]
  · -- No memory for the mode.
    apply callRight_of_error
    · rintro ⟨-, halloc, -, -⟩
      exact hmode halloc
    · simp [msEarlyGraphicsGetFrameBufferInfo, hmode, Outcome.record]
    · simp [msEarlyGraphicsGetFrameBufferInfo, hmode, Outcome.record, setModesOf]

end OneCall

/-- A call is right when it comes before the flag is set or finds everything up to date. -/
theorem call_right_iff (s : State) (fw : Firmware) (v : Nat) :
    CallRight ((s.callWith fw v).record fw s.gop) ↔ UpToDate s (.call fw (some v)) := by
  by_cases hinit : s.isInitialized = true
  · have hout : s.callWith fw v = ⟨.success, true, s.gop, s.graphicsMode v, [], s.buffers⟩ := by
      simp [State.callWith, msEarlyGraphicsGetFrameBufferInfo, hinit]
    rw [hout]
    constructor
    · intro h _
      refine ⟨?_, h.copied rfl⟩
      -- No mode was set, so one was valid.
      intro hno
      obtain ⟨n, -, hselects⟩ := h.selected (Or.inr (Or.inl rfl)) hno
      cases hselects.setModes
    · intro h
      obtain ⟨hvalid, hcopy⟩ := h hinit
      constructor
      case copied => exact fun _ => hcopy
      case selected => exact fun _ hno => absurd hno hvalid
      case kept => exact fun hne => absurd rfl hne
      case succeeds => exact fun _ _ _ => rfl
  · have hfalse : s.isInitialized = false := Bool.eq_false_iff.mpr hinit
    rw [State.callWith, hfalse]
    refine iff_of_true getFrameBufferInfo_right ?_
    intro h
    exact absurd h hinit

/-! ## Runs -/

theorem newCalls_right_iff (s : State) (input : Input) :
    (∀ r ∈ newCalls s input, CallRight r) ↔ UpToDate s input := by
  cases input with
  | call fw graphicsMode =>
      cases graphicsMode with
      | none =>
          refine iff_of_true ?_ trivial
          rw [newCalls, List.forall_mem_singleton]
          exact callRight_of_error (fun h => absurd h.given (by simp)) (by simp) rfl
      | some v =>
          rw [newCalls, List.forall_mem_singleton]
          exact call_right_iff s fw v
  | gopChanges gop => simp [newCalls, UpToDate]
  | callerStores v pointed => simp [newCalls, UpToDate]

theorem step_calls (s : State) (input : Input) :
    (step s input).calls = s.calls ++ newCalls s input := by
  cases input with
  | call fw graphicsMode => cases graphicsMode <;> rfl
  | gopChanges gop => exact (List.append_nil _).symm
  | callerStores v pointed => exact (List.append_nil _).symm

/-- Every buffer so far has been given back. -/
def Returned (s : State) : Prop := Balanced s.events ∧ Within 0 s.buffers s.events

theorem callWith_clean (s : State) (fw : Firmware) (v : Nat) :
    s.buffers ≤ (s.callWith fw v).buffers ∧ Balanced (s.callWith fw v).events ∧
      Within s.buffers (s.callWith fw v).buffers (s.callWith fw v).events := by
  have hnone : s.buffers ≤ s.buffers ∧ Balanced ([] : List (Event (BitVec 32))) ∧
      Within s.buffers s.buffers ([] : List (Event (BitVec 32))) :=
    ⟨le_rfl, balanced_nil, within_nil⟩
  -- The five tests before the query return without a buffer.
  rw [State.callWith, msEarlyGraphicsGetFrameBufferInfo]
  split
  · exact hnone
  split
  · exact hnone
  split
  · exact hnone
  split
  · exact hnone
  split
  · exact hnone
  have hclean := queryModes_clean s.gop fw.locate s.buffers
  simp only
  split
  · -- SetMode comes behind the queries and allocates nothing.
    have hset : Balanced ((queryModes s.gop fw.locate s.buffers).events
        ++ [.other (queryModes s.gop fw.locate s.buffers).currentModeNumber]) :=
      hclean.balanced.append_other hclean.within _
    exact ⟨hclean.le, hset, hclean.within.append (within_other _)⟩
  · exact ⟨hclean.le, hclean.balanced, hclean.within⟩

theorem step_returned (s : State) (input : Input) (h : Returned s) : Returned (step s input) := by
  cases input with
  | call fw graphicsMode =>
      cases graphicsMode with
      | none => exact h
      | some v =>
          obtain ⟨hle, hbalanced, hwithin⟩ := callWith_clean s fw v
          constructor
          · exact h.1.append h.2 hbalanced hwithin
          · exact (h.2.mono le_rfl hle).append (hwithin.mono (Nat.zero_le _) le_rfl)
  | gopChanges gop => exact h
  | callerStores v pointed => exact h

/-- Every call of the run is right, and every buffer was given back exactly once and not read
    after that. -/
def RunRight (s : State) : Prop := (∀ r ∈ s.calls, CallRight r) ∧ Balanced s.events

/-- All is right in a run exactly when every call after `IsInitialized` was set finds a valid
    mode and an equal structure behind its pointer.  The buffers are right in every run. -/
theorem getFrameBufferInfo_run_iff (gop : Gop) (graphicsMode : Nat → Pointed)
    (inputs : List Input) :
    RunRight (inputs.foldl step (boot gop graphicsMode)) ↔
      EveryStep UpToDate step (boot gop graphicsMode) inputs := by
  have hlog := log_iff_everyStep (G := CallRight) step_calls newCalls_right_iff inputs
    (boot gop graphicsMode)
  have hbuffers := run_invariant step_returned inputs (boot gop graphicsMode)
    ⟨balanced_nil, within_nil⟩
  rw [RunRight, and_iff_left hbuffers.1, hlog]
  simp [boot]

/-! ## Two callers -/

/-- A GOP with a valid mode of 1080 x 2400. -/
def sampleGop : Gop where
  mode := ⟨1#32, 0#32, 36#64, 0x9C000000#64, 0x2400000#64⟩
  info := ⟨0#32, 1080#32, 2400#32, 1#32, ⟨0#32, 0#32, 0#32, 0#32⟩, 1080#32⟩
  queryMode _ := (.success, ⟨0#32, 1080#32, 2400#32, 1#32, ⟨0#32, 0#32, 0#32, 0#32⟩, 1080#32⟩)
  reports h := absurd h (by decide)

def sampleFirmware : Firmware := ⟨true, true, .success, fun _ => (.success, sampleGop)⟩

/-- The second of two callers gets a success and no mode. -/
theorem second_caller_gets_no_mode :
    ¬ RunRight ([.call sampleFirmware (some 0), .call sampleFirmware (some 1)].foldl step
      (boot sampleGop fun _ => none)) := by
  rintro ⟨hcalls, -⟩
  have hright := hcalls ⟨true, sampleFirmware, .success, sampleGop, sampleGop, none, []⟩
    (List.mem_cons_of_mem _ (List.mem_cons_self ..))
  exact absurd (hright.copied rfl) (by simp)

end EarlyGraphics
