/-
  MsmnilePkg.PlatformSecure.UserPhysicalPresent

  PlatformSecureLib.c: whether a user is at the phone.

  A run is any sequence of constructor calls, queries and presses of the volume keys.
  Each call that looks for the keypad comes with what the boot services answer in it,
  so that the keypad's protocol may arrive at any time and any call may fail.  Left out
  are `Reset`, which the library does not check, and the texts that are printed.
-/

import MsmnilePkg.Efi
import MsmnilePkg.Lib.History

namespace PlatformSecure

open Efi History

/-- What the boot services and the keypad answer during one call. -/
structure Services where
  locateDevicePath : Status
  openProtocol : Status
  /-- `OpenProtocol`, when it succeeds, gives an interface that is not `NULL`. -/
  interface : Bool
  /-- `RegisterKeyNotify` for `SCAN_UP`. -/
  registerUp : Status
  /-- `RegisterKeyNotify` for `SCAN_DOWN`. -/
  registerDown : Status

/-- The globals of the library, what the keypad has been asked for, and whether it has
    called `KeyNotify`. -/
structure State where
  mUserPhysicalPresence : Bool
  /-- `SimpleEx` is not `NULL`. -/
  simpleEx : Bool
  registeredUp : Bool
  registeredDown : Bool
  notified : Bool
deriving DecidableEq

def initial : State := ⟨true, false, false, false, false⟩

/-- `KeyNotify` -/
def keyNotify (s : State) : State :=
  { s with mUserPhysicalPresence := true, notified := true }

/-- `LocateButtonProtocol`; `SimpleEx` stays `NULL` when `OpenProtocol` fails. -/
def locateButtonProtocol (sv : Services) (s : State) : Status × State :=
  if sv.locateDevicePath.isError then (.outOfResources, s)
  else if sv.openProtocol.isError then (sv.openProtocol, s)
  -- From here on the flag is FALSE, whatever becomes of the registration.
  else (sv.openProtocol, { s with simpleEx := sv.interface, mUserPhysicalPresence := false })

/-- The part of `RegisterKeyNotification` that needs the protocol. -/
def registerKeys (sv : Services) (s : State) : Status × State :=
  if sv.registerUp.isError then (sv.registerUp, s)
  -- The first key stays registered when the second one cannot be.
  else
    let s := { s with registeredUp := true }
    if sv.registerDown.isError then (sv.registerDown, s)
    else (sv.registerDown, { s with registeredDown := true })

/-- `RegisterKeyNotification` -/
def registerKeyNotification (sv : Services) (s : State) : Status × State :=
  if s.simpleEx then registerKeys sv s
  else
    let located := locateButtonProtocol sv s
    -- An error, or no interface: the keys are not registered in this call.
    if located.1.isError || !located.2.simpleEx then located
    else registerKeys sv located.2

/-- `UserPhysicalPresent` -/
def userPhysicalPresent (sv : Services) (s : State) : Bool × State :=
  let s := if s.simpleEx then s else (registerKeyNotification sv s).2
  (s.mUserPhysicalPresence, s)

/-- `PlatformSecureLibConstructor` -/
def platformSecureLibConstructor (sv : Services) (s : State) : Status × State :=
  (.success, (registerKeyNotification sv s).2)

inductive Key where
  | up
  | down
deriving DecidableEq

inductive Event where
  | constructed (sv : Services)
  | queried (sv : Services)
  | pressed (key : Key)

/-- The keypad calls `KeyNotify` for the keys that have been registered. -/
def press (key : Key) (s : State) : State :=
  match key with
  | .up => if s.registeredUp then keyNotify s else s
  | .down => if s.registeredDown then keyNotify s else s

def step (s : State) : Event → State
  | .constructed sv => (platformSecureLibConstructor sv s).2
  | .queried sv => (userPhysicalPresent sv s).2
  | .pressed key => press key s

def run (events : List Event) : State := events.foldl step initial

/-! ## What has been answered in a run -/

/-- The keypad is there when the call looks for it. -/
def Services.finds (sv : Services) : Bool :=
  !sv.locateDevicePath.isError && !sv.openProtocol.isError

/-- The call that looks for the keypad gets its interface. -/
def Services.locates (sv : Services) : Bool := sv.finds && sv.interface

/-- What `RegisterKeyNotify` answers when the keys are registered, which is given up at the
    first failure. -/
def Services.registers (sv : Services) : Key → Bool
  | .up => !sv.registerUp.isError
  | .down => !sv.registerUp.isError && !sv.registerDown.isError

def Event.finds : Event → Bool
  | .constructed sv => sv.finds
  | .queried sv => sv.finds
  | .pressed _ => false

def Event.locates : Event → Bool
  | .constructed sv => sv.locates
  | .queried sv => sv.locates
  | .pressed _ => false

/-- The call, made after `before`, asks the keypad for `key` and is answered with success.
    The constructor asks whenever the keypad is located, a query in the call that locates
    it. -/
def Event.registers (before : List Event) (key : Key) : Event → Bool
  | .constructed sv => (before.any Event.locates || sv.locates) && sv.registers key
  | .queried sv => !before.any Event.locates && sv.locates && sv.registers key
  | .pressed _ => false

def Registered (key : Key) (events : List Event) : Prop :=
  ∃ before call after, events = before ++ call :: after ∧ call.registers before key = true

/-- A key has been pressed that was registered by then. -/
def Notified (events : List Event) : Prop :=
  ∃ before key after, events = before ++ .pressed key :: after ∧ Registered key before

/-! ## What is asked of a run -/

/-- A query that follows `before` and is answered TRUE comes after a notification. -/
def OnlyAfterNotification (events : List Event) : Prop :=
  ∀ before sv after, events = before ++ .queried sv :: after →
    (userPhysicalPresent sv (run before)).1 = true → Notified before

/-- With the keypad located and both keys registered, a notification is not forgotten. -/
def StaysPresent (events : List Event) : Prop :=
  ∀ before sv after, events = before ++ .queried sv :: after →
    Registered .up before → Registered .down before → Notified before →
    (userPhysicalPresent sv (run before)).1 = true

/-- No query comes before the keypad can be found. -/
def KeypadFirst (events : List Event) : Prop :=
  ∀ before sv after, events = before ++ .queried sv :: after →
    before.any Event.finds = true ∨ sv.finds = true

/-! ## The state that a run reaches -/

/-- Until a call finds the keypad nothing changes; from then on the flag tells whether there
    was a notification. -/
structure Tracks (found : Bool) (s : State) : Prop where
  untouched : found = false → s = initial
  kept : found = true → s.mUserPhysicalPresence = s.notified
  located : s.notified = true ∨ s.registeredUp = true ∨ s.registeredDown = true →
    s.simpleEx = true

theorem tracks_initial : Tracks false initial where
  untouched _ := rfl
  kept h := absurd h Bool.false_ne_true
  located h := by simp [initial] at h

section Steps

variable {found : Bool} {s : State}

/-- A state from which nothing is missing but the registration of keys. -/
theorem tracks_registerKeys (sv : Services) (hs : s.simpleEx = true) (h : Tracks true s) :
    Tracks true (registerKeys sv s).2 := by
  have hkept := h.kept rfl
  have hkeys : ∀ up down, Tracks true { s with registeredUp := up, registeredDown := down } :=
    fun _ _ => ⟨fun h => absurd h Bool.false_ne_true.symm, fun _ => hkept, fun _ => hs⟩
  rw [registerKeys]
  split
  · exact h
  · -- Both ends change only which keys are registered.
    split
    · exact hkeys true s.registeredDown
    · exact hkeys true true

theorem locateButtonProtocol_of_not_finds {sv : Services} (h : sv.finds = false) (s : State) :
    (locateButtonProtocol sv s).1.isError = true ∧ (locateButtonProtocol sv s).2 = s := by
  rw [Services.finds] at h
  rw [locateButtonProtocol]
  split
  · exact ⟨rfl, rfl⟩
  · rename_i hlocate
    simp only [hlocate, Bool.not_false, Bool.true_and, Bool.not_eq_false'] at h
    rw [if_pos h]
    exact ⟨h, rfl⟩

theorem locateButtonProtocol_of_finds {sv : Services} (h : sv.finds = true) (s : State) :
    locateButtonProtocol sv s =
      (sv.openProtocol, { s with simpleEx := sv.interface, mUserPhysicalPresence := false }) := by
  rw [Services.finds, Bool.and_eq_true, Bool.not_eq_true', Bool.not_eq_true'] at h
  rw [locateButtonProtocol, h.1, h.2]
  rfl

/-- The protocol has been located, so the keypad has been found. -/
theorem Tracks.found_of_simpleEx (h : Tracks found s) (hs : s.simpleEx = true) :
    found = true := by
  cases found with
  | true => rfl
  | false =>
      rw [h.untouched rfl] at hs
      exact absurd hs Bool.false_ne_true

/-- A notification needs the protocol. -/
theorem Tracks.not_notified (h : Tracks found s) (hs : s.simpleEx = false) :
    s.notified = false ∧ s.registeredUp = false ∧ s.registeredDown = false := by
  have hnone : ¬(s.notified = true ∨ s.registeredUp = true ∨ s.registeredDown = true) :=
    fun hany => absurd (hs.symm.trans (h.located hany)) Bool.false_ne_true
  simpa using hnone

theorem tracks_registerKeyNotification (sv : Services) (h : Tracks found s) :
    Tracks (found || sv.finds) (registerKeyNotification sv s).2 := by
  rw [registerKeyNotification]
  cases hs : s.simpleEx with
  | true =>
      -- The protocol is there already.
      have hfound := h.found_of_simpleEx hs
      subst hfound
      exact tracks_registerKeys sv hs h
  | false =>
      obtain ⟨hnotified, hup, hdown⟩ := h.not_notified hs
      rw [if_neg Bool.false_ne_true]
      cases hfinds : sv.finds with
      | false =>
          -- The keypad is not found in this call either, and nothing changes.
          obtain ⟨herror, hsame⟩ := locateButtonProtocol_of_not_finds hfinds s
          rw [Bool.or_false]
          simp only [herror, Bool.true_or, if_true, hsame]
          exact h
      | true =>
          -- It is found now: the flag is reset, as there was no notification yet.
          have hreset : Tracks true
              { s with simpleEx := sv.interface, mUserPhysicalPresence := false } :=
            ⟨fun h => absurd h Bool.false_ne_true.symm, fun _ => hnotified.symm,
              fun hany => by simp [hnotified, hup, hdown] at hany⟩
          rw [locateButtonProtocol_of_finds hfinds, Bool.or_true]
          show Tracks true (if _ then _ else _ : Status × State).2
          split
          · exact hreset
          · rename_i hgo
            refine tracks_registerKeys sv ?_ hreset
            simp only [Bool.or_eq_true, not_or, Bool.not_eq_true, Bool.not_eq_false'] at hgo
            exact hgo.2

theorem tracks_userPhysicalPresent (sv : Services) (h : Tracks found s) :
    Tracks (found || sv.finds) (userPhysicalPresent sv s).2 := by
  rw [userPhysicalPresent]
  cases hs : s.simpleEx with
  | true =>
      have hfound := h.found_of_simpleEx hs
      subst hfound
      exact h
  | false => exact tracks_registerKeyNotification sv h

theorem tracks_keyNotify (hs : s.simpleEx = true) (h : Tracks found s) :
    Tracks found (keyNotify s) := by
  have hfound := h.found_of_simpleEx hs
  exact ⟨fun hnot => absurd (hnot.symm.trans hfound) Bool.false_ne_true, fun _ => rfl, fun _ => hs⟩

theorem tracks_press (key : Key) (h : Tracks found s) : Tracks found (press key s) := by
  cases key with
  | up =>
      rw [press]
      split
      · -- A registered key means that the protocol was located.
        rename_i hup
        exact tracks_keyNotify (h.located (.inr (.inl hup))) h
      · exact h
  | down =>
      rw [press]
      split
      · rename_i hdown
        exact tracks_keyNotify (h.located (.inr (.inr hdown))) h
      · exact h

theorem tracks_step (found : Bool) (s : State) (e : Event) (h : Tracks found s) :
    Tracks (found || e.finds) (step s e) := by
  cases e with
  | constructed sv => exact tracks_registerKeyNotification sv h
  | queried sv => exact tracks_userPhysicalPresent sv h
  | pressed key =>
      rw [Event.finds, Bool.or_false]
      exact tracks_press key h

end Steps

theorem tracks_run (events : List Event) : Tracks (events.any Event.finds) (run events) := by
  have h := run_observed (I := Tracks) tracks_step events false initial tracks_initial
  rwa [Bool.false_or] at h

/-! ## The keypad's record -/

/-- The keypad has been asked for the key. -/
def State.registered (s : State) : Key → Bool
  | .up => s.registeredUp
  | .down => s.registeredDown

section Record

variable (sv : Services) (s : State) (key : Key)

theorem registerKeys_spec :
    (registerKeys sv s).2.simpleEx = s.simpleEx ∧
      (registerKeys sv s).2.notified = s.notified ∧
      (registerKeys sv s).2.registered key = (s.registered key || sv.registers key) := by
  rw [registerKeys]
  cases hup : sv.registerUp.isError with
  | true => cases key <;> simp [State.registered, Services.registers, hup]
  | false =>
      cases hdown : sv.registerDown.isError <;> cases key <;>
        simp [State.registered, Services.registers, hup, hdown]

/-- Without the protocol, the call that locates it is the one that registers the keys. -/
theorem registerKeyNotification_spec :
    (registerKeyNotification sv s).2.simpleEx = (s.simpleEx || sv.locates) ∧
      (registerKeyNotification sv s).2.notified = s.notified ∧
      (registerKeyNotification sv s).2.registered key
        = (s.registered key || (s.simpleEx || sv.locates) && sv.registers key) := by
  rw [registerKeyNotification]
  cases hs : s.simpleEx with
  | true =>
      obtain ⟨hsimple, hnotified, hkey⟩ := registerKeys_spec sv s key
      exact ⟨hsimple.trans hs, hnotified, hkey⟩
  | false =>
      rw [if_neg Bool.false_ne_true]
      cases hfinds : sv.finds with
      | false =>
          obtain ⟨herror, hsame⟩ := locateButtonProtocol_of_not_finds hfinds s
          simp [herror, hsame, hs, Services.locates, hfinds]
      | true =>
          have hopen : sv.openProtocol.isError = false := by
            rw [Services.finds, Bool.and_eq_true, Bool.not_eq_true', Bool.not_eq_true'] at hfinds
            exact hfinds.2
          rw [locateButtonProtocol_of_finds hfinds]
          cases hinterface : sv.interface with
          | false => cases key <;> simp [State.registered, Services.locates, hopen, hinterface]
          | true =>
              obtain ⟨hsimple, hnotified, hkey⟩ := registerKeys_spec sv
                { s with simpleEx := true, mUserPhysicalPresence := false } key
              have hlocates : sv.locates = true := by rw [Services.locates, hfinds, hinterface]; rfl
              rw [hlocates]
              simp only [hopen, Bool.not_true, Bool.or_self, Bool.false_eq_true, if_false]
              refine ⟨hsimple, hnotified, hkey.trans ?_⟩
              cases key <;> rfl

/-- A query registers the keys in the call that locates the keypad, and only there. -/
theorem userPhysicalPresent_spec :
    (userPhysicalPresent sv s).2.simpleEx = (s.simpleEx || sv.locates) ∧
      (userPhysicalPresent sv s).2.notified = s.notified ∧
      (userPhysicalPresent sv s).2.registered key
        = (s.registered key || !s.simpleEx && sv.locates && sv.registers key) := by
  rw [userPhysicalPresent]
  cases hs : s.simpleEx with
  | true => simp [hs]
  | false =>
      obtain ⟨hsimple, hnotified, hkey⟩ := registerKeyNotification_spec sv s key
      rw [hs] at hsimple hkey
      exact ⟨hsimple, hnotified, hkey⟩

/-- The keypad calls `KeyNotify` for the keys in its record. -/
theorem press_spec (pressed : Key) :
    (press pressed s).simpleEx = s.simpleEx ∧
      (press pressed s).notified = (s.notified || s.registered pressed) ∧
      (press pressed s).registered key = s.registered key := by
  cases pressed with
  | up =>
      rw [press, State.registered]
      cases s.registeredUp <;> cases key <;> simp [keyNotify, State.registered]
  | down =>
      rw [press, State.registered]
      cases s.registeredDown <;> cases key <;> simp [keyNotify, State.registered]

end Record

theorem step_simpleEx (s : State) (e : Event) :
    (step s e).simpleEx = (s.simpleEx || e.locates) := by
  cases e with
  | constructed sv => exact (registerKeyNotification_spec sv s .up).1
  | queried sv => exact (userPhysicalPresent_spec sv s .up).1
  | pressed key => rw [Event.locates, Bool.or_false]; exact (press_spec s .up key).1

theorem run_simpleEx (events : List Event) :
    (run events).simpleEx = events.any Event.locates := by
  have hstep : ∀ b s e, s.simpleEx = b → (step s e).simpleEx = (b || e.locates) := by
    rintro _ s e rfl
    exact step_simpleEx s e
  have h := run_observed (I := fun b (s : State) => s.simpleEx = b) hstep events false initial rfl
  rwa [Bool.false_or] at h

/-- The record of the keypad has the keys for which it answered with success. -/
theorem registered_iff (key : Key) (events : List Event) :
    (run events).registered key = true ↔ Registered key events := by
  -- What a call adds depends on whether the keypad is located.
  let sets (s : State) : Event → Bool
    | .constructed sv => (s.simpleEx || sv.locates) && sv.registers key
    | .queried sv => !s.simpleEx && sv.locates && sv.registers key
    | .pressed _ => false
  have hstep : ∀ s e, (step s e).registered key = (s.registered key || sets s e) := by
    intro s e
    cases e with
    | constructed sv => exact (registerKeyNotification_spec sv s key).2.2
    | queried sv => exact (userPhysicalPresent_spec sv s key).2.2
    | pressed pressed => exact (press_spec s key pressed).2.2.trans (Bool.or_false _).symm
  have hsets : ∀ before call, sets (run before) call = call.registers before key := by
    intro before call
    cases call with
    | constructed sv => exact congrArg (fun b => (b || _) && _) (run_simpleEx before)
    | queried sv => exact congrArg (fun b => !b && _ && _) (run_simpleEx before)
    | pressed _ => rfl
  have hinitial : initial.registered key = false := by cases key <;> rfl
  have h := flag_iff (fun s => State.registered s key) hstep events initial
  refine h.trans ((or_iff_right (Bool.eq_false_iff.mp hinitial)).trans ?_)
  refine exists_congr fun before => exists_congr fun call => exists_congr fun after => ?_
  rw [← hsets]
  rfl

theorem notified_iff (events : List Event) : (run events).notified = true ↔ Notified events := by
  let sets (s : State) : Event → Bool
    | .pressed key => s.registered key
    | _ => false
  have hstep : ∀ s e, (step s e).notified = (s.notified || sets s e) := by
    intro s e
    cases e with
    | constructed sv =>
        exact (registerKeyNotification_spec sv s .up).2.1.trans (Bool.or_false _).symm
    | queried sv => exact (userPhysicalPresent_spec sv s .up).2.1.trans (Bool.or_false _).symm
    | pressed key => exact (press_spec s .up key).2.1
  refine (flag_iff State.notified hstep events initial).trans
    ((or_iff_right Bool.false_ne_true).trans ⟨?_, ?_⟩)
  · rintro ⟨before, call, after, hsplit, hset⟩
    cases call with
    | pressed key => exact ⟨before, key, after, hsplit, (registered_iff key before).mp hset⟩
    | constructed _ => exact absurd hset Bool.false_ne_true
    | queried _ => exact absurd hset Bool.false_ne_true
  · rintro ⟨before, key, after, hsplit, hkey⟩
    exact ⟨before, .pressed key, after, hsplit, (registered_iff key before).mpr hkey⟩

/-! ## The answers -/

/-- The answer, once the keypad has been found, and before. -/
theorem userPhysicalPresent_answer (before : List Event) (sv : Services) :
    (userPhysicalPresent sv (run before)).1 =
      if before.any Event.finds || sv.finds then (run before).notified else true := by
  have h := tracks_userPhysicalPresent sv (tracks_run before)
  have hflag : (userPhysicalPresent sv (run before)).1
      = (userPhysicalPresent sv (run before)).2.mUserPhysicalPresence := rfl
  cases hfound : before.any Event.finds || sv.finds with
  | true => rw [hflag, h.kept hfound, (userPhysicalPresent_spec sv _ .up).2.1, if_pos rfl]
  | false =>
      -- Before the keypad is found the state is the initial one, with the flag TRUE.
      rw [hflag, h.untouched hfound]
      rfl

theorem onlyAfterNotification_iff (events : List Event) :
    OnlyAfterNotification events ↔ KeypadFirst events := by
  constructor
  · intro h before sv after hsplit
    by_contra hnone
    rw [← Bool.or_eq_true, Bool.not_eq_true] at hnone
    -- A query before the keypad: it is answered TRUE, and nothing was notified.
    have hbefore : before.any Event.finds = false := (Bool.or_eq_false_iff.mp hnone).1
    have hpresent := userPhysicalPresent_answer before sv
    rw [hnone, if_neg Bool.false_ne_true] at hpresent
    have hnotified := (notified_iff before).mpr (h before sv after hsplit hpresent)
    rw [(tracks_run before).untouched hbefore] at hnotified
    exact Bool.false_ne_true hnotified
  · intro h before sv after hsplit hpresent
    have hfound := h before sv after hsplit
    rw [← Bool.or_eq_true] at hfound
    rw [userPhysicalPresent_answer, hfound, if_pos rfl] at hpresent
    exact (notified_iff before).mp hpresent

theorem staysPresent (events : List Event) : StaysPresent events := by
  intro before sv after _ _ _ hnotified
  rw [userPhysicalPresent_answer, (notified_iff before).mpr hnotified]
  split <;> rfl

/-- The flag is TRUE until the keypad is found: the contract holds in exactly the runs in
    which no query comes earlier. -/
theorem userPhysicalPresent_contract_iff (events : List Event) :
    OnlyAfterNotification events ∧ StaysPresent events ↔ KeypadFirst events := by
  rw [onlyAfterNotification_iff]
  exact and_iff_left (staysPresent events)

/-- The keypad's driver has not been dispatched. -/
def noKeypad : Services := ⟨.notFound, .notFound, false, .notFound, .notFound⟩

theorem userPhysicalPresent_before_keypad :
    (userPhysicalPresent noKeypad (run [.constructed noKeypad])).1 = true ∧
      ¬(OnlyAfterNotification [.constructed noKeypad, .queried noKeypad] ∧
        StaysPresent [.constructed noKeypad, .queried noKeypad]) := by
  refine ⟨rfl, ?_⟩
  rintro ⟨h, -⟩
  have hnotified := h [.constructed noKeypad] noKeypad [] rfl rfl
  exact Bool.false_ne_true ((notified_iff _).mpr hnotified)

end PlatformSecure
