/-
  MsmnilePkg.DeviceBootManager.MsPreBootChecks

  DeviceBootManagerLib.c: the power and thermal checks before boot.

  What the platform's calls report is given for each round.  `ResetSystem` does not
  return, so the first shutdown ends the run.  Left out are the text that is
  printed, the telemetry, the timer event itself and the status of a wait, which is only
  printed.
-/

import MsmnilePkg.Efi
import MsmnilePkg.Lib.Loop
import Mathlib.Order.Lattice

namespace DeviceBootManager

open Efi Loop

/-- What the calls of one round report: a status, and what `PowerGood` or `ThermalGood`
    is afterwards. -/
structure Round where
  systemPowerCheck : Status × Bool
  systemPowerMitigate : Status
  systemThermalCheck : Status × Bool

structure Platform where
  /-- `PcdPowerAndThermalRetries` -/
  retries : BitVec 32
  createEvent : Status
  round : Nat → Round

/-- The variables of `MsPreBootChecks`, the number of waits for the timer, and the rounds
    so far. -/
structure Checks where
  status : Status
  thermalGood : Bool
  powerGood : Bool
  retryCount : BitVec 32
  thermalFailureCount : BitVec 32
  waits : Nat
  rounds : Nat

/-- How the checks end. -/
inductive Outcome where
  | thermalShutdown
  | powerShutdown
  | returned (status : Status)
deriving DecidableEq

structure Ended where
  checks : Checks
  outcome : Outcome

def start (p : Platform) : Checks where
  status := p.createEvent
  thermalGood := true
  powerGood := true
  retryCount := p.retries
  thermalFailureCount := 1
  waits := 0
  rounds := 0

/-- The first half of a round, which a failed mitigation leaves for `CleanUp`. -/
def checkPower (r : Round) (s : Checks) : Turn Checks :=
  let s := { s with status := r.systemPowerCheck.1, powerGood := r.systemPowerCheck.2 }
  if !s.status.isError && !s.powerGood then
    let s := { s with status := r.systemPowerMitigate }
    if s.status.isError then .leave { s with powerGood := false }
    -- Enough power to go on, but the flag stays, so that there is another round.
    else .again s
  else .again { s with powerGood := true }

/-- The second half. -/
def checkThermal (r : Round) (s : Checks) : Checks :=
  let s := { s with status := r.systemThermalCheck.1, thermalGood := r.systemThermalCheck.2 }
  if !s.status.isError && !s.thermalGood then
    { s with
      thermalFailureCount :=
        if s.thermalFailureCount < 3#32 then s.thermalFailureCount + 1#32
        else s.thermalFailureCount
      waits := if 0 < s.retryCount.toInt then s.waits + 1 else s.waits }
  else { s with thermalGood := true }

/-- A turn of the `do` loop, with the test behind it. -/
def round (p : Platform) (s : Checks) : Turn Checks :=
  let r := p.round s.rounds
  match checkPower r { s with rounds := s.rounds + 1 } with
  | .leave s => .leave s
  | .again s =>
      let s := checkThermal r s
      -- RetryCount is counted down whether or not the test succeeds.
      let next := { s with retryCount := s.retryCount - 1#32 }
      if 0 < s.retryCount.toInt ∧ (!s.thermalGood || !s.powerGood) then .again next
      else .leave next

/-- `CleanUp` -/
def cleanUp (s : Checks) : Outcome :=
  if !s.thermalGood then .thermalShutdown
  else if !s.powerGood then .powerShutdown
  else .returned s.status

/-- `MsPreBootChecks`, given up after `fuel` rounds. -/
def msPreBootChecks (p : Platform) (fuel : Nat) : Option Ended :=
  if p.createEvent.isError then some ⟨start p, cleanUp (start p)⟩
  else (tryLoop (fun s => some (round p s)) fuel (start p)).map fun s => ⟨s, cleanUp s⟩

/-! ## What a round reports -/

/-- The thermal check succeeded and reported not good. -/
def Round.hot (r : Round) : Bool := !r.systemThermalCheck.1.isError && !r.systemThermalCheck.2

/-- The power check succeeded and reported not good. -/
def Round.low (r : Round) : Bool := !r.systemPowerCheck.1.isError && !r.systemPowerCheck.2

/-- The mitigation was tried and failed. -/
def Round.failed (r : Round) : Bool := r.low && r.systemPowerMitigate.isError

/-- Another round is asked for. -/
def Round.again (r : Round) : Bool := !r.failed && (r.hot || r.low)

/-- What a round without a failed mitigation asks for, were it the last one. -/
def Round.Decides (r : Round) : Outcome → Prop
  | .thermalShutdown => r.hot
  | .powerShutdown => !r.hot && r.low
  | .returned _ => !r.hot && !r.low

/-- `max (retries, 0)` -/
def Platform.limit (p : Platform) : Nat := p.retries.toInt.toNat

/-- The number of the last round. -/
def Platform.last (p : Platform) : Nat := lastTry (fun k => (p.round k).again) p.limit

/-- The outcome is the one that the rounds ask for. -/
structure AsReported (p : Platform) (e : Ended) : Prop where
  bound : e.checks.rounds ≤ p.limit + 1
  mitigationFailed : (∃ k < e.checks.rounds, (p.round k).failed = true) →
    e.outcome = .powerShutdown
  decided : (∀ k < e.checks.rounds, (p.round k).failed = false) →
    ∀ n, e.checks.rounds = n + 1 → (p.round n).Decides e.outcome
  noRound : e.checks.rounds = 0 → ∃ status, e.outcome = .returned status

/-- The checks end within `limit + 1` rounds, as the rounds ask. -/
def EndsAsReported (p : Platform) : Prop :=
  ∃ e, (∀ fuel, p.limit + 1 ≤ fuel → msPreBootChecks p fuel = some e) ∧ AsReported p e

/-- A hot round is followed by one whose mitigation fails. -/
def StaleHeat (p : Platform) : Prop :=
  p.createEvent.isError = false ∧
    ∃ k < p.limit, (∀ j ≤ k, (p.round j).again = true) ∧ (p.round k).hot = true ∧
      (p.round (k + 1)).failed = true

/-! ## One round -/

section Halves

variable {r : Round}

theorem checkPower_of_failed (h : r.failed = true) (s : Checks) :
    checkPower r s = .leave { s with status := r.systemPowerMitigate, powerGood := false } := by
  rw [Round.failed, Round.low, Bool.and_eq_true] at h
  obtain ⟨hlow, hmitigate⟩ := h
  rw [checkPower]
  simp only [hlow, hmitigate, if_true]

theorem checkPower_of_low (hlow : r.low = true) (hfailed : r.failed = false) (s : Checks) :
    checkPower r s = .again { s with status := r.systemPowerMitigate, powerGood := false } := by
  rw [Round.failed, hlow, Bool.true_and] at hfailed
  rw [Round.low, Bool.and_eq_true, Bool.not_eq_true', Bool.not_eq_true'] at hlow
  obtain ⟨herror, hgood⟩ := hlow
  -- Mitigated, but PowerGood is not set again before the next round.
  rw [checkPower]
  simp only [herror, hgood, hfailed]
  rfl

theorem checkPower_of_not_low (h : r.low = false) (s : Checks) :
    checkPower r s = .again { s with status := r.systemPowerCheck.1, powerGood := true } := by
  rw [Round.low] at h
  rw [checkPower]
  simp only [h]
  rfl

/-- What a half leaves of the state but for the flag of the other one. -/
theorem checkPower_of_not_failed (h : r.failed = false) (s : Checks) :
    ∃ status, checkPower r s = .again { s with status, powerGood := !r.low } := by
  by_cases hlow : r.low = true
  · rw [checkPower_of_low hlow h, hlow]
    exact ⟨_, rfl⟩
  · rw [Bool.not_eq_true] at hlow
    rw [checkPower_of_not_low hlow, hlow]
    exact ⟨_, rfl⟩

theorem checkThermal_spec (r : Round) (s : Checks) :
    ∃ status failures waits, checkThermal r s =
      { s with status, thermalGood := !r.hot, thermalFailureCount := failures, waits } := by
  rw [checkThermal]
  -- Both branches set ThermalGood to what the check reports; an error counts as good.
  by_cases hhot : r.hot = true
  · rw [Round.hot, Bool.and_eq_true, Bool.not_eq_true', Bool.not_eq_true'] at hhot
    obtain ⟨herror, hgood⟩ := hhot
    simp only [Round.hot, herror, hgood]
    exact ⟨_, _, _, rfl⟩
  · rw [Bool.not_eq_true, Round.hot] at hhot
    simp only [Round.hot, hhot]
    exact ⟨_, s.thermalFailureCount, s.waits, rfl⟩

end Halves

section Round

variable {p : Platform} {s : Checks}

theorem round_of_failed (h : (p.round s.rounds).failed = true) :
    ∃ t, round p s = .leave t ∧ t.thermalGood = s.thermalGood ∧ t.powerGood = false ∧
      t.rounds = s.rounds + 1 := by
  rw [round, checkPower_of_failed h]
  exact ⟨_, rfl, rfl, rfl, rfl⟩

/-- What a round leaves when no mitigation fails in it. -/
structure Settled (p : Platform) (s t : Checks) : Prop where
  thermal : t.thermalGood = !(p.round s.rounds).hot
  power : t.powerGood = !(p.round s.rounds).low
  retries : t.retryCount = s.retryCount - 1#32
  rounds : t.rounds = s.rounds + 1

theorem round_of_not_failed (h : (p.round s.rounds).failed = false) :
    ∃ t, Settled p s t ∧
      round p s = if 0 < s.retryCount.toInt ∧ (p.round s.rounds).again then .again t
        else .leave t := by
  obtain ⟨status, hpower⟩ := checkPower_of_not_failed h { s with rounds := s.rounds + 1 }
  obtain ⟨status', failures, waits, hthermal⟩ := checkThermal_spec (p.round s.rounds)
    { s with status, powerGood := !(p.round s.rounds).low, rounds := s.rounds + 1 }
  rw [round, hpower]
  simp only [hthermal, Round.again, h, Bool.not_not, Bool.not_false, Bool.true_and]
  exact ⟨_, ⟨rfl, rfl, rfl, rfl⟩, rfl⟩

end Round

/-! ## The run -/

theorem toInt_sub_one {x : BitVec 32} (h : 0 < x.toInt) : (x - 1#32).toInt = x.toInt - 1 := by
  have hhigh := BitVec.toInt_lt (x := x)
  have hone : (1#32).toInt = 1 := rfl
  rw [BitVec.toInt_sub, hone]
  exact Int.bmod_eq_of_le (by omega) (by omega)

section Run

variable (p : Platform)

/-- The state before round `k`. -/
def before : Nat → Checks
  | 0 => start p
  | k + 1 => (round p (before k)).state

theorem before_rounds (k : Nat) : (before p k).rounds = k := by
  induction k with
  | zero => rfl
  | succ k ih =>
      rw [before]
      -- Each round is counted, a failed mitigation or not.
      by_cases hfailed : (p.round (before p k).rounds).failed = true
      · obtain ⟨t, hround, _, _, hrounds⟩ := round_of_failed hfailed
        rw [hround, Turn.state, hrounds, ih]
      · rw [Bool.not_eq_true] at hfailed
        obtain ⟨t, hsettled, hround⟩ := round_of_not_failed hfailed
        have hstate : (round p (before p k)).state = t := by
          rw [hround]
          split <;> rfl
        rw [hstate, hsettled.rounds, ih]

/-- A round without a failed mitigation, by its number. -/
theorem round_before {k : Nat} (h : (p.round k).failed = false) :
    Settled p (before p k) (before p (k + 1)) ∧
      round p (before p k) =
        if 0 < (before p k).retryCount.toInt ∧ (p.round k).again then
          .again (before p (k + 1))
        else .leave (before p (k + 1)) := by
  rw [← before_rounds p k] at h
  obtain ⟨t, hsettled, hround⟩ := round_of_not_failed h
  rw [before_rounds] at hround
  have hstate : before p (k + 1) = t := by
    rw [before, hround]
    split <;> rfl
  rw [hstate]
  exact ⟨hsettled, hround⟩

variable {p}

theorem before_retryCount {k : Nat} (hk : k ≤ p.limit)
    (h : ∀ j < k, (p.round j).failed = false) :
    (before p k).retryCount.toInt = p.retries.toInt - k := by
  induction k with
  | zero => simp [before, start]
  | succ k ih =>
      -- Up to the limit the counter is positive before each round, so it does not wrap.
      have hprev := ih (by omega) fun j hj => h j (by omega)
      have hlimit : p.limit = p.retries.toInt.toNat := rfl
      rw [(round_before p (h k (Nat.lt_succ_self k))).1.retries, toInt_sub_one (by omega), hprev]
      omega

theorem Round.not_failed_of_again {r : Round} (h : r.again = true) : r.failed = false := by
  rw [Round.again, Bool.and_eq_true] at h
  simpa using h.1

theorem again_of_lt_last {k : Nat} (h : k < p.last) : (p.round k).again = true :=
  again_of_lt_lastTry (fun k => (p.round k).again) h

theorem last_le_limit : p.last ≤ p.limit := lastTry_le _ _

/-- Each round but the last one is followed by another. -/
theorem round_of_lt_last {k : Nat} (h : k < p.last) :
    round p (before p k) = .again (before p (k + 1)) := by
  have hle : p.last ≤ p.limit := last_le_limit
  have hlimit : p.limit = p.retries.toInt.toNat := rfl
  have hagain := again_of_lt_last h
  -- A retry is left, and the round asks for another.
  have hcount := before_retryCount (p := p) (k := k) (by omega) fun j hj =>
    Round.not_failed_of_again (again_of_lt_last (by omega))
  rw [(round_before p (Round.not_failed_of_again hagain)).2, if_pos ⟨by omega, hagain⟩]

/-- How the last round is left. -/
theorem round_last :
    ∃ t, round p (before p p.last) = .leave t ∧ t.rounds = p.last + 1 ∧
      ((p.round p.last).failed = true →
        t.thermalGood = (before p p.last).thermalGood ∧ t.powerGood = false) ∧
      ((p.round p.last).failed = false →
        t.thermalGood = !(p.round p.last).hot ∧ t.powerGood = !(p.round p.last).low) := by
  by_cases hfailed : (p.round p.last).failed = true
  · -- A failed mitigation leaves the loop, with ThermalGood as it was.
    have hfailed' := hfailed
    rw [← before_rounds p p.last] at hfailed'
    obtain ⟨t, hround, hthermal, hpower, hrounds⟩ := round_of_failed hfailed'
    rw [before_rounds] at hrounds
    exact ⟨t, hround, hrounds, fun _ => ⟨hthermal, hpower⟩, fun h => by simp [hfailed] at h⟩
  · rw [Bool.not_eq_true] at hfailed
    obtain ⟨hsettled, hround⟩ := round_before p hfailed
    have hcount := before_retryCount (p := p) last_le_limit fun j hj =>
      Round.not_failed_of_again (again_of_lt_last hj)
    have hlimit : p.limit = p.retries.toInt.toNat := rfl
    -- Either no retry is left or none is asked for.
    have hleave : ¬(0 < (before p p.last).retryCount.toInt ∧ (p.round p.last).again) := by
      rintro ⟨hpos, hagain⟩
      rcases lastTry_settled (fun k => (p.round k).again) p.limit with hlast | hlast
      · rw [show p.last = p.limit from hlast] at hcount hpos
        omega
      · rw [show (p.round p.last).again = false from hlast] at hagain
        exact Bool.false_ne_true hagain
    rw [if_neg hleave] at hround
    refine ⟨before p (p.last + 1), hround, before_rounds p _, ?_, fun _ => ?_⟩
    · intro h
      simp [hfailed] at h
    · have hthermal := hsettled.thermal
      have hpower := hsettled.power
      rw [before_rounds] at hthermal hpower
      exact ⟨hthermal, hpower⟩

theorem before_last_thermalGood :
    (before p p.last).thermalGood = false ↔
      ∃ k, p.last = k + 1 ∧ (p.round k).hot = true := by
  cases hlast : p.last with
  | zero => simp [before, start]
  | succ k =>
      -- The flag is that of the round before the last one.
      have hagain := again_of_lt_last (p := p) (k := k) (by omega)
      have hthermal := (round_before p (Round.not_failed_of_again hagain)).1.thermal
      rw [before_rounds] at hthermal
      rw [hthermal]
      simp

/-- The run, when the timer event could be created. -/
theorem msPreBootChecks_run (hcreate : p.createEvent.isError = false) :
    ∃ t, (∀ fuel, p.limit + 1 ≤ fuel → msPreBootChecks p fuel = some ⟨t, cleanUp t⟩) ∧
      t.rounds = p.last + 1 ∧
      ((p.round p.last).failed = true →
        t.thermalGood = (before p p.last).thermalGood ∧ t.powerGood = false) ∧
      ((p.round p.last).failed = false →
        t.thermalGood = !(p.round p.last).hot ∧ t.powerGood = !(p.round p.last).low) := by
  obtain ⟨t, hround, hrounds, hleft⟩ := round_last (p := p)
  refine ⟨t, ?_, hrounds, hleft⟩
  intro fuel hfuel
  have hle : p.last ≤ p.limit := last_le_limit
  -- The loop goes through the states before each round up to the last.
  have hrun : tryLoop (fun s => some (round p s)) fuel (before p 0) = some t :=
    tryLoop_of_turns (before p) (fun k hk => congrArg some (round_of_lt_last hk))
      (congrArg some hround) (by omega)
  rw [before] at hrun
  rw [msPreBootChecks, hcreate, hrun]
  rfl

/-! ## The outcome -/

theorem cleanUp_decides {r : Round} {t : Checks} (hthermal : t.thermalGood = !r.hot)
    (hpower : t.powerGood = !r.low) : r.Decides (cleanUp t) := by
  rw [cleanUp, hthermal, hpower]
  cases hhot : r.hot <;> cases hlow : r.low <;> simp [Round.Decides, hhot, hlow]

theorem staleHeat_iff (hcreate : p.createEvent.isError = false) :
    StaleHeat p ↔ (p.round p.last).failed = true ∧ (before p p.last).thermalGood = false := by
  rw [before_last_thermalGood]
  constructor
  · rintro ⟨-, k, hk, hagain, hhot, hfailed⟩
    -- No other round can be the last one.
    have hlast : p.last = k + 1 := by
      apply lastTry_eq (by omega)
      · intro j hj
        exact hagain j (by omega)
      · simp [Round.again, hfailed]
    exact ⟨by rw [hlast, hfailed], k, hlast, hhot⟩
  · rintro ⟨hfailed, k, hlast, hhot⟩
    have hle : p.last ≤ p.limit := last_le_limit
    refine ⟨hcreate, k, by omega, fun j hj => again_of_lt_last (by omega), hhot, ?_⟩
    rw [← hlast, hfailed]

end Run

/-- The checks end as the rounds ask, unless the mitigation fails right after a hot round. -/
theorem msPreBootChecks_endsAsReported_iff (p : Platform) :
    EndsAsReported p ↔ ¬StaleHeat p := by
  cases hcreate : p.createEvent.isError with
  | true =>
      -- Without the timer event there is no round, and the status is returned.
      have hrun : ∀ fuel, msPreBootChecks p fuel = some ⟨start p, .returned p.createEvent⟩ := by
        intro fuel
        rw [msPreBootChecks, hcreate]
        rfl
      have hnot : ¬StaleHeat p := by
        rintro ⟨hok, _⟩
        rw [hcreate] at hok
        exact Bool.false_ne_true hok.symm
      refine iff_of_true ⟨_, fun fuel _ => hrun fuel, ?_⟩ hnot
      refine ⟨Nat.zero_le _, ?_, ?_, fun _ => ⟨_, rfl⟩⟩
      · rintro ⟨k, hk, _⟩
        exact absurd hk (Nat.not_lt_zero k)
      · intro _ n hn
        exact absurd hn (Nat.succ_ne_zero n).symm
  | false =>
      obtain ⟨t, hrun, hrounds, hfailed, hsettled⟩ := msPreBootChecks_run hcreate
      have hbound : t.rounds ≤ p.limit + 1 := by
        rw [hrounds]
        exact Nat.succ_le_succ last_le_limit
      rw [staleHeat_iff hcreate]
      constructor
      · rintro ⟨e, hrun', hreported⟩ ⟨hbad, hstale⟩
        obtain rfl : (⟨t, cleanUp t⟩ : Ended) = e := Option.some.inj <|
          (hrun (p.limit + 1) (Nat.le_refl _)).symm.trans (hrun' _ (Nat.le_refl _))
        -- The outcome would be the power shutdown, but CleanUp looks at the heat first.
        have hpower := hreported.mitigationFailed ⟨p.last, by rw [hrounds]; omega, hbad⟩
        have hthermal : cleanUp t = .thermalShutdown := by
          rw [cleanUp, (hfailed hbad).1, hstale]
          rfl
        rw [hthermal] at hpower
        exact Outcome.noConfusion hpower
      · intro hgood
        have hone : t.rounds ≠ 0 := by omega
        refine ⟨⟨t, cleanUp t⟩, hrun, hbound, ?_, ?_, fun h => absurd h hone⟩
        · rintro ⟨k, hk, hbad⟩
          -- Only the last round can have a failed mitigation.
          obtain rfl : k = p.last := by
            rcases Nat.lt_or_ge k p.last with h | h
            · have hagain := Round.not_failed_of_again (again_of_lt_last h)
              rw [hbad] at hagain
              exact absurd hagain.symm Bool.false_ne_true
            · show k = p.last
              have : k < t.rounds := hk
              omega
          obtain ⟨hthermal, hpower⟩ := hfailed hbad
          have hkept : t.thermalGood = true := by
            rw [hthermal]
            simpa using fun h => hgood ⟨hbad, h⟩
          show cleanUp t = .powerShutdown
          rw [cleanUp, hkept, hpower]
          rfl
        · intro hall n hn
          obtain rfl : n = p.last := by
            have : t.rounds = n + 1 := hn
            omega
          obtain ⟨hthermal, hpower⟩ := hsettled (hall _ (by rw [hrounds]; omega))
          exact cleanUp_decides hthermal hpower

/-- One retry; the first round is hot, and in the second one the mitigation fails. -/
def hotThenLow : Platform where
  retries := 1#32
  createEvent := .success
  round k :=
    if k = 0 then ⟨(.success, true), .success, (.success, false)⟩
    else ⟨(.success, false), .otherError 7, (.success, true)⟩

theorem hotThenLow_thermalShutdown :
    ((msPreBootChecks hotThenLow 2).map Ended.outcome = some .thermalShutdown ∧
      (hotThenLow.round 1).failed = true) ∧ ¬EndsAsReported hotThenLow := by
  have hend : (msPreBootChecks hotThenLow 2).map (fun e => (e.outcome, e.checks.rounds))
      = some (.thermalShutdown, 2) := by decide
  refine ⟨⟨by decide, by decide⟩, ?_⟩
  rintro ⟨e, hrun, hreported⟩
  rw [hrun 2 (by decide), Option.map_some, Option.some.injEq, Prod.mk.injEq] at hend
  have hpower := hreported.mitigationFailed ⟨1, by omega, by decide⟩
  rw [hend.1] at hpower
  exact Outcome.noConfusion hpower

end DeviceBootManager
