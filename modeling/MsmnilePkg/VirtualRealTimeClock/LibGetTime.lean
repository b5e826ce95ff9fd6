/-
  MsmnilePkg.VirtualRealTimeClock.LibGetTime

  VirtualRealTimeClockLib.c: the clock that tells the up-time of the processor.

  The seconds since the timer began to count are split into days, hours,
  minutes and seconds.  `Day` is a byte that counts the days of up-time: there is no
  month to carry into.  `Pad1` and `Pad2` of `EFI_TIME` are not touched and left out,
  and so is the assertion that repeats the test for `Freq == 0`.
-/

import MsmnilePkg.Efi
import MsmnilePkg.Lib.Places
import Mathlib.Algebra.Group.Nat.Defs
import Mathlib.Order.Lattice

namespace VirtualRealTimeClock

open Efi Places

/-- `EFI_TIME` -/
structure EfiTime where
  year : BitVec 16
  month : BitVec 8
  day : BitVec 8
  hour : BitVec 8
  minute : BitVec 8
  second : BitVec 8
  nanosecond : BitVec 32
  timeZone : BitVec 16
  daylight : BitVec 8
deriving DecidableEq

/-- `EFI_TIME_CAPABILITIES` -/
structure Capabilities where
  resolution : BitVec 32
  accuracy : BitVec 32
  setsToZero : Bool
deriving DecidableEq

/-- `EFI_DEVICE_ERROR` -/
def deviceError : Status := .otherError 7

/-- `LibRtcInitialize`, which sets two fields of `BaseTime`. -/
def libRtcInitialize (baseTime : EfiTime) : EfiTime :=
  { baseTime with year := 2019#16, month := 1#8 }

def secondsPerDay : BitVec 64 := 24#64 * 60#64 * 60#64
def secondsPerHour : BitVec 64 := 60#64 * 60#64
def secondsPerMinute : BitVec 64 := 60#64

/-- The status, and what the two pointers of the caller lead to afterwards. -/
structure Reply where
  status : Status
  time : Option EfiTime
  capabilities : Option Capabilities
deriving DecidableEq

/-- `LibGetTime`, where `none` is `NULL`. -/
def libGetTime (baseTime : EfiTime) (freq : BitVec 32) (counter : BitVec 64)
    (time : Option EfiTime) (capabilities : Option Capabilities) : Reply :=
  match time with
  | none => ⟨.invalidParameter, none, capabilities⟩
  | some old =>
      if freq = 0#32 then ⟨deviceError, some old, capabilities⟩
      else
        let elapsedSeconds := counter / freq.setWidth 64
        let day := elapsedSeconds / secondsPerDay
        let elapsedSeconds := elapsedSeconds % secondsPerDay
        let hour := elapsedSeconds / secondsPerHour
        let elapsedSeconds := elapsedSeconds % secondsPerHour
        let minute := elapsedSeconds / secondsPerMinute
        let elapsedSeconds := elapsedSeconds % secondsPerMinute
        -- Each assignment to a byte of the time cuts the quotient to 8 bits.
        { status := .success
          time := some
            { year := baseTime.year
              month := baseTime.month
              day := day.setWidth 8
              hour := hour.setWidth 8
              minute := minute.setWidth 8
              second := elapsedSeconds.setWidth 8
              nanosecond := 0
              timeZone := 0
              daylight := 0 }
          capabilities := capabilities.map fun _ =>
            { resolution := freq, accuracy := 0, setsToZero := false } }

/-! ## What a time stands for -/

/-- The fields that order two times, the year first. -/
def EfiTime.fields (t : EfiTime) : List Nat :=
  [t.year.toNat, t.month.toNat, t.day.toNat, t.hour.toNat, t.minute.toNat, t.second.toNat,
    t.nanosecond.toNat]

/-- The seconds in a day, an hour and a minute. -/
def units : List Nat := [86400, 3600, 60]

/-- `Day`, `Hour`, `Minute` and `Second` as seconds. -/
def EfiTime.seconds (t : EfiTime) : Nat :=
  total units [t.day.toNat, t.hour.toNat, t.minute.toNat, t.second.toNat]

structure EfiTime.ValidClock (t : EfiTime) : Prop where
  hour : t.hour.toNat < 24
  minute : t.minute.toNat < 60
  second : t.second.toNat < 60

def EfiTime.ValidDay (t : EfiTime) : Prop := 1 ≤ t.day.toNat ∧ t.day.toNat ≤ 31

instance (t : EfiTime) : Decidable t.ValidDay := inferInstanceAs (Decidable (_ ∧ _))

/-- Whole seconds of up-time at a reading of the counter. -/
def upSeconds (freq : BitVec 32) (counter : BitVec 64) : Nat := counter.toNat / freq.toNat

/-- Whole days of up-time. -/
def upDays (freq : BitVec 32) (counter : BitVec 64) : Nat := upSeconds freq counter / 86400

/-- Two times are ordered as the readings `c` and `d`, and as far apart. -/
structure Relates (freq : BitVec 32) (c d : BitVec 64) (t u : EfiTime) : Prop where
  ordered : t.fields ≤ u.fields
  strictly : t.fields < u.fields ↔ upSeconds freq c < upSeconds freq d
  apart : (u.seconds : Int) - t.seconds = upSeconds freq d - upSeconds freq c

/-- Both replies are successes with valid times, related as the readings `c` and `d`. -/
def TellsUpTime (freq : BitVec 32) (c d : BitVec 64) (r r' : Reply) : Prop :=
  r.status = .success ∧ r'.status = .success ∧ ∃ t u : EfiTime,
    r.time = some t ∧ r'.time = some u ∧ t.ValidClock ∧ u.ValidClock ∧ t.ValidDay ∧ u.ValidDay ∧
      Relates freq c d t u

/-- Both readings fall on the days 1 to 31 of one period of 256 days. -/
def OneMonth (freq : BitVec 32) (c d : BitVec 64) : Prop :=
  ∃ k, 256 * k + 1 ≤ upDays freq c ∧ upDays freq d ≤ 256 * k + 31

/-! ## The time that is returned -/

/-- The time of a successful call. -/
def timeAt (baseTime : EfiTime) (freq : BitVec 32) (counter : BitVec 64) : EfiTime :=
  let up := upSeconds freq counter
  { year := baseTime.year
    month := baseTime.month
    day := BitVec.ofNat 8 (up / 86400)
    hour := BitVec.ofNat 8 (up % 86400 / 3600)
    minute := BitVec.ofNat 8 (up % 86400 % 3600 / 60)
    second := BitVec.ofNat 8 (up % 86400 % 3600 % 60)
    nanosecond := 0
    timeZone := 0
    daylight := 0 }

theorem libGetTime_success (baseTime : EfiTime) {freq : BitVec 32} (hfreq : freq ≠ 0#32)
    (counter : BitVec 64) (old : EfiTime) (capabilities : Option Capabilities) :
    libGetTime baseTime freq counter (some old) capabilities =
      ⟨.success, some (timeAt baseTime freq counter),
        capabilities.map fun _ => ⟨freq, 0, false⟩⟩ := by
  -- A frequency of 32 bits and the units fit, so the divisions are those of numbers.
  have hup : (counter / freq.setWidth 64).toNat = upSeconds freq counter := by
    rw [BitVec.toNat_udiv, BitVec.toNat_setWidth,
      Nat.mod_eq_of_lt (show freq.toNat < 2 ^ 64 by omega), upSeconds]
  have hday : secondsPerDay.toNat = 86400 := rfl
  have hhour : secondsPerHour.toNat = 3600 := rfl
  have hminute : secondsPerMinute.toNat = 60 := rfl
  have hcut : ∀ q : BitVec 64, q.setWidth 8 = BitVec.ofNat 8 q.toNat := fun q =>
    BitVec.eq_of_toNat_eq (by rw [BitVec.toNat_setWidth, BitVec.toNat_ofNat])
  show (if freq = 0#32 then _ else _) = _
  rw [if_neg hfreq]
  simp only [hcut, BitVec.toNat_udiv, BitVec.toNat_umod, hup, hday, hhour, hminute, timeAt]

section Time

variable (baseTime : EfiTime) (freq : BitVec 32) (counter : BitVec 64)

theorem timeAt_day :
    (timeAt baseTime freq counter).day.toNat = upDays freq counter % 256 := by
  rw [timeAt, BitVec.toNat_ofNat, upDays]

theorem timeAt_hour :
    (timeAt baseTime freq counter).hour.toNat = upSeconds freq counter % 86400 / 3600 := by
  rw [timeAt, BitVec.toNat_ofNat]
  omega

theorem timeAt_minute :
    (timeAt baseTime freq counter).minute.toNat =
      upSeconds freq counter % 86400 % 3600 / 60 := by
  rw [timeAt, BitVec.toNat_ofNat]
  omega

theorem timeAt_second :
    (timeAt baseTime freq counter).second.toNat =
      upSeconds freq counter % 86400 % 3600 % 60 := by
  rw [timeAt, BitVec.toNat_ofNat]
  omega

theorem timeAt_validClock : (timeAt baseTime freq counter).ValidClock where
  hour := by
    rw [timeAt_hour]
    omega
  minute := by
    rw [timeAt_minute]
    omega
  second := by
    rw [timeAt_second]
    omega

/-- The up-time since `Day` was last 0, which is what the time shows. -/
def shownSeconds : Nat := upSeconds freq counter % (256 * 86400)

/-- The four fields are the places of the up-time that is shown. -/
theorem timeAt_places :
    [(timeAt baseTime freq counter).day.toNat, (timeAt baseTime freq counter).hour.toNat,
      (timeAt baseTime freq counter).minute.toNat, (timeAt baseTime freq counter).second.toNat]
      = split units (shownSeconds freq counter) := by
  have hday : upSeconds freq counter % (256 * 86400) / 86400 = upDays freq counter % 256 := by
    rw [upDays]
    omega
  have hrest : upSeconds freq counter % (256 * 86400) % 86400
      = upSeconds freq counter % 86400 := by omega
  rw [timeAt_day, timeAt_hour, timeAt_minute, timeAt_second]
  simp only [units, split, shownSeconds, hday, hrest]

theorem timeAt_seconds :
    (timeAt baseTime freq counter).seconds = shownSeconds freq counter := by
  rw [EfiTime.seconds, timeAt_places, total_split]

end Time

/-- The order of two times is that of the up-times they show. -/
theorem timeAt_lt (baseTime : EfiTime) (freq : BitVec 32) (c d : BitVec 64) :
    (timeAt baseTime freq c).fields < (timeAt baseTime freq d).fields ↔
      shownSeconds freq c < shownSeconds freq d := by
  -- Year and month are the same in both, and the nanoseconds are zero.
  have hfields : ∀ a : BitVec 64, (timeAt baseTime freq a).fields =
      baseTime.year.toNat :: baseTime.month.toNat ::
        (split units (shownSeconds freq a) ++ [0]) := by
    intro a
    rw [← timeAt_places baseTime]
    rfl
  rw [hfields, hfields, ← split_lt_split units]
  simp only [List.cons_lt_cons_iff, lt_irrefl, true_and, false_or, split, units, List.cons_append,
    List.nil_append]

/-- Two readings of one period of 256 days show the difference between them. -/
theorem shownSeconds_apart {freq : BitVec 32} {c d : BitVec 64}
    (h : upDays freq c / 256 = upDays freq d / 256) :
    (shownSeconds freq d : Int) - shownSeconds freq c =
      upSeconds freq d - upSeconds freq c := by
  rw [upDays, upDays] at h
  rw [shownSeconds, shownSeconds]
  omega

/-- Readings that show the difference between them are of one period of 256 days. -/
theorem upDays_of_apart {freq : BitVec 32} {c d : BitVec 64}
    (h : (shownSeconds freq d : Int) - shownSeconds freq c =
      upSeconds freq d - upSeconds freq c) : upDays freq c / 256 = upDays freq d / 256 := by
  rw [shownSeconds, shownSeconds] at h
  rw [upDays, upDays]
  omega

theorem upSeconds_mono {freq : BitVec 32} {c d : BitVec 64} (h : c ≤ d) :
    upSeconds freq c ≤ upSeconds freq d :=
  Nat.div_le_div_right (BitVec.le_def.mp h)

theorem timeAt_relates (baseTime : EfiTime) {freq : BitVec 32} {c d : BitVec 64} (hle : c ≤ d)
    (h : upDays freq c / 256 = upDays freq d / 256) :
    Relates freq c d (timeAt baseTime freq c) (timeAt baseTime freq d) := by
  have hapart := shownSeconds_apart h
  have hmono : upSeconds freq c ≤ upSeconds freq d := upSeconds_mono hle
  refine ⟨?ordered, ?strictly, ?apart⟩
  case ordered =>
    rw [← not_lt, timeAt_lt]
    omega
  case strictly =>
    rw [timeAt_lt]
    omega
  case apart =>
    rw [timeAt_seconds, timeAt_seconds]
    exact hapart

/-- The times of two readings are valid times of day, the day is one of a month where the
    days of up-time are, and within a period of 256 days they tell the readings apart. -/
theorem libGetTime_upTime (baseTime : EfiTime) (freq : BitVec 32) (c d : BitVec 64)
    (timeC timeD : EfiTime) (capsC capsD : Option Capabilities) (hfreq : freq ≠ 0#32)
    (hle : c ≤ d) :
    ∃ t u : EfiTime,
      (libGetTime baseTime freq c (some timeC) capsC).status = .success ∧
      (libGetTime baseTime freq d (some timeD) capsD).status = .success ∧
      (libGetTime baseTime freq c (some timeC) capsC).time = some t ∧
      (libGetTime baseTime freq d (some timeD) capsD).time = some u ∧
      t.ValidClock ∧ u.ValidClock ∧
      (1 ≤ upDays freq c % 256 → upDays freq c % 256 ≤ 31 → t.ValidDay) ∧
      (1 ≤ upDays freq d % 256 → upDays freq d % 256 ≤ 31 → u.ValidDay) ∧
      (upDays freq c / 256 = upDays freq d / 256 → Relates freq c d t u) := by
  have hday : ∀ a, 1 ≤ upDays freq a % 256 → upDays freq a % 256 ≤ 31 →
      (timeAt baseTime freq a).ValidDay := by
    intro a hone hmonth
    rw [EfiTime.ValidDay, timeAt_day]
    exact ⟨hone, hmonth⟩
  rw [libGetTime_success baseTime hfreq, libGetTime_success baseTime hfreq]
  exact ⟨timeAt baseTime freq c, timeAt baseTime freq d, rfl, rfl, rfl, rfl,
    timeAt_validClock baseTime freq c, timeAt_validClock baseTime freq d, hday c, hday d,
    timeAt_relates baseTime hle⟩

/-- The whole days of up-time of two readings in order. -/
theorem oneMonth_iff {freq : BitVec 32} {c d : BitVec 64} (hle : c ≤ d) :
    OneMonth freq c d ↔ (1 ≤ upDays freq c % 256 ∧ upDays freq c % 256 ≤ 31) ∧
      (1 ≤ upDays freq d % 256 ∧ upDays freq d % 256 ≤ 31) ∧
      upDays freq c / 256 = upDays freq d / 256 := by
  have hmono : upDays freq c ≤ upDays freq d := Nat.div_le_div_right (upSeconds_mono hle)
  constructor
  · rintro ⟨k, hfirst, hlast⟩
    omega
  · rintro ⟨hc, hd, hperiod⟩
    exact ⟨upDays freq c / 256, by omega, by omega⟩

/-- The clock tells the up-time of two readings exactly when they fall into one month of
    days 1 to 31. -/
theorem libGetTime_tellsUpTime_iff (baseTime : EfiTime) (freq : BitVec 32) (c d : BitVec 64)
    (timeC timeD : EfiTime) (capsC capsD : Option Capabilities) (hfreq : freq ≠ 0#32)
    (hle : c ≤ d) :
    TellsUpTime freq c d (libGetTime baseTime freq c (some timeC) capsC)
      (libGetTime baseTime freq d (some timeD) capsD) ↔ OneMonth freq c d := by
  rw [oneMonth_iff hle]
  constructor
  · rw [libGetTime_success baseTime hfreq, libGetTime_success baseTime hfreq]
    rintro ⟨-, -, t, u, ht, hu, -, -, hdayT, hdayU, hrelates⟩
    obtain rfl := Option.some.inj ht
    obtain rfl := Option.some.inj hu
    have hapart := hrelates.apart
    rw [timeAt_seconds, timeAt_seconds] at hapart
    rw [EfiTime.ValidDay, timeAt_day] at hdayT hdayU
    exact ⟨hdayT, hdayU, upDays_of_apart hapart⟩
  · rintro ⟨hc, hd, hperiod⟩
    obtain ⟨t, u, hokT, hokU, ht, hu, hclockT, hclockU, hdayT, hdayU, hrelates⟩ :=
      libGetTime_upTime baseTime freq c d timeC timeD capsC capsD hfreq hle
    exact ⟨hokT, hokU, t, u, ht, hu, hclockT, hclockU, hdayT hc.1 hc.2, hdayU hd.1 hd.2,
      hrelates hperiod⟩

/-- A cleared `EFI_TIME`. -/
def clearedTime : EfiTime := ⟨0, 0, 0, 0, 0, 0, 0, 0, 0⟩

/-- What a timer of 19.2 MHz tells at a reading. -/
def sampleReply (counter : BitVec 64) : Reply :=
  libGetTime (libRtcInitialize clearedTime) 19200000 counter (some clearedTime) none

/-- It is read after one day of up-time, and after 30. -/
theorem libGetTime_upTime_one_month :
    TellsUpTime 19200000 1658880000000 49766400000000 (sampleReply 1658880000000)
      (sampleReply 49766400000000) :=
  (libGetTime_tellsUpTime_iff _ _ _ _ _ _ _ _ (by decide) (by decide)).mpr
    ⟨0, by decide, by decide⟩

/-- `Day` is 0 on the first day, and after 256 days the time is the same again. -/
theorem libGetTime_day_runs_on :
    ¬ TellsUpTime 19200000 0 0 (sampleReply 0) (sampleReply 0) ∧
    ¬ TellsUpTime 19200000 1658880000000 (257 * 1658880000000) (sampleReply 1658880000000)
      (sampleReply (257 * 1658880000000)) := by
  constructor
  · rintro ⟨-, -, t, u, ht, -, -, -, hday, -⟩
    obtain rfl := Option.some.inj ht
    exact absurd hday (by decide)
  · rintro ⟨-, -, t, u, ht, hu, -, -, -, -, hrelates⟩
    obtain rfl := Option.some.inj ht
    obtain rfl := Option.some.inj hu
    have hapart := hrelates.apart
    exact absurd hapart (by decide)

end VirtualRealTimeClock
