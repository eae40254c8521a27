import Mathlib.Tactic.IntervalCases
import Nagi.Lib.Words

/-! The firmware's clock, read as nanoseconds since the Unix epoch.

Every field is tested before it is used, so that the widths of the fields do not
matter. -/

namespace Nagi.BootInfo

open Lib Words Nat

structure Date where
  year : Nat
  month : Nat
  day : Nat

/-- The zone is in minutes east of UTC. -/
structure FirmwareDateTime extends Date where
  hour : Nat
  minute : Nat
  second : Nat
  nanosecond : Nat
  timeZone : Option Int
  daylightFlags : Nat

def realtimeUnavailableNs : Nat := 2 ^ 64 - 1

def isLeapYear (year : Nat) : Bool := year % 4 = 0 ∧ (year % 100 ≠ 0 ∨ year % 400 = 0)

def monthDays (year : Nat) : Nat → Option Nat
  | 1 | 3 | 5 | 7 | 8 | 10 | 12 => some 31
  | 4 | 6 | 9 | 11 => some 30
  | 2 => some (if isLeapYear year then 29 else 28)
  | _ => none

abbrev Total (α : Type) := Except (Fault Empty) α

def daysBeforeYear (year : Nat) : Total Nat := do
  let year ← sub year 1
  let days ← mul 64 year 365
  let days ← add 64 days (year / 4)
  let days ← sub days (year / 100)
  let days ← add 64 days (year / 400)
  sub days (1969 * 365 + 1969 / 4 - 1969 / 100 + 1969 / 400)

def commonYearDays : List Nat := [0, 31, 59, 90, 120, 151, 181, 212, 243, 273, 304, 334]

def daysBeforeMonth (year month : Nat) : Total Nat := do
  let index ← sub month 1
  match commonYearDays[index]? with
  | some days => add 64 days (if month > 2 ∧ isLeapYear year then 1 else 0)
  | none => throw .panicked

/-- The nanoseconds of an instant in UTC, if it is not before the epoch and they fit. -/
def utcNanoseconds (seconds : Nat) (offset : Int) (nanosecond : Nat) : Option Nat := do
  let utc : Int := seconds - offset
  if ¬(seconds < 2 ^ 63 ∧ -2 ^ 63 ≤ utc ∧ utc < 2 ^ 63 ∧ 0 ≤ utc) then
    none
  let nanoseconds ← checkedMul 64 utc.toNat 1000000000
  checkedAdd 64 nanoseconds nanosecond

def firmwareTimeToUnixNs (time : FirmwareDateTime) : Total Nat := do
  if ¬(1970 ≤ time.year ∧ time.year ≤ 9999) ∨ ¬(1 ≤ time.month ∧ time.month ≤ 12) ∨ time.hour > 23 ∨
      time.minute > 59 ∨ time.second > 59 ∨ time.nanosecond > 999999999 ∨ time.daylightFlags ≠ 0 ∨
      ∃ offset ∈ time.timeZone, ¬(-1440 ≤ offset ∧ offset ≤ 1440) then
    return realtimeUnavailableNs
  let some monthDays := monthDays time.year time.month | return realtimeUnavailableNs
  if time.day = 0 ∨ time.day > monthDays then
    return realtimeUnavailableNs
  let years ← daysBeforeYear time.year
  let months ← daysBeforeMonth time.year time.month
  let days ← add 64 years months
  let today ← sub time.day 1
  let days ← add 64 days today
  let seconds ← mul 64 days 86400
  let hours ← mul 64 time.hour 3600
  let seconds ← add 64 seconds hours
  let minutes ← mul 64 time.minute 60
  let seconds ← add 64 seconds minutes
  let seconds ← add 64 seconds time.second
  return (utcNanoseconds seconds (time.timeZone.getD 0 * 60) time.nanosecond).getD realtimeUnavailableNs

structure Date.Valid (date : Date) : Prop where
  year : 1970 ≤ date.year
  month : 1 ≤ date.month ∧ date.month ≤ 12
  day : ∃ days ∈ monthDays date.year date.month, 1 ≤ date.day ∧ date.day ≤ days

def Date.next (date : Date) : Date :=
  if date.day < (monthDays date.year date.month).getD 0 then { date with day := date.day + 1 }
  else if date.month < 12 then ⟨date.year, date.month + 1, 1⟩
  else ⟨date.year + 1, 1, 1⟩

namespace FirmwareDateTime

structure WellFormed (time : FirmwareDateTime) : Prop where
  date : time.Valid
  hour : time.hour ≤ 23
  minute : time.minute ≤ 59
  second : time.second ≤ 59
  nanosecond : time.nanosecond ≤ 999999999
  daylight : time.daylightFlags = 0
  zone : ∀ offset ∈ time.timeZone, -1440 ≤ offset ∧ offset ≤ 1440

def instant (time : FirmwareDateTime) (days : Nat) : Int :=
  ((days * 86400 + time.hour * 3600 + time.minute * 60 + time.second : Nat) - time.timeZone.getD 0 * 60) * 1000000000 +
    time.nanosecond

end FirmwareDateTime

section Calendar

def yearDays (year : Nat) : Nat := year * 365 + year / 4 - year / 100 + year / 400

def monthStart (year month : Nat) : Nat :=
  commonYearDays.getD (month - 1) 0 + if month > 2 ∧ isLeapYear year then 1 else 0

/-- The days from the first day of the year 1. -/
def Date.number (date : Date) : Nat := yearDays (date.year - 1) + monthStart date.year date.month + (date.day - 1)

theorem yearDays_succ (year : Nat) :
    yearDays (year + 1) = yearDays year + 365 + if isLeapYear (year + 1) then 1 else 0 := by
  unfold yearDays isLeapYear
  rw [Nat.succ_div, Nat.succ_div, Nat.succ_div]
  simp only [decide_eq_true_eq, Nat.dvd_iff_mod_eq_zero]
  have fewer : year / 100 ≤ year / 4 := Nat.div_le_div_left (by decide) (by decide)
  split_ifs <;> omega

theorem monthStart_succ (year : Nat) {month : Nat} (above : 1 ≤ month) (below : month < 12) :
    ∃ days, monthDays year month = some days ∧ 1 ≤ days ∧
      monthStart year (month + 1) = monthStart year month + days := by
  cases leap : isLeapYear year <;> interval_cases month <;> simp [monthDays, monthStart, commonYearDays, leap]

theorem Date.Valid.earlier {date : Date} (valid : date.Valid) : date = ⟨1970, 1, 1⟩ ∨
    ∃ earlier : Date, earlier.Valid ∧ earlier.next = date ∧ earlier.number + 1 = date.number := by
  obtain ⟨year, month, day⟩ := date
  obtain ⟨recent, ⟨above, below⟩, days, counted, first, last⟩ := valid
  dsimp only at *
  by_cases middle : 1 < day
  · obtain ⟨day, rfl⟩ := Nat.exists_eq_add_of_le' first
    refine .inr ⟨⟨year, month, day⟩, ⟨recent, ⟨above, below⟩, days, counted, le_of_lt_succ middle, le_of_succ_le last⟩,
      ?_, ?_⟩
    · simp [Date.next, Option.mem_def.mp counted, lt_of_succ_le last]
    · unfold number
      dsimp only
      omega
  obtain rfl : day = 1 := by omega
  by_cases inYear : 1 < month
  · obtain ⟨month, rfl⟩ := Nat.exists_eq_add_of_le' above
    obtain ⟨length, known, some, start⟩ := monthStart_succ year (le_of_lt_succ inYear) below
    refine .inr ⟨⟨year, month, length⟩, ⟨recent, ⟨le_of_lt_succ inYear, le_of_succ_le below⟩, length, known, some,
      le_refl _⟩, ?_, ?_⟩
    · simp [Date.next, known, lt_of_succ_le below]
    · unfold number
      dsimp only
      omega
  obtain rfl : month = 1 := by omega
  obtain rfl | later := eq_or_lt_of_le recent
  · exact .inl rfl
  obtain ⟨year, rfl⟩ := Nat.exists_eq_add_of_le' (Nat.le_trans (by decide) recent : 1 ≤ year)
  obtain ⟨before, rfl⟩ := Nat.exists_eq_add_of_le' (by omega : 1 ≤ year)
  refine .inr ⟨⟨before + 1, 12, 31⟩, ⟨le_of_lt_succ later, by simp, 31, rfl, by simp⟩, rfl, ?_⟩
  have leap := yearDays_succ before
  simp [number, monthStart, commonYearDays]
  omega

theorem Date.Valid.reached {date : Date} (valid : date.Valid) :
    ∃ days, Date.next^[days] ⟨1970, 1, 1⟩ = date ∧ date.number = 719162 + days := by
  induction counted : date.number using Nat.strong_induction_on generalizing date with
  | _ number ih =>
    obtain rfl | ⟨earlier, before, rfl, step⟩ := valid.earlier
    · exact ⟨0, rfl, by rw [← counted]; decide⟩
    · obtain ⟨days, rfl, number⟩ := ih earlier.number (by omega) before rfl
      exact ⟨days + 1, Function.iterate_succ_apply' .., by omega⟩

end Calendar

section Clock

theorem yearDays_mono : Monotone yearDays := monotone_nat_of_le_succ fun year => by
  have := yearDays_succ year
  omega

theorem daysBeforeYear_eq {year : Nat} (recent : 1970 ≤ year) (small : year ≤ 9999) :
    daysBeforeYear year = .ok (yearDays (year - 1) - 719162) := by
  have fewer : (year - 1) / 100 ≤ (year - 1) / 4 := div_le_div_left (by decide) (by decide)
  unfold daysBeforeYear
  rw [sub_bind (by omega), mul_bind (by omega), add_bind (by omega), sub_bind (by omega), add_bind (by omega)]
  exact if_pos (yearDays_mono (le_sub_one_of_lt recent))

theorem daysBeforeMonth_eq (year : Nat) {month : Nat} (above : 1 ≤ month) (below : month ≤ 12) :
    daysBeforeMonth year month = .ok (monthStart year month) ∧ monthStart year month ≤ 335 := by
  cases leap : isLeapYear year <;> interval_cases month <;>
    simp [daysBeforeMonth, monthStart, commonYearDays, leap, sub, add] <;> decide

theorem utcNanoseconds_eq_some_iff {seconds nanosecond total : Nat} {offset : Int} (few : seconds < 2 ^ 62)
    (zone : -2 ^ 62 ≤ offset ∧ offset ≤ 2 ^ 62) (part : nanosecond ≤ 999999999) :
    utcNanoseconds seconds offset nanosecond = some total ↔
      (seconds - offset) * 1000000000 + nanosecond = (total : Int) ∧ total < 2 ^ 64 := by
  refine Iff.trans Checks.unless_bind_some_iff ?_
  simp only [Option.bind_eq_bind, Option.bind_eq_some_iff, checkedMul_eq_some_iff, checkedAdd_eq_some_iff, not_not]
  constructor
  · rintro ⟨range, _, ⟨_, rfl⟩, _, rfl⟩
    omega
  · rintro ⟨exact, small⟩
    exact ⟨by omega, _, ⟨by omega, rfl⟩, by omega, by omega⟩

variable {time : FirmwareDateTime}

theorem FirmwareDateTime.WellFormed.offset (well : time.WellFormed) :
    -1440 ≤ time.timeZone.getD 0 ∧ time.timeZone.getD 0 ≤ 1440 := by
  cases known : time.timeZone with
  | none => decide
  | some offset => exact well.zone offset known

theorem firmwareTimeToUnixNs_ok (well : time.WellFormed) (small : time.year ≤ 9999) {days : Nat}
    (number : time.number = 719162 + days) : firmwareTimeToUnixNs time =
      .ok (if 0 ≤ time.instant days ∧ time.instant days < 2 ^ 64 then (time.instant days).toNat
        else realtimeUnavailableNs) := by
  have zone := well.offset
  obtain ⟨⟨recent, ⟨above, below⟩, length, counted, first, last⟩, hours, minutes, seconds, nanoseconds, daylight,
    zones⟩ := well
  have years : yearDays 1969 ≤ yearDays (time.year - 1) := yearDays_mono (le_sub_one_of_lt recent)
  change 719162 ≤ _ at years
  have months := daysBeforeMonth_eq time.year above below
  have few : yearDays (time.year - 1) ≤ 400 * 9998 := by
    unfold yearDays
    omega
  have short : length ≤ 31 := by
    unfold monthDays at counted
    split at counted <;> cases counted
    all_goals first | omega | split <;> omega
  have same : yearDays (time.year - 1) - 719162 + monthStart time.year time.month + (time.day - 1) = days := by
    unfold Date.number at number
    omega
  unfold firmwareTimeToUnixNs
  rw [if_neg ?_, Option.mem_def.mp counted]
  · dsimp only
    rw [if_neg (by omega), daysBeforeYear_eq recent (by omega), months.1, Checks.ok_bind, Checks.ok_bind,
      add_bind (by omega), sub_bind (by omega), add_bind (by omega), same, mul_bind (by omega), mul_bind (by omega),
      add_bind (by omega), mul_bind (by omega), add_bind (by omega), add_bind (by omega)]
    refine congrArg Except.ok ?_
    have exact : ∀ total : Nat, _ ↔ time.instant days = total ∧ total < 2 ^ 64 := fun total =>
      utcNanoseconds_eq_some_iff (by omega) (by omega) nanoseconds
    split_ifs with inRange
    · obtain ⟨total, known⟩ := Int.eq_ofNat_of_zero_le inRange.1
      rw [(exact total).mpr ⟨known, by omega⟩, known]
      rfl
    · rw [Option.getD_eq_iff]
      refine .inr ⟨Option.eq_none_iff_forall_ne_some.mpr fun total found => inRange ?_, rfl⟩
      have := (exact total).mp found
      omega
  · rintro (bad | bad | bad | bad | bad | bad | bad | ⟨offset, known, bad⟩)
    on_goal 8 => exact bad (zones offset known)
    all_goals omega

theorem firmwareTimeToUnixNs_refused (ill : ¬(time.WellFormed ∧ time.year ≤ 9999)) :
    firmwareTimeToUnixNs time = .ok realtimeUnavailableNs := by
  unfold firmwareTimeToUnixNs
  split_ifs with bad
  · rfl
  push Not at bad
  obtain ⟨⟨recent, small⟩, months, hours, minutes, seconds, nanoseconds, daylight, zones⟩ := bad
  split
  · next length counted =>
    refine (if_pos ?_).trans rfl
    by_contra inside
    exact ill ⟨⟨⟨recent, months, length, counted, by omega, by omega⟩, hours, minutes, seconds, nanoseconds, daylight,
      zones⟩, small⟩
  · rfl

/-- The days are counted along the calendar, one at a time. -/
theorem firmwareTimeToUnixNs_exact (time : FirmwareDateTime) :
    (time.WellFormed → ∃ days, Date.next^[days] ⟨1970, 1, 1⟩ = time.toDate ∧ firmwareTimeToUnixNs time =
      .ok (if 0 ≤ time.instant days ∧ time.instant days < 2 ^ 64 then (time.instant days).toNat
        else realtimeUnavailableNs)) ∧
    (¬time.WellFormed → firmwareTimeToUnixNs time = .ok realtimeUnavailableNs) := by
  refine ⟨fun well => ?_, fun ill => firmwareTimeToUnixNs_refused fun both => ill both.1⟩
  obtain ⟨days, reached, number⟩ := well.date.reached
  refine ⟨days, reached, ?_⟩
  by_cases small : time.year ≤ 9999
  · exact firmwareTimeToUnixNs_ok well small number
  · -- from the year 10000 on, the nanoseconds do not fit
    have years : yearDays 9999 ≤ yearDays (time.year - 1) := yearDays_mono (by omega)
    change 3652059 ≤ _ at years
    have zone := well.offset
    have late : ¬time.instant days < 2 ^ 64 := by
      unfold Date.number at number
      unfold FirmwareDateTime.instant
      omega
    rw [firmwareTimeToUnixNs_refused fun both => small both.2, if_neg fun both => late both.2]

end Clock
end Nagi.BootInfo
