import Nagi.BootInfo.Realtime

/-! The dates and times of `nagi-calendar-core`. -/

namespace Nagi.Calendar

open Lib Words Checks List Nat
open BootInfo (yearDays yearDays_succ yearDays_mono)

inductive Error where
  | overflow
  | invalidDate
  deriving DecidableEq

abbrev Result (α : Type) := Except (Fault Error) α

def second : Int := 1000000

def day : Int := 86400 * second

def checkedAdd (first second : Int) : Result Int :=
  if -2 ^ 63 ≤ first + second ∧ first + second < 2 ^ 63 then .ok (first + second) else .error (.error .overflow)

def daysInMonth (year : Nat) : Nat → Nat
  | 2 => if year % 4 = 0 ∧ (year % 100 ≠ 0 ∨ year % 400 = 0) then 29 else 28
  | 4 | 6 | 9 | 11 => 30
  | 1 | 3 | 5 | 7 | 8 | 10 | 12 => 31
  | _ => 0

structure Date where
  year : Nat
  month : Nat
  day : Nat
  years : 1 ≤ year ∧ year ≤ 9999
  months : 1 ≤ month ∧ month ≤ 12
  days : day ≠ 0 ∧ day ≤ daysInMonth year month

namespace Date

instance : LT Date := ⟨fun first second => first.year < second.year ∨ first.year = second.year ∧
  (first.month < second.month ∨ first.month = second.month ∧ first.day < second.day)⟩

def new (year month day : Nat) : Result Date :=
  if valid : (1 ≤ year ∧ year ≤ 9999) ∧ (1 ≤ month ∧ month ≤ 12) ∧ day ≠ 0 ∧ day ≤ daysInMonth year month then
    .ok ⟨year, month, day, valid.1, valid.2.1, valid.2.2⟩
  else .error (.error .invalidDate)

def epochDays (date : Date) : Result Int := do
  let y ← i64 (date.year - 1)
  let days ← i64 (y * 365)
  let days ← i64 (days + y.tdiv 4)
  let days ← i64 (days - y.tdiv 100)
  let days ← i64 (days + y.tdiv 400)
  let days ← (range' 1 (date.month - 1)).foldlM (fun days m => i64 (days + daysInMonth date.year m)) days
  let days ← i64 (days + date.day)
  let days ← i64 (days - 1)
  i64 (days - 719162)

def yearOrdinal (year : Nat) : Result Int := do
  let first ← new year 1 1
  let days ← first.epochDays
  i64 (days + 719162)

/-- The search for the year; its numbers stay between 1 and 9999. -/
def searchYear (ordinal : Int) (lo hi : Nat) : Result Nat :=
  if more : lo < hi then do
    let mid := lo + (hi - lo + 1) / 2
    let start ← yearOrdinal mid
    if start ≤ ordinal then searchYear ordinal mid hi else searchYear ordinal lo (mid - 1)
  else pure lo
termination_by hi - lo

/-- The walk through the months. There are no more steps than the month has values. -/
def searchMonth (year : Nat) : Nat → Nat → Int → Result (Nat × Int)
  | 0, _, _ => throw .panicked
  | steps + 1, month, rest =>
    if rest ≥ daysInMonth year month then searchMonth year steps (month + 1) (rest - daysInMonth year month)
    else pure (month, rest)

def fromEpochDays (days : Int) : Result Date := do
  let ordinal ← checkedAdd days 719162
  let last ← new 9999 12 31
  let upper ← last.epochDays
  let upper ← i64 (upper + 719162)
  if ¬(0 ≤ ordinal ∧ ordinal ≤ upper) then
    throw (.error .invalidDate)
  let year ← searchYear ordinal 1 9999
  let start ← yearOrdinal year
  let rest ← i64 (ordinal - start)
  let (month, rest) ← searchMonth year 255 1 rest
  new year month ((rest + 1) % 256).toNat

/-- Monday is 0. -/
def weekday (date : Date) : Result Nat := do
  let days ← date.epochDays
  let days ← i64 (days + 3)
  pure (days % 7).toNat

end Date

theorem emod_day (micros : Int) : 0 ≤ micros % day ∧ micros % day < day :=
  ⟨Int.emod_nonneg _ (by decide), Int.emod_lt_of_pos _ (by decide)⟩

structure LocalDateTime where
  date : Date
  micros : Int
  inDay : 0 ≤ micros ∧ micros < day

namespace LocalDateTime

def naiveMicros (time : LocalDateTime) : Result Int := do
  let days ← time.date.epochDays
  let micros ← i64 (days * day)
  i64 (micros + time.micros)

def fromNaiveMicros (micros : Int) : Result LocalDateTime := do
  let date ← Date.fromEpochDays (micros / day)
  return ⟨date, micros % day, emod_day micros⟩

end LocalDateTime

def monthsDays (year count : Nat) : Nat := ((range' 1 count).map (daysInMonth year)).sum

theorem monthsDays_succ (year count : Nat) :
    monthsDays year (count + 1) = monthsDays year count + daysInMonth year (count + 1) := by
  simp [monthsDays, range'_1_concat, add_comm 1]

theorem monthsDays_mono (year : Nat) : Monotone (monthsDays year) :=
  monotone_nat_of_le_succ fun count => by simp [monthsDays_succ]

theorem daysInMonth_le (year month : Nat) : daysInMonth year month ≤ 31 := by
  unfold daysInMonth
  split <;> (try split) <;> decide

theorem yearDays_eq {year : Nat} (positive : 1 ≤ year) : yearDays year = yearDays (year - 1) + monthsDays year 12 := by
  obtain ⟨before, rfl⟩ := Nat.exists_eq_add_of_le' positive
  rw [yearDays_succ, Nat.add_sub_cancel]
  simp [monthsDays, range', daysInMonth, BootInfo.isLeapYear]
  split_ifs <;> omega

theorem yearDays_le {year : Nat} (small : year ≤ 9999) : yearDays year ≤ 3652059 := yearDays_mono small

namespace Date

def ordinal (date : Date) : Nat :=
  yearDays (date.year - 1) + monthsDays date.year (date.month - 1) + (date.day - 1)

variable {date first second : Date}

theorem month_end (date : Date) :
    monthsDays date.year (date.month - 1) + date.day ≤ monthsDays date.year date.month := by
  have step := monthsDays_succ date.year (date.month - 1)
  have days := date.days.2
  rw [Nat.sub_add_cancel date.months.1] at step
  omega

theorem ordinal_lt (date : Date) : date.ordinal < yearDays date.year := by
  have inMonth := date.month_end
  have inYear := monthsDays_mono date.year date.months.2
  have positive := date.days.1
  rw [yearDays_eq date.years.1, ordinal]
  omega

theorem ordinal_le (date : Date) : date.ordinal ≤ 3652058 :=
  le_of_lt_succ (lt_of_lt_of_le date.ordinal_lt (yearDays_le date.years.2))

theorem ordinal_strictMono (before : first < second) : first.ordinal < second.ordinal := by
  have ends := first.month_end
  have positive := first.days.1
  rcases before with years | ⟨years, months | ⟨months, days⟩⟩
  · have later : yearDays first.year ≤ yearDays (second.year - 1) := yearDays_mono (le_sub_one_of_lt years)
    exact lt_of_lt_of_le first.ordinal_lt (le_trans later (by unfold ordinal; omega))
  · have later := monthsDays_mono first.year (le_sub_one_of_lt months)
    rw [ordinal, ordinal, ← years]
    omega
  · rw [ordinal, ordinal, ← years, ← months]
    omega

theorem ordinal_injective : Function.Injective ordinal := by
  intro first second same
  have least (first second : Date) (same : first.ordinal = second.ordinal) : ¬(first.year < second.year ∨
      first.year = second.year ∧ (first.month < second.month ∨ first.month = second.month ∧ first.day < second.day)) :=
    fun before => (ordinal_strictMono before).ne same
  have forth := least first second same
  have back := least second first same.symm
  cases first
  cases second
  simp only [mk.injEq] at forth back ⊢
  omega

theorem addMonths_eq {year count : Nat} {days : Int} (above : 0 ≤ days)
    (below : days + monthsDays year count < 2 ^ 63) :
    (range' 1 count).foldlM (fun days m => i64 (days + daysInMonth year m)) days =
      (.ok (days + monthsDays year count) : Result Int) := by
  induction count with
  | zero => simp [monthsDays]; rfl
  | succ count ih =>
    rw [monthsDays_succ, cast_add, ← Int.add_assoc] at below ⊢
    rw [range'_1_concat, foldlM_append, ih (by omega), ok_bind, add_comm 1]
    simp only [foldlM_cons, foldlM_nil, bind_pure]
    exact if_pos ⟨by omega, below⟩

theorem epochDays_eq (date : Date) : date.epochDays = .ok (date.ordinal - 719162) := by
  obtain ⟨y, same⟩ := Nat.exists_eq_add_of_le' date.years.1
  have bound := date.ordinal_le
  have positive := date.days.1
  have fewer : y / 100 ≤ y / 4 := div_le_div_left (by decide) (by decide)
  have counted : date.ordinal = y * 365 + y / 4 - y / 100 + y / 400 + monthsDays date.year (date.month - 1) +
      (date.day - 1) := by
    rw [ordinal, same]
    rfl
  unfold epochDays
  rw [show (date.year : Int) - 1 = y by omega, i64_bind (by omega), show (y : Int).tdiv 4 = ↑(y / 4) from rfl,
    show (y : Int).tdiv 100 = ↑(y / 100) from rfl, show (y : Int).tdiv 400 = ↑(y / 400) from rfl, i64_bind (by omega),
    i64_bind (by omega), i64_bind (by omega), i64_bind (by omega), addMonths_eq (by omega) (by omega), ok_bind,
    i64_bind (by omega), i64_bind (by omega), i64, if_pos (by omega)]
  refine congrArg Except.ok ?_
  omega

theorem yearOrdinal_eq {year : Nat} (valid : 1 ≤ year ∧ year ≤ 9999) :
    yearOrdinal year = .ok ↑(yearDays (year - 1)) := by
  have bound := yearDays_le (show year - 1 ≤ 9999 by omega)
  rw [yearOrdinal, new, dif_pos ⟨valid, by decide, by decide, by simp [daysInMonth]⟩, ok_bind, epochDays_eq,
    ok_bind, ordinal]
  simp only [monthsDays, Nat.sub_self, range'_zero, map_nil, sum_nil, Nat.add_zero, Int.sub_add_cancel]
  exact if_pos (by omega)

theorem searchYear_ok {ordinal lo hi : Nat} (low : 1 ≤ lo) (between : lo ≤ hi) (high : hi ≤ 9999)
    (above : yearDays (lo - 1) ≤ ordinal) (below : ordinal < yearDays hi) :
    ∃ year, searchYear ordinal lo hi = .ok year ∧ (1 ≤ year ∧ year ≤ 9999) ∧ yearDays (year - 1) ≤ ordinal ∧
      ordinal < yearDays year := by
  induction span : hi - lo using Nat.strong_induction_on generalizing lo hi with
  | _ span ih =>
    rw [searchYear]
    by_cases more : lo < hi
    · have inner : lo < lo + (hi - lo + 1) / 2 ∧ lo + (hi - lo + 1) / 2 ≤ hi := by omega
      rw [dif_pos more]
      generalize lo + (hi - lo + 1) / 2 = mid at inner ⊢
      dsimp only
      rw [yearOrdinal_eq (by omega), ok_bind]
      split
      · next starts => exact ih _ (by omega) (by omega) (by omega) high (by omega) below rfl
      · next starts => exact ih _ (by omega) low (by omega) (by omega) above (by omega) rfl
    · obtain rfl : lo = hi := by omega
      rw [dif_neg more]
      exact ⟨lo, rfl, ⟨low, high⟩, above, below⟩

theorem searchMonth_ok {year steps month rest : Nat} (low : 1 ≤ month) (high : month ≤ 12) (enough : 12 < month + steps)
    (inside : monthsDays year (month - 1) + rest < monthsDays year 12) :
    ∃ found left : Nat, searchMonth year steps month rest = .ok (found, ↑left) ∧ (1 ≤ found ∧ found ≤ 12) ∧
      left < daysInMonth year found ∧
      monthsDays year (found - 1) + left = monthsDays year (month - 1) + rest := by
  induction steps generalizing month rest with
  | zero => omega
  | succ steps ih =>
    have step := monthsDays_succ year (month - 1)
    rw [Nat.sub_add_cancel low] at step
    rw [searchMonth]
    split
    · next later =>
      have fits : daysInMonth year month ≤ rest := by omega
      have sooner : month ≠ 12 := by
        rintro rfl
        omega
      obtain ⟨found, left, result⟩ := @ih (month + 1) (rest - daysInMonth year month) (by omega) (by omega) (by omega)
        (by rw [Nat.add_sub_cancel]; omega)
      rw [Nat.cast_sub fits, Nat.add_sub_cancel] at result
      exact ⟨found, left, result.1, result.2.1, result.2.2.1, by omega⟩
    · next here => exact ⟨month, rest, rfl, ⟨low, high⟩, by omega, rfl⟩

/-- A number outside of the calendar is reported, any other is that of the date that is found. -/
theorem fromEpochDays_cases (days : Int) :
    (¬(0 ≤ days + 719162 ∧ days + 719162 ≤ 3652058) ∧ ∃ error, fromEpochDays days = .error (.error error)) ∨
      ∃ date, fromEpochDays days = .ok date ∧ date.ordinal = days + 719162 := by
  unfold fromEpochDays checkedAdd
  split
  · next fits =>
    rw [ok_bind]
    have upper : new 9999 12 31 = .ok ⟨9999, 12, 31, by decide, by decide, by decide⟩ := rfl
    rw [upper, ok_bind, epochDays_eq, ok_bind]
    have last : Date.ordinal ⟨9999, 12, 31, by decide, by decide, by decide⟩ = 3652058 := by decide
    rw [last, i64_bind (by omega)]
    split
    · next outside => exact .inl ⟨outside, _, rfl⟩
    next inside =>
    obtain ⟨ordinal, same⟩ := Int.eq_ofNat_of_zero_le (show 0 ≤ days + 719162 by omega)
    rw [same] at inside ⊢
    obtain ⟨year, found, years, above, below⟩ := @searchYear_ok ordinal 1 9999 (by decide) (by decide) (by decide)
      (Nat.zero_le _) (show ordinal < 3652059 by omega)
    obtain ⟨month, left, walked, months, within, reached⟩ := @searchMonth_ok year 255 1 (ordinal - yearDays (year - 1))
      (by decide) (by decide) (by decide) (by
        rw [yearDays_eq years.1] at below
        change 0 + _ < _
        omega)
    have short := daysInMonth_le year month
    have number : (((left : Int) + 1) % 256).toNat = left + 1 := by omega
    dsimp only
    rw [found, ok_bind, yearOrdinal_eq years, ok_bind, i64_bind (by omega), ← Nat.cast_sub above, walked,
      ok_bind]
    dsimp only
    rw [number, new, dif_pos ⟨years, months, by omega, by omega⟩]
    refine .inr ⟨_, rfl, congrArg Nat.cast ?_⟩
    change _ = 0 + _ at reached
    dsimp only [Date.ordinal]
    omega
  · exact .inl ⟨by omega, _, rfl⟩

theorem fromEpochDays_epochDays (date : Date) : fromEpochDays (date.ordinal - 719162) = .ok date := by
  have bound := date.ordinal_le
  rcases fromEpochDays_cases (date.ordinal - 719162) with ⟨outside, _⟩ | ⟨found, result, same⟩
  · omega
  · rw [result, ordinal_injective (by omega : found.ordinal = date.ordinal)]

def next (date : Date) : Result Date :=
  if date.day < daysInMonth date.year date.month then new date.year date.month (date.day + 1)
  else if date.month < 12 then new date.year (date.month + 1) 1
  else new (date.year + 1) 1 1

theorem new_ok_iff {year month day : Nat} :
    new year month day = .ok date ↔ date.year = year ∧ date.month = month ∧ date.day = day := by
  unfold new
  split
  · obtain ⟨_, _, _, _⟩ := date
    simp [eq_comm]
  · next bad =>
    refine iff_of_false nofun ?_
    rintro ⟨rfl, rfl, rfl⟩
    exact bad ⟨date.years, date.months, date.days⟩

theorem ordinal_next (follows : first.next = .ok second) : second.ordinal = first.ordinal + 1 := by
  have positive := first.days
  have last := first.months
  have whole := yearDays_eq first.years.1
  have step := monthsDays_succ first.year (first.month - 1)
  rw [Nat.sub_add_cancel first.months.1] at step
  unfold next at follows
  split_ifs at follows with sameMonth sameYear
  all_goals
    obtain ⟨years, months, days⟩ := new_ok_iff.mp follows
    rw [ordinal, ordinal, years, months, days]
  · omega
  · rw [Nat.add_sub_cancel]
    omega
  · rw [show 12 = first.month by omega] at whole
    change yearDays first.year + 0 + 0 = _
    omega

theorem weekday_eq (date : Date) : date.weekday = .ok ((date.ordinal - 719162 + 3 : Int) % 7).toNat := by
  have bound := date.ordinal_le
  rw [weekday, epochDays_eq, ok_bind, i64_bind (by omega)]
  rfl

end Date

open Date LocalDateTime

theorem day_eq : day = 86400000000 := rfl

theorem naiveMicros_eq (time : LocalDateTime) :
    time.naiveMicros = .ok ((time.date.ordinal - 719162) * day + time.micros) := by
  have bound := time.date.ordinal_le
  obtain ⟨above, below⟩ := time.inDay
  rw [day_eq] at below ⊢
  rw [naiveMicros, epochDays_eq, ok_bind, day_eq, i64_bind (by omega)]
  exact if_pos (by omega)

/-- Days and dates, and microseconds and times, determine each other; nothing overflows. -/
theorem days_and_dates_correspond :
    (∀ date, ∃ days, date.epochDays = .ok days ∧ fromEpochDays days = .ok date) ∧
    (∀ days, Meets Fault.Reported (fun date => date.epochDays = .ok days) (fromEpochDays days)) ∧
    (∀ first second : Date, first < second →
      ∃ days later, first.epochDays = .ok days ∧ second.epochDays = .ok later ∧ days < later) ∧
    (∀ first second : Date, first.next = .ok second →
      ∃ days weekday, first.epochDays = .ok days ∧ second.epochDays = .ok (days + 1) ∧
        first.weekday = .ok weekday ∧ second.weekday = .ok ((weekday + 1) % 7)) ∧
    (∀ time, ∃ micros, time.naiveMicros = .ok micros ∧ fromNaiveMicros micros = .ok time) ∧
    ∀ micros, Meets Fault.Reported (fun time => time.naiveMicros = .ok micros) (fromNaiveMicros micros) := by
  have reads (days : Int) : Meets Fault.Reported (fun date => date.epochDays = .ok days) (fromEpochDays days) := by
    rcases fromEpochDays_cases days with ⟨_, error, failed⟩ | ⟨date, found, same⟩
    · exact failed ▸ .error ⟨error, rfl⟩
    · exact found ▸ .ok (by rw [epochDays_eq, same, Int.add_sub_cancel])
  refine ⟨fun date => ⟨_, date.epochDays_eq, date.fromEpochDays_epochDays⟩, reads, fun first second before => ?_,
    fun first second follows => ?_, fun time => ⟨_, naiveMicros_eq time, ?_⟩, fun micros => ?_⟩
  · have less := ordinal_strictMono before
    exact ⟨_, _, first.epochDays_eq, second.epochDays_eq, by omega⟩
  · have one := ordinal_next follows
    refine ⟨_, _, first.epochDays_eq, second.epochDays_eq.trans ?_, first.weekday_eq, second.weekday_eq.trans ?_⟩
    all_goals
      refine congrArg Except.ok ?_
      omega
  · obtain ⟨date, micros, above, below⟩ := time
    rw [day_eq] at below
    have quotient : ((date.ordinal - 719162 : Int) * day + micros) / day = date.ordinal - 719162 := by
      rw [day_eq]
      omega
    rw [fromNaiveMicros, quotient, date.fromEpochDays_epochDays, ok_bind]
    refine congrArg Except.ok (LocalDateTime.mk.injEq .. ▸ ⟨rfl, ?_⟩)
    dsimp only
    rw [day_eq]
    omega
  · refine (reads (micros / day)).bind fun date known => .ok ?_
    rw [epochDays_eq] at known
    rw [naiveMicros_eq, Except.ok.inj known]
    exact congrArg Except.ok (Int.ediv_mul_add_emod micros day)

def Date.addDays (date : Date) (days : Int) : Result Date := do
  fromEpochDays (← checkedAdd (← date.epochDays) days)

/-- The date that many days along the calendar, if there is one. -/
theorem addDays_eq_ok_iff (first second : Date) (days : Int) :
    first.addDays days = .ok second ↔ (second.ordinal : Int) = first.ordinal + days := by
  have bound := second.ordinal_le
  rw [addDays, epochDays_eq, ok_bind, checkedAdd]
  split
  · rw [ok_bind]
    obtain ⟨outside, _, failed⟩ | ⟨date, found, same⟩ := fromEpochDays_cases (first.ordinal - 719162 + days)
    · rw [failed]
      exact iff_of_false nofun (by omega)
    · rw [found, Except.ok.injEq, ← ordinal_injective.eq_iff]
      omega
  · exact iff_of_false nofun (by omega)

end Nagi.Calendar
