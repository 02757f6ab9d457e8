import Srui.Basic.Calendars
import Srui.Basic.CheckedArrays

/-!
Wall-clock times as they are printed: the date of a day number by integer arithmetic alone.

A sum, a product or a difference of `u64` that does not fit is a panic, and the time is none.
-/

namespace Srui.Srtop.UtcTimes

open Basic.Machine Basic.CheckedArrays Basic.Calendars

/-- What `format_utc` prints of a time. -/
structure CivilTime where
  year : Nat
  month : Nat
  day : Nat
  hour : Nat
  minute : Nat
  second : Nat
deriving DecidableEq, Repr

/-- The arithmetic of `format_utc`. -/
def civilTime (seconds : Nat) : Option CivilTime := do
  let days := seconds / 86400
  let ofDay := seconds % 86400
  let shifted ← checkedAdd days 719468
  let era := shifted / 146097
  let dayOfEra ← checkedSub shifted (← checkedMul era 146097)
  let yearOfEra := (← checkedSub (← checkedAdd (← checkedSub dayOfEra (dayOfEra / 1460))
    (dayOfEra / 36524)) (dayOfEra / 146096)) / 365
  let dayOfYear ← checkedSub dayOfEra (← checkedSub
    (← checkedAdd (← checkedMul 365 yearOfEra) (yearOfEra / 4)) (yearOfEra / 100))
  let monthFromMarch := (← checkedAdd (← checkedMul 5 dayOfYear) 2) / 153
  let day ← checkedAdd (← checkedSub dayOfYear
    ((← checkedAdd (← checkedMul 153 monthFromMarch) 2) / 5)) 1
  let month ← (if monthFromMarch < 10 then checkedAdd monthFromMarch 3
    else checkedSub monthFromMarch 9)
  let year ← checkedAdd (← checkedAdd yearOfEra (← checkedMul era 400))
    (if month ≤ 2 then 1 else 0)
  some ⟨year, month, day, ofDay / 3600, ofDay / 60 % 60, ofDay % 60⟩

def padded (width n : Nat) : List Char :=
  List.replicate (width - (Nat.toDigits 10 n).length) '0' ++ Nat.toDigits 10 n

/-- `{year:04}-{month:02}-{day:02} {hour:02}:{minute:02}:{second:02} UTC` -/
def CivilTime.text (time : CivilTime) : String :=
  String.ofList (padded 4 time.year ++ '-' :: padded 2 time.month ++ '-' :: padded 2 time.day ++
    ' ' :: padded 2 time.hour ++ ':' :: padded 2 time.minute ++ ':' :: padded 2 time.second ++
    [' ', 'U', 'T', 'C'])

/-- `format_utc` of a time in nanoseconds since the epoch: none of a panic, and no text of a time
before the epoch. -/
def formatUtc (time : Int) : Option (Option String) :=
  if time < 0 then some none
  else (civilTime (time.toNat / 1000000000)).map fun civil => some civil.text

/-! ### Days of an era -/

/-- A day of an era of 400 years that begin in March: its century, the four years and the year of
it, and the day of the year. A leap day is the last of its year. -/
structure EraDay where
  century : Nat
  olympiad : Nat
  year : Nat
  day : Nat
  century_le : century ≤ 3
  olympiad_le : olympiad ≤ 24
  year_le : year ≤ 3
  day_le : day ≤ 364 ∨ day = 365 ∧ year = 3 ∧ (olympiad < 24 ∨ century = 3)

namespace EraDay

def number (e : EraDay) : Nat := 36524 * e.century + 1461 * e.olympiad + 365 * e.year + e.day

def yearOfEra (e : EraDay) : Nat := 100 * e.century + 4 * e.olympiad + e.year

theorem exists_number {dayOfEra : Nat} (h : dayOfEra < 146097) :
    ∃ e : EraDay, e.number = dayOfEra := by
  obtain ⟨c, rest, hc, hrest, hsplit⟩ : ∃ c rest, c ≤ 3 ∧ (rest < 36524 ∨ rest = 36524 ∧ c = 3) ∧
      dayOfEra = 36524 * c + rest :=
    ⟨min 3 (dayOfEra / 36524), dayOfEra - 36524 * min 3 (dayOfEra / 36524), by omega, by omega,
      by omega⟩
  obtain ⟨q, left, hq, hleft, hsplit'⟩ : ∃ q left, q ≤ 24 ∧
      (left < 1460 ∨ left = 1460 ∧ (q < 24 ∨ c = 3)) ∧ rest = 1461 * q + left :=
    ⟨min 24 (rest / 1461), rest - 1461 * min 24 (rest / 1461), by omega, by omega, by omega⟩
  refine ⟨⟨c, q, min 3 (left / 365), left - 365 * min 3 (left / 365), hc, hq, by omega,
    by omega⟩, ?_⟩
  dsimp only [number]
  omega

theorem yearOfEra_eq (e : EraDay) :
    (e.number - e.number / 1460 + e.number / 36524 - e.number / 146096) / 365 = e.yearOfEra := by
  obtain ⟨c, q, r, d, hc, hq, hr, hd⟩ := e
  rw [yearOfEra, number]
  dsimp only
  generalize hn : 36524 * c + 1461 * q + 365 * r + d = n
  have hfourths : n / 1460 = 25 * c + q + if 1460 ≤ 24 * c + q + 365 * r + d then 1 else 0 := by
    split
    all_goals exact Nat.div_eq_of_lt_le (by omega) (by omega)
  -- The last day of the era is the one that two of the quotients count too many.
  have hcenturies : n / 36524 = c + n / 146096 := by
    rcases Nat.lt_or_ge n 146096 with hlt | hge
    · rw [Nat.div_eq_of_lt hlt]
      omega
    · obtain rfl : n = 146096 := by omega
      omega
  rw [hcenturies, ← Nat.add_assoc, Nat.add_sub_cancel, hfourths]
  split
  all_goals exact Nat.div_eq_of_lt_le (by omega) (by omega)

theorem yearStart_eq (e : EraDay) :
    365 * e.yearOfEra + e.yearOfEra / 4 - e.yearOfEra / 100 + e.day = e.number := by
  have hc := e.century_le
  have hq := e.olympiad_le
  have hr := e.year_le
  rw [yearOfEra, number]
  omega

end EraDay

/-! ### Months that begin in March -/

def beforeMarch (year : Int) : Nat := 59 + if IsLeap year then 1 else 0

variable {year : Int}

theorem monthLength_march {m : Nat} (h : m ≤ 9) :
    monthLength year (m + 3) + (153 * m + 2) / 5 = (153 * (m + 1) + 2) / 5 := by
  have hlater : ∀ m < 10, (if m + 3 ∈ [4, 6, 9, 11] then 30 else 31) + (153 * m + 2) / 5 =
      (153 * (m + 1) + 2) / 5 := by decide
  rw [monthLength, if_neg (by omega)]
  exact hlater m (Nat.lt_succ_of_le h)

theorem daysBeforeMonth_march {m : Nat} (h : m ≤ 9) :
    daysBeforeMonth year (m + 3) = beforeMarch year + (153 * m + 2) / 5 := by
  induction m with
  | zero =>
    rw [daysBeforeMonth, beforeMarch]
    by_cases hleap : IsLeap year <;> simp [Finset.sum_Ico_succ_top, monthLength, hleap]
  | succ m ih =>
    have hlength : monthLength year (m + 3) + (153 * m + 2) / 5 = (153 * (m + 1) + 2) / 5 :=
      monthLength_march (Nat.le_of_succ_le h)
    rw [Nat.add_right_comm, daysBeforeMonth_succ (by omega), ih (Nat.le_of_succ_le h)]
    omega

theorem yearLength_march (year : Int) : yearLength year = beforeMarch year + 306 := by
  rw [yearLength_eq, beforeMarch]
  split <;> rfl

/-- The date of a day of the year that begins in March of `year`, by the formulas of
`format_utc`. -/
theorem exists_marchDate {day : Nat} (h : day ≤ 364 ∨ day = 365 ∧ IsLeap (year + 1)) :
    ∃ date : Date, (date.month = if (5 * day + 2) / 153 < 10 then (5 * day + 2) / 153 + 3
        else (5 * day + 2) / 153 - 9) ∧
      date.day = day - (153 * ((5 * day + 2) / 153) + 2) / 5 + 1 ∧
      date.year = year + (if date.month ≤ 2 then 1 else 0) ∧
      ∀ epoch, date.number epoch = daysBetween epoch year + beforeMarch year + day := by
  generalize hm : (5 * day + 2) / 153 = m
  rcases Nat.lt_or_ge m 10 with hlt | hge
  · have hlength : monthLength year (m + 3) + (153 * m + 2) / 5 = (153 * (m + 1) + 2) / 5 :=
      monthLength_march (Nat.le_of_lt_succ hlt)
    rw [if_pos hlt]
    refine ⟨⟨year, m + 3, day - (153 * m + 2) / 5 + 1, by omega, by omega⟩, rfl, rfl, ?_, ?_⟩
    · rw [if_neg (by dsimp only; omega), add_zero]
    · intro epoch
      dsimp only [Date.number]
      rw [daysBeforeMonth_march (Nat.le_of_lt_succ hlt)]
      omega
  -- January and February are those of the next year.
  rw [if_neg (Nat.not_lt.mpr hge)]
  have hyear := yearLength_march year
  rcases (by omega : m = 10 ∨ m = 11) with rfl | rfl
  · have hlength : monthLength (year + 1) 1 = 31 := rfl
    refine ⟨⟨year + 1, 1, day - 306 + 1, by omega, by omega⟩, rfl, rfl, rfl, fun epoch => ?_⟩
    dsimp only [Date.number]
    rw [daysBetween_succ, daysBeforeMonth, Finset.Ico_self, Finset.sum_empty]
    omega
  · have hlength : monthLength (year + 1) 2 = if IsLeap (year + 1) then 29 else 28 := rfl
    have hshort : 28 ≤ monthLength (year + 1) 2 ∧
        (IsLeap (year + 1) → monthLength (year + 1) 2 = 29) := by
      rw [hlength]
      split <;> simp [*]
    have hday : day - 337 + 1 ≤ monthLength (year + 1) 2 := by
      rcases h with hle | ⟨rfl, hleap⟩
      · omega
      · rw [hshort.2 hleap]
    refine ⟨⟨year + 1, 2, day - 337 + 1, by omega, by omega⟩, rfl, rfl, rfl, fun epoch => ?_⟩
    have hjanuary : daysBeforeMonth (year + 1) 2 = 31 := rfl
    dsimp only [Date.number]
    rw [daysBetween_succ, hjanuary]
    omega

/-! ### The date of a day -/

theorem EraDay.number_lt (e : EraDay) : e.number < 146097 := by
  have hc := e.century_le
  have hq := e.olympiad_le
  have hr := e.year_le
  have hd := e.day_le
  rw [number]
  omega

theorem EraDay.exists_date (e : EraDay) (era : Nat) :
    ∃ date : Date, (date.month = if (5 * e.day + 2) / 153 < 10 then (5 * e.day + 2) / 153 + 3
        else (5 * e.day + 2) / 153 - 9) ∧
      date.day = e.day - (153 * ((5 * e.day + 2) / 153) + 2) / 5 + 1 ∧
      date.year = ((e.yearOfEra + era * 400 + if date.month ≤ 2 then 1 else 0 : Nat) : Int) ∧
      date.number 1970 = 146097 * era + e.number - 719468 := by
  have hc := e.century_le
  have hq := e.olympiad_le
  have hr := e.year_le
  have hleap : e.day ≤ 364 ∨ e.day = 365 ∧ IsLeap ((e.yearOfEra + era * 400 : Nat) + 1) := by
    refine e.day_le.imp_right fun hlast => ⟨hlast.1, ?_⟩
    unfold IsLeap
    rw [yearOfEra]
    omega
  obtain ⟨date, hmonth, hday, hyear, hnumber⟩ := exists_marchDate hleap
  refine ⟨date, hmonth, hday, hyear.trans ?_, ?_⟩
  · split <;> simp
  · have hnext := daysBetween_succ 1970 (e.yearOfEra + era * 400 : Nat)
    rw [yearLength_march, daysBetween_eq, leapsBefore, leapsBefore] at hnext
    rw [hnumber 1970]
    rw [yearOfEra] at hnext ⊢
    rw [number]
    omega

theorem bind_of_some {α β : Type} {x : Option α} {a : α} {f : α → Option β} (h : x = some a) :
    (x >>= f) = f a := by
  rw [h]
  rfl

theorem u64Max_eq : u64Max = 18446744073709551615 := rfl

theorem yearOfEra_steps {n : Nat} (h : n < 146097) :
    checkedSub n (n / 1460) = some (n - n / 1460) ∧
      checkedAdd (n - n / 1460) (n / 36524) = some (n - n / 1460 + n / 36524) ∧
      checkedSub (n - n / 1460 + n / 36524) (n / 146096) =
        some (n - n / 1460 + n / 36524 - n / 146096) := by
  have hmax := u64Max_eq
  refine ⟨checkedSub_of_le (by omega), checkedAdd_eq_some.mpr ⟨by omega, rfl⟩,
    checkedSub_of_le (by omega)⟩

theorem EraDay.yearOfEra_le (e : EraDay) : e.yearOfEra ≤ 399 := by
  have hc := e.century_le
  have hq := e.olympiad_le
  have hr := e.year_le
  rw [yearOfEra]
  omega

theorem dayOfYear_steps {n y d : Nat} (hy : y ≤ 399)
    (hstart : 365 * y + y / 4 - y / 100 + d = n) :
    checkedMul 365 y = some (365 * y) ∧
      checkedAdd (365 * y) (y / 4) = some (365 * y + y / 4) ∧
      checkedSub (365 * y + y / 4) (y / 100) = some (365 * y + y / 4 - y / 100) ∧
      checkedSub n (365 * y + y / 4 - y / 100) = some d := by
  have hmax := u64Max_eq
  refine ⟨checkedMul_of_le (by omega), checkedAdd_eq_some.mpr ⟨by omega, rfl⟩,
    checkedSub_of_le (by omega), ?_⟩
  rw [checkedSub_of_le (by omega), ← hstart, Nat.add_sub_cancel_left]

theorem month_steps {d m : Nat} (hd : d ≤ 365) (hm : (5 * d + 2) / 153 = m) :
    checkedMul 5 d = some (5 * d) ∧ checkedAdd (5 * d) 2 = some (5 * d + 2) ∧
      checkedMul 153 m = some (153 * m) ∧ checkedAdd (153 * m) 2 = some (153 * m + 2) ∧
      checkedSub d ((153 * m + 2) / 5) = some (d - (153 * m + 2) / 5) ∧
      checkedAdd (d - (153 * m + 2) / 5) 1 = some (d - (153 * m + 2) / 5 + 1) ∧
      (if m < 10 then checkedAdd m 3 else checkedSub m 9) =
        some (if m < 10 then m + 3 else m - 9) := by
  have hmax := u64Max_eq
  refine ⟨checkedMul_of_le (by omega), checkedAdd_eq_some.mpr ⟨by omega, rfl⟩,
    checkedMul_of_le (by omega), checkedAdd_eq_some.mpr ⟨by omega, rfl⟩,
    checkedSub_of_le (by omega), checkedAdd_eq_some.mpr ⟨by omega, rfl⟩, ?_⟩
  split
  · exact checkedAdd_eq_some.mpr ⟨by omega, rfl⟩
  · exact checkedSub_of_le (by omega)

theorem civilTime_eq {seconds era : Nat} (e : EraDay) (hbound : seconds ≤ u64Max)
    (hdays : seconds / 86400 + 719468 = 146097 * era + e.number) {month : Nat}
    (hmonth : month = if (5 * e.day + 2) / 153 < 10 then (5 * e.day + 2) / 153 + 3
      else (5 * e.day + 2) / 153 - 9) :
    civilTime seconds = some
      { year := e.yearOfEra + era * 400 + if month ≤ 2 then 1 else 0
        month := month
        day := e.day - (153 * ((5 * e.day + 2) / 153) + 2) / 5 + 1
        hour := seconds % 86400 / 3600
        minute := seconds % 86400 / 60 % 60
        second := seconds % 86400 % 60 } := by
  have hmax := u64Max_eq
  have hlt := e.number_lt
  have hyears := e.yearOfEra_le
  have hshift : checkedAdd (seconds / 86400) 719468 = some (146097 * era + e.number) :=
    checkedAdd_eq_some.mpr ⟨by omega, hdays.symm⟩
  have hera : (146097 * era + e.number) / 146097 = era := by omega
  have heraStart : checkedMul era 146097 = some (era * 146097) := checkedMul_of_le (by omega)
  have hdayOfEra : checkedSub (146097 * era + e.number) (era * 146097) = some e.number := by
    rw [checkedSub_of_le (by omega), Nat.mul_comm, Nat.add_sub_cancel_left]
  have heraYears : checkedMul era 400 = some (era * 400) := checkedMul_of_le (by omega)
  have hyear : checkedAdd e.yearOfEra (era * 400) = some (e.yearOfEra + era * 400) :=
    checkedAdd_eq_some.mpr ⟨by omega, rfl⟩
  have hyear' : checkedAdd (e.yearOfEra + era * 400) (if month ≤ 2 then 1 else 0) =
      some (e.yearOfEra + era * 400 + if month ≤ 2 then 1 else 0) :=
    checkedAdd_eq_some.mpr ⟨by split <;> omega, rfl⟩
  have hd : e.day ≤ 365 := e.day_le.elim (by omega) (·.1.le)
  obtain ⟨hfourths, hcenturies, heras⟩ := yearOfEra_steps hlt
  obtain ⟨hyearDays, hleapDays, hyearStart, hdayOfYear⟩ := dayOfYear_steps hyears e.yearStart_eq
  obtain ⟨hfive, hfive', hmonths, hmonths', hday, hday', hmonth'⟩ := month_steps hd rfl
  rw [← hmonth] at hmonth'
  unfold civilTime
  dsimp only
  rw [bind_of_some hshift, hera, bind_of_some heraStart, bind_of_some hdayOfEra,
    bind_of_some hfourths, bind_of_some hcenturies, bind_of_some heras, e.yearOfEra_eq,
    bind_of_some hyearDays, bind_of_some hleapDays, bind_of_some hyearStart,
    bind_of_some hdayOfYear, bind_of_some hfive, bind_of_some hfive', bind_of_some hmonths,
    bind_of_some hmonths', bind_of_some hday, bind_of_some hday', bind_of_some hmonth',
    bind_of_some heraYears, bind_of_some hyear, bind_of_some hyear']

/-! ### Printed times -/

def printed (time : DateTime) : CivilTime where
  year := time.date.year.toNat
  month := time.date.month
  day := time.date.day
  hour := time.hour
  minute := time.minute
  second := time.second

structure At (seconds : Nat) (time : DateTime) : Prop where
  number_eq : time.date.number 1970 = (seconds / 86400 : Nat)
  ofDay_eq : time.ofDay = seconds % 86400

theorem At.seconds_eq {seconds : Nat} {time : DateTime} (h : At seconds time) :
    time.seconds 1970 = seconds := by
  rw [DateTime.seconds, h.number_eq, h.ofDay_eq]
  omega

theorem At.lt {seconds seconds' : Nat} {time time' : DateTime} (h : At seconds time)
    (h' : At seconds' time') (hlt : seconds < seconds') : time < time' := by
  rw [← (DateTime.seconds_strictMono 1970).lt_iff_lt, h.seconds_eq, h'.seconds_eq]
  exact Int.ofNat_lt.mpr hlt

theorem exists_at (seconds : Nat) :
    ∃ time, At seconds time ∧ (seconds ≤ u64Max → civilTime seconds = some (printed time)) := by
  obtain ⟨e, he⟩ := EraDay.exists_number
    (Nat.mod_lt (seconds / 86400 + 719468) (by decide : 0 < 146097))
  have hdays : seconds / 86400 + 719468 =
      146097 * ((seconds / 86400 + 719468) / 146097) + e.number := by
    rw [he, Nat.div_add_mod]
  generalize (seconds / 86400 + 719468) / 146097 = era at hdays
  obtain ⟨date, hmonth, hday, hyear, hnumber⟩ := e.exists_date era
  refine ⟨⟨date, seconds % 86400 / 3600, seconds % 86400 / 60 % 60, seconds % 86400 % 60,
    by omega, by omega, by omega⟩, ⟨?_, ?_⟩, fun hbound => ?_⟩
  · rw [hnumber]
    omega
  · dsimp only [DateTime.ofDay]
    omega
  · rw [civilTime_eq e hbound hdays hmonth, printed, hday, hyear, Int.toNat_natCast]

/-- Every time that a `u64` of seconds counts is printed as its date in the Gregorian calendar and
its time of day, without a panic, and later times have later ones. -/
theorem utc_times_gregorian : ∃ dateTime : Nat → DateTime,
    (∀ seconds nanos, seconds ≤ u64Max → nanos < 1000000000 →
      formatUtc (seconds * 1000000000 + nanos : Nat) =
        some (some (printed (dateTime seconds)).text)) ∧
    (∀ seconds, (dateTime seconds).date.number 1970 = (seconds / 86400 : Nat) ∧
      (dateTime seconds).ofDay = seconds % 86400 ∧
      ∀ date : Date, date.number 1970 = (seconds / 86400 : Nat) → date = (dateTime seconds).date) ∧
    StrictMono dateTime := by
  choose dateTime hat hcivil using exists_at
  refine ⟨dateTime, ?_, ?_, fun seconds seconds' hlt => (hat seconds).lt (hat seconds') hlt⟩
  · intro seconds nanos hbound hnanos
    have hseconds : (seconds * 1000000000 + nanos) / 1000000000 = seconds := by omega
    rw [formatUtc, if_neg (by omega), Int.toNat_natCast, hseconds, hcivil seconds hbound]
    rfl
  · intro seconds
    refine ⟨(hat seconds).number_eq, (hat seconds).ofDay_eq, fun date hdate => ?_⟩
    exact (Date.number_strictMono 1970).injective (hdate.trans (hat seconds).number_eq.symm)

example : formatUtc 951782400000000000 = some (some "2000-02-29 00:00:00 UTC") := by decide

end Srui.Srtop.UtcTimes
