import Mathlib

/-!
The proleptic Gregorian calendar: its years in both directions, the months of a year, and dates
numbered by the days between them.
-/

namespace Srui.Basic.Calendars

def IsLeap (year : Int) : Prop := 4 ∣ year ∧ (¬100 ∣ year ∨ 400 ∣ year)

instance (year : Int) : Decidable (IsLeap year) := inferInstanceAs (Decidable (_ ∧ _))

def monthLength (year : Int) (month : Nat) : Nat :=
  if month = 2 then if IsLeap year then 29 else 28
  else if month ∈ [4, 6, 9, 11] then 30
  else 31

def daysBeforeMonth (year : Int) (month : Nat) : Nat := ∑ m ∈ Finset.Ico 1 month, monthLength year m

def yearLength (year : Int) : Nat := ∑ m ∈ Finset.Icc 1 12, monthLength year m

def daysBetween (start stop : Int) : Int :=
  ∑ k ∈ Finset.range (stop - start).toNat, (yearLength (start + k) : Int) -
    ∑ k ∈ Finset.range (start - stop).toNat, (yearLength (stop + k) : Int)

/-! ### Days before a year -/

theorem yearLength_eq (year : Int) : yearLength year = if IsLeap year then 366 else 365 := by
  have hmonths : Finset.Icc 1 12 = {1, 2, 3, 4, 5, 6, 7, 8, 9, 10, 11, 12} := by decide
  rw [yearLength, hmonths]
  by_cases h : IsLeap year <;> simp [monthLength, h]

theorem daysBetween_self (year : Int) : daysBetween year year = 0 := by simp [daysBetween]

theorem daysBetween_succ (start stop : Int) :
    daysBetween start (stop + 1) = daysBetween start stop + yearLength stop := by
  rw [daysBetween, daysBetween]
  rcases le_or_gt start stop with h | h
  · have hafter : (stop + 1 - start).toNat = (stop - start).toNat + 1 := by omega
    have hbefore : (start - (stop + 1)).toNat = (start - stop).toNat := by omega
    have hlast : start + ((stop - start).toNat : Int) = stop := by omega
    have hnone : (start - stop).toNat = 0 := by omega
    rw [hafter, hbefore, Finset.sum_range_succ, hlast, hnone, Finset.sum_range_zero,
      Finset.sum_range_zero]
    ring
  · have hafter : (stop + 1 - start).toNat = 0 := by omega
    have hbefore : (start - stop).toNat = (start - (stop + 1)).toNat + 1 := by omega
    have hnone : (stop - start).toNat = 0 := by omega
    have hshift (k : Nat) : stop + ((k + 1 : Nat) : Int) = stop + 1 + k := by omega
    rw [hafter, hbefore, hnone, Finset.sum_range_succ' _ (start - (stop + 1)).toNat]
    simp only [hshift, Finset.sum_range_zero, Nat.cast_zero, add_zero]
    ring

def leapsBefore (year : Int) : Int := (year - 1) / 4 - (year - 1) / 100 + (year - 1) / 400

theorem leapsBefore_succ (year : Int) :
    leapsBefore (year + 1) = leapsBefore year + if IsLeap year then 1 else 0 := by
  have hfour : year / 4 = (year - 1) / 4 + if year % 4 = 0 then 1 else 0 := by omega
  have hhundred : year / 100 = (year - 1) / 100 + if year % 100 = 0 then 1 else 0 := by omega
  have hcentury : year / 400 = (year - 1) / 400 + if year % 400 = 0 then 1 else 0 := by omega
  rw [leapsBefore, leapsBefore, add_sub_cancel_right, hfour, hhundred, hcentury]
  by_cases h : IsLeap year
  · rw [if_pos h]
    unfold IsLeap at h
    split_ifs <;> omega
  · rw [if_neg h]
    unfold IsLeap at h
    split_ifs <;> omega

theorem daysBetween_eq (start stop : Int) :
    daysBetween start stop = 365 * (stop - start) + (leapsBefore stop - leapsBefore start) := by
  have hstep (year : Int) : daysBetween start (year + 1) - (365 * (year + 1 - start) +
      (leapsBefore (year + 1) - leapsBefore start)) = daysBetween start year -
        (365 * (year - start) + (leapsBefore year - leapsBefore start)) := by
    rw [daysBetween_succ, leapsBefore_succ, yearLength_eq]
    split <;> push_cast <;> ring
  have hall : daysBetween start stop -
      (365 * (stop - start) + (leapsBefore stop - leapsBefore start)) = 0 := by
    induction stop using Int.inductionOn' (b := start) with
    | zero => rw [daysBetween_self]; ring
    | succ year _ ih => rw [hstep, ih]
    | pred year _ ih =>
      have hback := hstep (year - 1)
      rw [sub_add_cancel, ih] at hback
      exact hback.symm
  omega

theorem daysBetween_lt {start a b : Int} (h : a < b) :
    daysBetween start a + yearLength a ≤ daysBetween start b := by
  rw [← daysBetween_succ]
  induction b, (h : a + 1 ≤ b) using Int.leInduction with
  | base => exact le_refl _
  | succ b _ ih =>
    rw [daysBetween_succ start b]
    omega

/-! ### Days before a month -/

variable {year : Int}

theorem daysBeforeMonth_succ {month : Nat} (h : 1 ≤ month) :
    daysBeforeMonth year (month + 1) = daysBeforeMonth year month + monthLength year month :=
  Finset.sum_Ico_succ_top h _

theorem daysBeforeMonth_lt {month month' : Nat} (hmonth : 1 ≤ month) (h : month < month') :
    daysBeforeMonth year month + monthLength year month ≤ daysBeforeMonth year month' := by
  rw [← daysBeforeMonth_succ hmonth]
  exact Finset.sum_le_sum_of_subset (Finset.Ico_subset_Ico_right h)

theorem daysBeforeMonth_end : daysBeforeMonth year 13 = yearLength year := rfl

/-! ### Dates -/

structure Date where
  year : Int
  month : Nat
  day : Nat
  month_mem : 1 ≤ month ∧ month ≤ 12
  day_mem : 1 ≤ day ∧ day ≤ monthLength year month

def Date.fields (date : Date) : Int ×ₗ Nat ×ₗ Nat := toLex (date.year, toLex (date.month, date.day))

theorem Date.fields_injective : Function.Injective Date.fields := by
  rintro ⟨year, month, day, _, _⟩ ⟨year', month', day', _, _⟩ h
  obtain ⟨hyear, hrest⟩ := Prod.mk.inj h
  obtain ⟨hmonth, hday⟩ := Prod.mk.inj hrest
  subst hyear hmonth hday
  rfl

instance : LinearOrder Date := LinearOrder.lift' Date.fields Date.fields_injective

theorem Date.lt_iff {a b : Date} : a < b ↔ a.year < b.year ∨ a.year = b.year ∧
    (a.month < b.month ∨ a.month = b.month ∧ a.day < b.day) := by
  change a.fields < b.fields ↔ _
  rw [Date.fields, Date.fields, Prod.Lex.toLex_lt_toLex, Prod.Lex.toLex_lt_toLex]

/-- The number of a date, counted from the first day of the year `epoch`. -/
def Date.number (epoch : Int) (date : Date) : Int :=
  daysBetween epoch date.year + daysBeforeMonth date.year date.month + (date.day - 1 : Int)

theorem Date.number_strictMono (epoch : Int) : StrictMono (Date.number epoch) := by
  intro a b h
  have hday := a.day_mem
  have hday' := b.day_mem
  have hmonth := a.month_mem
  have hinside : daysBeforeMonth a.year a.month + monthLength a.year a.month ≤
      daysBeforeMonth a.year 13 := daysBeforeMonth_lt hmonth.1 (Nat.lt_succ_of_le hmonth.2)
  rw [daysBeforeMonth_end] at hinside
  rw [Date.number, Date.number]
  rcases Date.lt_iff.mp h with hyear | ⟨hyear, hsame⟩
  · have hyears : daysBetween epoch a.year + yearLength a.year ≤ daysBetween epoch b.year :=
      daysBetween_lt hyear
    omega
  rw [← hyear]
  rcases hsame with hlt | ⟨heq, hlt⟩
  · have hmonths : daysBeforeMonth a.year a.month + monthLength a.year a.month ≤
        daysBeforeMonth a.year b.month := daysBeforeMonth_lt hmonth.1 hlt
    omega
  · rw [← heq]
    omega

/-! ### Times of a day -/

structure DateTime where
  date : Date
  hour : Nat
  minute : Nat
  second : Nat
  hour_lt : hour < 24
  minute_lt : minute < 60
  second_lt : second < 60

def DateTime.ofDay (time : DateTime) : Nat := time.hour * 3600 + time.minute * 60 + time.second

def DateTime.fields (time : DateTime) : Date ×ₗ Nat ×ₗ Nat ×ₗ Nat :=
  toLex (time.date, toLex (time.hour, toLex (time.minute, time.second)))

theorem DateTime.fields_injective : Function.Injective DateTime.fields := by
  rintro ⟨date, hour, minute, second, _, _, _⟩ ⟨date', hour', minute', second', _, _, _⟩ h
  obtain ⟨hdate, hrest⟩ := Prod.mk.inj h
  obtain ⟨hhour, hlast⟩ := Prod.mk.inj hrest
  obtain ⟨hminute, hsecond⟩ := Prod.mk.inj hlast
  subst hdate hhour hminute hsecond
  rfl

instance : LinearOrder DateTime := LinearOrder.lift' DateTime.fields DateTime.fields_injective

theorem DateTime.lt_iff {a b : DateTime} : a < b ↔ a.date < b.date ∨ a.date = b.date ∧
    (a.hour < b.hour ∨ a.hour = b.hour ∧
      (a.minute < b.minute ∨ a.minute = b.minute ∧ a.second < b.second)) := by
  change a.fields < b.fields ↔ _
  rw [DateTime.fields, DateTime.fields, Prod.Lex.toLex_lt_toLex, Prod.Lex.toLex_lt_toLex,
    Prod.Lex.toLex_lt_toLex]

/-- The seconds from the start of the year `epoch`. -/
def DateTime.seconds (epoch : Int) (time : DateTime) : Int :=
  time.date.number epoch * 86400 + time.ofDay

theorem DateTime.ofDay_lt (time : DateTime) : time.ofDay < 86400 := by
  have hhour := time.hour_lt
  have hminute := time.minute_lt
  have hsecond := time.second_lt
  rw [DateTime.ofDay]
  omega

theorem DateTime.seconds_strictMono (epoch : Int) : StrictMono (DateTime.seconds epoch) := by
  intro a b h
  have hday := a.ofDay_lt
  rw [DateTime.seconds, DateTime.seconds]
  rcases DateTime.lt_iff.mp h with hdate | ⟨hdate, hsame⟩
  · have hnumber := Date.number_strictMono epoch hdate
    omega
  · have hminute := a.minute_lt
    have hsecond := a.second_lt
    have hofDay : a.ofDay < b.ofDay := by
      rw [DateTime.ofDay, DateTime.ofDay]
      omega
    rw [← hdate]
    omega

end Srui.Basic.Calendars
