/-!
# The Gregorian calendar

Dates of the proleptic calendar, the day before and the day after, and the
weekday, which counts along with the days (`dayNumber_next`). An offset of less
than a day moves a time into one of these three days (`shift`).

A date is valid by its type: the day is one of the month's, and a month that does not
exist has no days. The year is any integer, with a year zero, so that the rules for leap
years need no exception.

Days are counted from the year 1, and only to get the weekday. No date is ever computed
from a number of days: times that are shifted move by less than a day, and for that the
neighbours of a date are enough.
-/

namespace Rtsp
namespace Lib

inductive Weekday where
  | mon | tue | wed | thu | fri | sat | sun
  deriving DecidableEq

def isLeap (year : Int) : Bool := year % 4 = 0 && (year % 100 ≠ 0 || year % 400 = 0)

/-- The days of a month, none if there is no such month. -/
def daysInMonth (year : Int) : Nat → Nat
  | 1 | 3 | 5 | 7 | 8 | 10 | 12 => 31
  | 4 | 6 | 9 | 11 => 30
  | 2 => if isLeap year then 29 else 28
  | _ => 0

structure CivilDate where
  year : Int
  month : Nat
  day : Nat
  day_pos : 1 ≤ day
  day_le : day ≤ daysInMonth year month
  deriving DecidableEq

/-- The days up to the year, from the beginning of the year 1. -/
def daysBeforeYear (year : Int) : Int :=
  365 * (year - 1) + (year - 1) / 4 - (year - 1) / 100 + (year - 1) / 400

/-- The days of the months before. -/
def daysBeforeMonth (year : Int) : Nat → Nat
  | 0 => 0
  | month + 1 => daysBeforeMonth year month + daysInMonth year month

/-- The weekday of a day that is counted from the last before the year 1, a Sunday. -/
def Weekday.ofNumber (n : Int) : Weekday :=
  if n % 7 = 0 then sun else if n % 7 = 1 then mon else if n % 7 = 2 then tue
  else if n % 7 = 3 then wed else if n % 7 = 4 then thu else if n % 7 = 5 then fri else sat

theorem daysInMonth_pos {year : Int} {month : Nat} (h : 1 ≤ month ∧ month ≤ 12) :
    1 ≤ daysInMonth year month := by
  have hmonth : month = 1 ∨ month = 2 ∨ month = 3 ∨ month = 4 ∨ month = 5 ∨ month = 6 ∨
      month = 7 ∨ month = 8 ∨ month = 9 ∨ month = 10 ∨ month = 11 ∨ month = 12 := by omega
  rcases hmonth with rfl | rfl | rfl | rfl | rfl | rfl | rfl | rfl | rfl | rfl | rfl | rfl
  case inr.inl =>
    show 1 ≤ if isLeap year then 29 else 28
    split <;> decide
  all_goals exact Nat.one_le_iff_ne_zero.mpr (by simp [daysInMonth])

theorem daysInMonth_le (year : Int) (month : Nat) : daysInMonth year month ≤ 31 := by
  unfold daysInMonth
  split
  case h_12 => split <;> decide
  all_goals decide

theorem month_of_daysInMonth {year : Int} {month : Nat} (h : 1 ≤ daysInMonth year month) :
    1 ≤ month ∧ month ≤ 12 := by
  unfold daysInMonth at h
  split at h
  all_goals omega

namespace CivilDate

theorem month_range (d : CivilDate) : 1 ≤ d.month ∧ d.month ≤ 12 :=
  month_of_daysInMonth (Nat.le_trans d.day_pos d.day_le)

def ofValid (year : Int) (month day : Nat) (h : 1 ≤ day ∧ day ≤ daysInMonth year month) :
    CivilDate :=
  ⟨year, month, day, h.1, h.2⟩

/-- The day after. -/
def next (d : CivilDate) : CivilDate :=
  if h : d.day < daysInMonth d.year d.month then ⟨d.year, d.month, d.day + 1, by omega, h⟩
  else if h : d.month < 12 then
    ⟨d.year, d.month + 1, 1, Nat.le_refl 1, daysInMonth_pos ⟨by omega, h⟩⟩
  else ⟨d.year + 1, 1, 1, Nat.le_refl 1, by simp [daysInMonth]⟩

/-- The day before. -/
def prev (d : CivilDate) : CivilDate :=
  if h : 1 < d.day then
    ⟨d.year, d.month, d.day - 1, by omega, Nat.le_trans (Nat.sub_le _ _) d.day_le⟩
  else if h : 1 < d.month then
    ⟨d.year, d.month - 1, daysInMonth d.year (d.month - 1),
      daysInMonth_pos ⟨by omega, Nat.le_trans (Nat.sub_le _ _) d.month_range.2⟩, Nat.le_refl _⟩
  else ⟨d.year - 1, 12, 31, by decide, by simp [daysInMonth]⟩

/-- The number of the day, from the beginning of the year 1. -/
def dayNumber (d : CivilDate) : Int :=
  daysBeforeYear d.year + daysBeforeMonth d.year d.month + d.day

def weekday (d : CivilDate) : Weekday := .ofNumber d.dayNumber

/-- The days of a year are those before December and 31. -/
theorem daysBeforeYear_succ (year : Int) :
    daysBeforeYear (year + 1) = daysBeforeYear year + daysBeforeMonth year 12 + 31 := by
  have hmonths : daysBeforeMonth year 12 = 306 + daysInMonth year 2 := by
    simp only [daysBeforeMonth, daysInMonth]
    omega
  rw [hmonths]
  unfold daysBeforeYear daysInMonth isLeap
  by_cases hfour : year % 4 = 0
  · by_cases hcentury : year % 100 = 0
    · by_cases hfourth : year % 400 = 0
      · simp only [hfour, hcentury, hfourth, decide_true, ne_eq, not_true_eq_false, decide_false,
          Bool.or_true, Bool.and_true, if_true]
        omega
      · simp only [hfour, hcentury, hfourth, decide_true, ne_eq, not_true_eq_false, decide_false,
          Bool.or_false, Bool.and_false, Bool.false_eq_true, if_false]
        omega
    · simp only [hfour, hcentury, decide_true, ne_eq, not_false_eq_true, Bool.true_or,
        Bool.and_true, if_true]
      omega
  · simp only [hfour, decide_false, Bool.false_and, Bool.false_eq_true, if_false]
    omega

theorem dayNumber_next (d : CivilDate) : d.next.dayNumber = d.dayNumber + 1 := by
  have hpos := d.day_pos
  have hle := d.day_le
  have hmonth := d.month_range
  unfold next
  split
  · simp only [dayNumber]
    omega
  · next hlast =>
    split
    · simp only [dayNumber, daysBeforeMonth]
      omega
    · have htwelve : d.month = 12 := by omega
      have hdays : daysInMonth d.year 12 = 31 := rfl
      have hfirst : daysBeforeMonth (d.year + 1) 1 = 0 := rfl
      rw [htwelve, hdays] at hle hlast
      simp only [dayNumber, daysBeforeYear_succ, hfirst, htwelve]
      omega

theorem dayNumber_prev (d : CivilDate) : d.prev.dayNumber = d.dayNumber - 1 := by
  have hpos := d.day_pos
  have hmonth := d.month_range
  unfold prev
  split
  · simp only [dayNumber]
    omega
  · split
    · obtain ⟨month, hm⟩ : ∃ month, d.month = month + 1 := ⟨d.month - 1, by omega⟩
      simp only [dayNumber, hm, daysBeforeMonth, Nat.add_sub_cancel]
      omega
    · have hone : d.month = 1 := by omega
      have hyear := daysBeforeYear_succ (d.year - 1)
      have hfirst : daysBeforeMonth d.year 1 = 0 := rfl
      rw [Int.sub_add_cancel] at hyear
      simp only [dayNumber, hone, hfirst, hyear]
      omega

end CivilDate

/-- The weekdays from Sunday on. -/
def Weekday.index : Weekday → Int
  | sun => 0
  | mon => 1
  | tue => 2
  | wed => 3
  | thu => 4
  | fri => 5
  | sat => 6

theorem Weekday.index_ofNumber (n : Int) : (Weekday.ofNumber n).index = n % 7 := by
  have hlo := Int.emod_nonneg n (by decide : (7 : Int) ≠ 0)
  have hhi := Int.emod_lt_of_pos n (by decide : (0 : Int) < 7)
  unfold ofNumber
  repeat' split
  all_goals simp only [index]
  all_goals omega

/-- A week has seven days. -/
theorem Weekday.ofNumber_eq_iff {m n : Int} :
    Weekday.ofNumber m = Weekday.ofNumber n ↔ m % 7 = n % 7 := by
  constructor
  · intro h
    rw [← index_ofNumber, h, index_ofNumber]
  · intro h
    simp only [ofNumber, h]

namespace CivilDate

theorem weekday_next_ne (d : CivilDate) : d.next.weekday ≠ d.weekday := by
  intro h
  have hmod := Weekday.ofNumber_eq_iff.mp h
  rw [dayNumber_next] at hmod
  omega

theorem weekday_prev_ne (d : CivilDate) : d.prev.weekday ≠ d.weekday := by
  intro h
  have hmod := Weekday.ofNumber_eq_iff.mp h
  rw [dayNumber_prev] at hmod
  omega

/-! ## Times of day -/

/-- The day and the second of the day, where the second may lie on the day before or after. -/
def shift (d : CivilDate) (second : Int) : CivilDate × Int :=
  if second < 0 then (d.prev, second + 86400)
  else if second < 86400 then (d, second)
  else (d.next, second - 86400)

/-- A time of the day itself. -/
theorem shift_of_lt (d : CivilDate) {second : Int} (hlo : 0 ≤ second) (hhi : second < 86400) :
    d.shift second = (d, second) := by
  rw [shift, if_neg (Int.not_lt.mpr hlo), if_pos hhi]

theorem shift_range {d : CivilDate} {second : Int} (hlo : -86400 ≤ second)
    (hhi : second < 2 * 86400) : 0 ≤ (d.shift second).2 ∧ (d.shift second).2 < 86400 := by
  unfold shift
  split
  · dsimp only
    omega
  · split
    · dsimp only
      omega
    · dsimp only
      omega

/-- A time on another day has another weekday. -/
theorem weekday_shift_iff (d : CivilDate) (second : Int) :
    (d.shift second).1.weekday = d.weekday ↔ (d.shift second).1 = d := by
  refine ⟨fun h => ?_, fun h => congrArg weekday h⟩
  unfold shift at h ⊢
  split at h
  · exact absurd h d.weekday_prev_ne
  · split at h
    · next hneg hlt => rw [if_neg hneg, if_pos hlt]
    · exact absurd h d.weekday_next_ne

end CivilDate
end Lib
end Rtsp
