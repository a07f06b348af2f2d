import Rtsp.Lib.Calendar
import Rtsp.Str

/-!
# What dates have of `chrono`

What the crate contributes is a parameter (`Chrono`); what is documented of it is
`Chrono.Lawful`, and for printing `Chrono.Prints`.

`resolve` is one call for five of the crate's, since the code chains them and only asks
in the end whether there is an instant. It can panic: nothing in the code prevents that,
and `Lawful` does not exclude it for every argument.

`Lawful` asks for the right answer only where there is one: a date of the calendar, a
time of day, an offset of less than a day, and an instant whose year is in the range.
What the crate does with anything else is left open, and a result that depends on it
takes the answer as it comes.

The range is known only to contain the years of four digits. That is all that headers
need.
-/

namespace Rtsp.Common

open Lib

/-- `DateTime<Utc>`: a day, a second of the day, and nanoseconds, from `1_000_000_000` on those of a
    leap second. -/
structure DateTime where
  date : CivilDate
  second : Nat
  nanos : Nat
  second_lt : second < 86400
  nanos_lt : nanos < 2000000000
  deriving DecidableEq

/-- The part of `chrono` that dates call. -/
structure Chrono where
  /-- The years its dates have. -/
  minYear : Int
  maxYear : Int
  /-- `FixedOffset::east_opt(offset)`, `.ymd_opt(year, month, day)`,
      `.and_hms_opt(hour, minute, second)`, `.single()` and `.with_timezone(&Utc)`: `none` where
      one of them is. -/
  resolve (offset year : Int) (month day hour minute second : Nat) : Rust (Option DateTime)
  /-- `DateTime::weekday` -/
  weekday : DateTime → Weekday
  /-- `DateTime::format(format)`, printed by `to_string`. -/
  format : Str → DateTime → Str

/-- The instant of a local time at an offset, in seconds, to the east. -/
def UtcOf (d : CivilDate) (hour minute second : Nat) (offset : Int) (t : DateTime) : Prop :=
  (t.date, (t.second : Int)) = d.shift (hour * 3600 + minute * 60 + second - offset) ∧ t.nanos = 0

namespace Chrono

def InRange (chrono : Chrono) (year : Int) : Prop := chrono.minYear ≤ year ∧ year ≤ chrono.maxYear

/-- Its calendar, weekdays and offsets are right, for dates and instants in its range. -/
structure Lawful (chrono : Chrono) : Prop where
  inRange : ∀ year, 0 ≤ year → year ≤ 9999 → chrono.InRange year
  resolve_eq : ∀ (d : CivilDate) (hour minute second : Nat) (offset : Int) (t : DateTime),
    hour < 24 → minute < 60 → second < 60 → -86400 < offset → offset < 86400 →
    chrono.InRange d.year → chrono.InRange t.date.year → UtcOf d hour minute second offset t →
    chrono.resolve offset d.year d.month d.day hour minute second = .ok (some t)
  weekday_eq : ∀ t, chrono.weekday t = t.date.weekday

end Chrono

/-! ## Printing -/

/-- `%a` -/
def dayName : Weekday → Str
  | .mon => "Mon".toList
  | .tue => "Tue".toList
  | .wed => "Wed".toList
  | .thu => "Thu".toList
  | .fri => "Fri".toList
  | .sat => "Sat".toList
  | .sun => "Sun".toList

/-- `%b` -/
def monthName : Nat → Str
  | 1 => "Jan".toList
  | 2 => "Feb".toList
  | 3 => "Mar".toList
  | 4 => "Apr".toList
  | 5 => "May".toList
  | 6 => "Jun".toList
  | 7 => "Jul".toList
  | 8 => "Aug".toList
  | 9 => "Sep".toList
  | 10 => "Oct".toList
  | 11 => "Nov".toList
  | _ => "Dec".toList

/-- The last digits of a number, with zeros in front where it has fewer. -/
def zeroPadded : Nat → Nat → Str
  | 0, _ => []
  | width + 1, n => zeroPadded width (n / 10) ++ [Nat.digitChar (n % 10)]

/-- What is printed for a specifier that dates have, in UTC and for a year of four digits. -/
def specifier (t : DateTime) : Char → Str
  | 'a' => dayName t.date.weekday
  | 'b' => monthName t.date.month
  | 'e' => if t.date.day < 10 then ' ' :: zeroPadded 1 t.date.day else zeroPadded 2 t.date.day
  | 'Y' => zeroPadded 4 t.date.year.toNat
  | 'H' => zeroPadded 2 (t.second / 3600)
  | 'M' => zeroPadded 2 (t.second / 60 % 60)
  -- A leap second is the second `60`.
  | 'S' => zeroPadded 2 (t.second % 60 + t.nanos / 1000000000)
  | 'z' => "+0000".toList
  | c => ['%', c]

def strftime : Str → DateTime → Str
  | '%' :: c :: format, t => specifier t c ++ strftime format t
  | c :: format, t => c :: strftime format t
  | [], _ => []

/-- The format of the headers. -/
def dateFormat : Str := "%a, %e %b %Y %H:%M:%S %z".toList

/-- It prints dates as documented, for the years that have four digits. -/
def Chrono.Prints (chrono : Chrono) : Prop :=
  ∀ t : DateTime, 0 ≤ t.date.year → t.date.year ≤ 9999 →
    chrono.format dateFormat t = strftime dateFormat t

/-! ## A `Chrono` -/

theorem DateTime.zero_nanos_lt : 0 < 2000000000 := by decide

/-- A time of day on the day before, the day, or the day after, in whole seconds. -/
def DateTime.ofShift (d : CivilDate) (second : Int) (hlo : -86400 ≤ second)
    (hhi : second < 2 * 86400) : DateTime where
  date := (d.shift second).1
  second := (d.shift second).2.toNat
  nanos := 0
  second_lt := by
    have h := CivilDate.shift_range (d := d) hlo hhi
    omega
  nanos_lt := zero_nanos_lt

/-- Only a stand-in for `chrono`, to compute concrete dates with: what is shown is shown for every
    lawful `Chrono`. It agrees with the crate on the years that `Lawful` speaks of. At the ends of
    its range it does not: it panics where an instant is behind the range, and has another last
    year, where `chrono` returns `None`. -/
def proleptic : Chrono where
  minYear := -262144
  maxYear := 262143
  resolve offset year month day hour minute second :=
    if h : (1 ≤ day ∧ day ≤ daysInMonth year month) ∧ (-86400 < offset ∧ offset < 86400) ∧
        (hour < 24 ∧ minute < 60 ∧ second < 60) ∧ -262144 ≤ year ∧ year ≤ 262143 then
      let t := DateTime.ofShift ⟨year, month, day, h.1.1, h.1.2⟩
        (hour * 3600 + minute * 60 + second - offset) (by omega) (by omega)
      if -262144 ≤ t.date.year ∧ t.date.year ≤ 262143 then .ok (some t)
      else .error (.expect "`NaiveDateTime + Duration` overflowed")
    else .ok none
  weekday t := t.date.weekday
  format := strftime

theorem utcOf_ofShift (d : CivilDate) {hour minute second : Nat} {offset : Int}
    (hlo : -86400 ≤ hour * 3600 + minute * 60 + second - offset)
    (hhi : hour * 3600 + minute * 60 + second - offset < 2 * 86400) :
    UtcOf d hour minute second offset
      (.ofShift d (hour * 3600 + minute * 60 + second - offset) hlo hhi) := by
  have h := CivilDate.shift_range (d := d) hlo hhi
  refine ⟨Prod.ext rfl ?_, rfl⟩
  exact Int.toNat_of_nonneg h.1

/-- A local time is one instant. -/
theorem UtcOf.unique {d : CivilDate} {hour minute second : Nat} {offset : Int} {t t' : DateTime}
    (h : UtcOf d hour minute second offset t) (h' : UtcOf d hour minute second offset t') :
    t = t' := by
  obtain ⟨h₁, h₂⟩ := h
  obtain ⟨h₁', h₂'⟩ := h'
  have hpair := h₁.trans h₁'.symm
  cases t
  cases t'
  simp only [Prod.mk.injEq, Int.natCast_inj] at hpair
  simp only [DateTime.mk.injEq]
  exact ⟨hpair.1, hpair.2, h₂.trans h₂'.symm⟩

theorem lawful_proleptic : proleptic.Lawful where
  inRange year h₁ h₂ := ⟨Int.le_trans (by decide) h₁, Int.le_trans h₂ (by decide)⟩
  resolve_eq := by
    intro d hour minute second offset t hhour hminute hsecond hlo hhi hyear hutc h
    have hvalid : (1 ≤ d.day ∧ d.day ≤ daysInMonth d.year d.month) ∧
        (-86400 < offset ∧ offset < 86400) ∧ (hour < 24 ∧ minute < 60 ∧ second < 60) ∧
        -262144 ≤ d.year ∧ d.year ≤ 262143 :=
      ⟨⟨d.day_pos, d.day_le⟩, ⟨hlo, hhi⟩, ⟨hhour, hminute, hsecond⟩, hyear⟩
    have ht := (utcOf_ofShift d (by omega) (by omega)).unique h
    rw [← ht] at hutc
    refine (dif_pos hvalid).trans ((if_pos hutc).trans ?_)
    rw [ht]
  weekday_eq t := rfl

theorem prints_proleptic : proleptic.Prints := fun _ _ _ => rfl

end Rtsp.Common
