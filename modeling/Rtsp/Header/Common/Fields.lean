import Rtsp.Header.Common.Fields.Zone

/-!
# What is read as the fields of a date

Date and time put together from their parts, as `parse_date` and `parse_time` put them
together. Each part has a module of its own, in the order of a date: digits, names,
year, time of day, zone.

Two of the parts can panic, a name (`parseName_panics_iff`) and a year
(`parseYear_panics_iff`). The readings do not show it, since `Reads` is about the values
that are returned. Which whole strings get as far as one of the two is the subject of
`Header.Common.Panics`.
-/

namespace Rtsp.Common

open Syntax Lib

/-- Hour, minute, second and zone. -/
def TimeText : Reading Char (Nat × Nat × Option Nat × Int) :=
  TimeOfDayText.seq fun t => (GapText false).seq fun _ c time rest =>
    ∃ offset, ZoneText c offset rest ∧ time = (t.1, t.2.1, t.2.2, offset)

theorem reads_time : Reads parseTime TimeText :=
  reads_timeOfDay.bind fun t => (reads_gap false).bind fun _ =>
    reads_timeZone.map fun offset => (t.1, t.2.1, t.2.2, offset)

/-- Day, month and year. -/
def DateText : Reading Char (Nat × Nat × Int) :=
  DayText.seq fun day => (GapText false).seq fun _ => (NameText monthNames).seq fun month =>
    (GapText false).seq fun _ c date rest =>
      ∃ year, YearText c year rest ∧ date = (day, month, year)

theorem reads_date : Reads parseDate DateText :=
  reads_day.bind fun day => (reads_gap false).bind fun _ => (reads_name monthNames).bind
    fun month => (reads_gap false).bind fun _ => reads_year.map fun year => (day, month, year)

end Rtsp.Common
