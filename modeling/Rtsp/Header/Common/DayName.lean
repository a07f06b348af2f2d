import Rtsp.Header.Common.DateTime

/-!
# The day name of a date

`parse_date_time` compares the day name with the weekday of the instant in UTC.
What is written is the weekday of the local date. The two are the same date for as
long as the time of day, less the offset, is a time of that day.

`Written` puts together a text and what it says, with a proof that each part of the text
denotes its number. The parts are joined by single blanks: comments and other gaps are
left out, as a day name has nothing to do with them.

That the weekday depends on the date in UTC is not seen in a test with offset zero, and
there the two agree. With an offset the two dates can be neighbours, and neighbours have
different weekdays, so a name that is right for one is wrong for the other; it is only
for names that are wrong for both that the code errs on neither side.
-/

namespace Rtsp.Common

open Syntax Lib

/-- The parts of `<day> <month> <year> <time> <zone>`, and what they say: a date, a time of day and
    an offset that there are, at an instant `chrono` has. -/
structure Written (chrono : Chrono) where
  dayText : Str
  monthText : Str
  yearText : Str
  timeText : Str
  zoneText : Str
  date : CivilDate
  hour : Nat
  minute : Nat
  second : Option Nat
  offset : Int
  utc : DateTime
  day_eq : DayText dayText date.day [' ']
  month_eq : NameText monthNames monthText date.month [' ']
  year_eq : YearText yearText date.year [' ']
  time_eq : TimeOfDayText timeText (hour, minute, second) (' ' :: zoneText)
  zone_eq : ZoneText zoneText offset []
  hour_lt : hour < 24
  minute_lt : minute < 60
  second_lt : second.getD 0 < 60
  offset_gt : -86400 < zoneSeconds offset
  offset_lt : zoneSeconds offset < 86400
  utc_of : UtcOf date hour minute (second.getD 0) (zoneSeconds offset) utc
  inRange : chrono.InRange date.year
  utc_inRange : chrono.InRange utc.date.year

namespace Written

variable {chrono : Chrono}

def text (w : Written chrono) : Str :=
  w.dayText ++ ' ' :: (w.monthText ++ ' ' :: (w.yearText ++
    ' ' :: (w.timeText ++ ' ' :: w.zoneText)))

/-- The text behind `<name>, `. -/
def textWith (w : Written chrono) (name : Str) : Str := name ++ ", ".toList ++ w.text

def fields (w : Written chrono) (weekday : Option Weekday) : Fields :=
  ⟨weekday, w.date.day, w.date.month, w.date.year, w.hour, w.minute, w.second, w.offset⟩

end Written

/-! ## Where the parts begin -/

/-- A text that begins with a character of the kind. -/
def BeginsWith (p : Char → Bool) (s : Str) : Prop := ∃ x t, s = x :: t ∧ p x = true

theorem not_opensGap_of_isDigit {c : Char} (h : c.isDigit = true) : opensGap c = false := by
  refine Bool.eq_false_iff.mpr fun hc => ?_
  simp only [opensGap, isFolding, isBlank, Bool.or_eq_true, beq_iff_eq] at hc
  rcases hc with rfl | ((rfl | rfl) | rfl) | rfl
  all_goals cases h

theorem not_opensGap_of_isAlpha {c : Char} (h : c.isAlpha = true) : opensGap c = false := by
  refine Bool.eq_false_iff.mpr fun hc => ?_
  simp only [opensGap, isFolding, isBlank, Bool.or_eq_true, beq_iff_eq] at hc
  rcases hc with rfl | ((rfl | rfl) | rfl) | rfl
  all_goals cases h

theorem not_isAlpha_of_isDigit {c : Char} (h : c.isDigit = true) : c.isAlpha = false := by
  have hascii : c.toNat < 0x80 := Nat.lt_of_le_of_lt (Char.isDigit_iff_toNat.mp h).2 (by decide)
  exact Str.forall_ascii (P := fun c => c.isDigit = true → c.isAlpha = false)
    (by decide +kernel) hascii h

/-- `hh:mm:ss`, without a gap. -/
theorem timeOfDayText_seconds {h m s : Str} {hour minute second : Nat} (hh : TwoDigits h hour [])
    (hm : TwoDigits m minute []) (hs : TwoDigits s second []) (rest : Str) :
    TimeOfDayText (h ++ ':' :: (m ++ ':' :: s)) (hour, minute, some second) rest := by
  have hcolon : ∀ {c : Str} {n : Nat} (rest : Str), TwoDigits c n [] → Colon [':'] (c ++ rest) := by
    rintro c n rest ⟨x, y, rfl, hx, -⟩
    exact ⟨[], [], rfl, .nil rfl, .nil (not_opensGap_of_isDigit hx)⟩
  refine ⟨h, hour, _, rfl, hh, [':'], m ++ ':' :: s, rfl, .inl ?_, m, minute, ':' :: s, rfl, hm,
    some second, .inl ⟨[':'], s, second, rfl, hcolon rest hs, hs, rfl⟩, rfl⟩
  rw [List.append_assoc]
  exact hcolon _ hm

theorem DayText.begins {c rest : Str} {n : Nat} (h : DayText c n rest) :
    BeginsWith Char.isDigit c := by
  rcases h with ⟨x, rfl, hx, -⟩ | ⟨x, y, rfl, hx, -⟩
  · exact ⟨x, [], rfl, hx⟩
  · exact ⟨x, [y], rfl, hx⟩

theorem NameText.begins {α : Type} {names : List (Str × α)} {c rest : Str} {a : α}
    (hnames : ∀ e ∈ names, ∀ x ∈ e.1, x.isAlpha = true) (h : NameText names c a rest) :
    BeginsWith Char.isAlpha c := by
  obtain ⟨x, t, rfl⟩ := exists_cons_of_name h
  exact ⟨x, t, rfl, isAlpha_of_lookup hnames h.2 x (by simp)⟩

theorem YearText.begins {c rest : Str} {y : Int} (h : YearText c y rest) :
    BeginsWith Char.isDigit c := by
  obtain ⟨hdigits, -, hlen, -⟩ := h
  cases c with
  | nil => simp at hlen
  | cons x t => exact ⟨x, t, rfl, hdigits x (by simp)⟩

theorem TimeOfDayText.begins {c rest : Str} {t : Nat × Nat × Option Nat}
    (h : TimeOfDayText c t rest) : BeginsWith Char.isDigit c := by
  obtain ⟨_, _, c₂, rfl, ⟨x, y, rfl, hx, -⟩, -⟩ := h
  exact ⟨x, y :: c₂, rfl, hx⟩

/-- The characters that a zone begins with. -/
def beginsZone (c : Char) : Bool := c == '+' || c == '-' || c.isAlpha

theorem not_opensGap_of_beginsZone {c : Char} (h : beginsZone c = true) : opensGap c = false := by
  rw [beginsZone, Bool.or_eq_true, Bool.or_eq_true, beq_iff_eq, beq_iff_eq] at h
  rcases h with (rfl | rfl) | h
  · rfl
  · rfl
  · exact not_opensGap_of_isAlpha h

theorem ZoneText.begins {c rest : Str} {offset : Int} (h : ZoneText c offset rest) :
    BeginsWith beginsZone c := by
  rcases h with ⟨ds, n, -, ⟨rfl, -⟩ | ⟨rfl, -⟩⟩ | ⟨hname, hrun⟩
  · exact ⟨'+', ds, rfl, rfl⟩
  · exact ⟨'-', ds, rfl, rfl⟩
  · cases c with
    | nil => cases hname
    | cons x t =>
      refine ⟨x, t, rfl, ?_⟩
      rw [beginsZone, hrun.1 x (by simp), Bool.or_true]

theorem BeginsWith.startsWith {p q : Char → Bool} {s : Str} (h : BeginsWith p s)
    (hp : ∀ x, p x = true → q x = false) (rest : Str) : startsWith q (s ++ rest) = false := by
  obtain ⟨x, t, rfl, hx⟩ := h
  exact hp x hx

/-- One blank in front of a part. -/
theorem gapText_space {rest : Str} (h : startsWith opensGap rest = false) :
    GapText false [' '] [' '] rest :=
  ⟨rfl, .space h, .inr (List.cons_ne_nil ' ' [])⟩

namespace Written

variable {chrono : Chrono}

theorem dateText (w : Written chrono) (rest : Str) :
    DateText (w.dayText ++ ' ' :: (w.monthText ++ ' ' :: w.yearText))
      (w.date.day, w.date.month, w.date.year) (' ' :: rest) := by
  have hmonth := (NameText.begins isAlpha_monthNames w.month_eq).startsWith
    fun _ => not_opensGap_of_isAlpha
  have hyear := w.year_eq.begins.startsWith fun _ => not_opensGap_of_isDigit
  refine ⟨w.dayText, w.date.day, _, rfl, w.day_eq, [' '], [' '], _, rfl, ?_, w.monthText,
    w.date.month, _, rfl, w.month_eq, [' '], [' '], _, rfl, ?_, w.date.year, w.year_eq, rfl⟩
  · show GapText false [' '] [' '] ((w.monthText ++ ' ' :: w.yearText) ++ ' ' :: rest)
    rw [List.append_assoc]
    exact gapText_space (hmonth _)
  · exact gapText_space (hyear _)

theorem timeZoneText (w : Written chrono) :
    TimeText (w.timeText ++ ' ' :: w.zoneText) (w.hour, w.minute, w.second, w.offset) [] := by
  have hzone := w.zone_eq.begins.startsWith fun _ => not_opensGap_of_beginsZone
  refine ⟨w.timeText, (w.hour, w.minute, w.second), ' ' :: w.zoneText, rfl, ?_, [' '], [' '],
    w.zoneText, rfl, gapText_space (hzone []), w.offset, w.zone_eq, rfl⟩
  rw [List.append_nil]
  exact w.time_eq

theorem begins (w : Written chrono) : BeginsWith Char.isDigit w.text := by
  obtain ⟨x, t, h, hx⟩ := w.day_eq.begins
  exact ⟨x, _, by rw [text, h]; rfl, hx⟩

/-- What is read of the text, with a gap in front of it or none. -/
theorem fieldsText (w : Written chrono) {g : Str} (hg : Gap g w.text) :
    FieldsText (g ++ w.text) (w.fields none) [] := by
  obtain ⟨x, t, hx, hdigit⟩ := w.begins
  have htime := w.time_eq.begins.startsWith (fun _ => not_opensGap_of_isDigit)
    (' ' :: w.zoneText)
  refine ⟨g, g, w.text, rfl, ?_, [], none, w.text, rfl, .inr ⟨rfl, rfl, ?_, ?_⟩, _, _,
    ' ' :: (w.timeText ++ ' ' :: w.zoneText), ?_, w.dateText _, [' '], [' '], _, rfl, ?_,
    _, w.timeZoneText, rfl⟩
  · rw [List.append_nil]
    exact ⟨rfl, hg, .inl rfl⟩
  · rw [hx]
    exact List.cons_ne_nil x _
  · rw [hx]
    exact not_isAlpha_of_isDigit hdigit
  · simp [text]
  · rw [List.append_nil]
    exact gapText_space htime

end Written

/-- A day name and a comma in front of a date that has none. -/
theorem fieldsText_named {c rest name : Str} {f : Fields} {day : Weekday} (h : FieldsText c f rest)
    (hf : f.weekday = none) (hname : NameText dayNames name day []) :
    FieldsText (name ++ ',' :: c) { f with weekday := some day } rest := by
  obtain ⟨_, g, _, rfl, ⟨rfl, hg, -⟩, n, weekday, c, rfl, hn, hfields⟩ := h
  obtain ⟨d, date, c', rfl, hdate, g', a, c'', rfl, hg', time, htime, rfl⟩ := hfields
  obtain rfl : weekday = none := hf
  obtain rfl : n = [] := by
    rcases hn with ⟨_, _, _, _, -, -, -, -, h⟩ | ⟨h, -⟩
    · cases h
    · exact h
  obtain ⟨x, t, rfl, hx⟩ := NameText.begins isAlpha_dayNames hname
  refine ⟨[], [], _, rfl, ⟨rfl, ?_, .inl rfl⟩, x :: t ++ ',' :: g, some day, d ++ (g' ++ c''),
    by simp, .inl ⟨x :: t, [], g, day, rfl, hname, ?_, ?_, rfl⟩, d, date, g' ++ c'', rfl, hdate,
    g', a, c'', rfl, hg', time, htime, rfl⟩
  · exact .nil (not_opensGap_of_isAlpha hx)
  · exact .nil rfl
  · exact hg

section DayName

variable {chrono : Chrono}

/-- The day name is accepted if it is that of the written date, and changes nothing else. -/
def ChecksDayName (w : Written chrono) (name : Str) (day : Weekday) : Prop :=
  ((∃ t, parseDateTime chrono (w.textWith name) = .ok t) ↔ day = w.date.weekday) ∧
    ∀ t, parseDateTime chrono (w.textWith name) = .ok t → parseDateTime chrono w.text = .ok t

theorem Written.resolve_eq (hchrono : chrono.Lawful) (w : Written chrono)
    (weekday : Option Weekday) :
    (w.fields weekday).resolve chrono = .ok (some w.utc) :=
  hchrono.resolve_eq w.date w.hour w.minute _ _ w.utc w.hour_lt w.minute_lt w.second_lt w.offset_gt
    w.offset_lt w.inRange w.utc_inRange w.utc_of

theorem Written.not_opensGap (w : Written chrono) : startsWith opensGap w.text = false := by
  obtain ⟨x, t, h, hx⟩ := w.begins
  rw [h]
  exact not_opensGap_of_isDigit hx

theorem Written.parse_text (hchrono : chrono.Lawful) (w : Written chrono) :
    parseDateTime chrono w.text = .ok w.utc := by
  have hfields : FieldsText w.text (w.fields none) [] := w.fieldsText (.nil w.not_opensGap)
  have hparsed := parseDateTime_of_fields (g := []) hfields (.nil rfl) chrono
  rw [List.append_nil, List.append_nil] at hparsed
  rw [hparsed, resolveFields_eq_ok_iff (fieldsText_bounded hfields)]
  exact ⟨w.resolve_eq hchrono none, fun _ h => by cases h⟩

/-- With a day name, and any gap behind the comma. -/
theorem Written.parse_named (hchrono : chrono.Lawful) (w : Written chrono) {name g : Str}
    {day : Weekday} (hname : NameText dayNames name day []) (hg : Gap g w.text) {t : DateTime} :
    parseDateTime chrono (name ++ ',' :: (g ++ w.text)) = .ok t ↔
      w.utc = t ∧ day = w.utc.date.weekday := by
  have hfields : FieldsText (name ++ ',' :: (g ++ w.text)) (w.fields (some day)) [] :=
    fieldsText_named (w.fieldsText hg) rfl hname
  have hparsed := parseDateTime_of_fields (g := []) hfields (.nil rfl) chrono
  rw [List.append_nil, List.append_nil] at hparsed
  rw [hparsed, resolveFields_eq_ok_iff (fieldsText_bounded hfields),
    w.resolve_eq hchrono (some day), Except.ok.injEq, Option.some.injEq]
  refine and_congr_right fun ht => ?_
  rw [← ht, hchrono.weekday_eq]
  exact ⟨fun h => h day rfl, fun h w hw => Option.some.inj hw ▸ h⟩

/-- The dates differ if the weekdays do. -/
theorem Written.weekday_eq_iff (w : Written chrono) :
    w.utc.date.weekday = w.date.weekday ↔ w.utc.date = w.date := by
  have hdate : w.utc.date = (w.date.shift _).1 := congrArg Prod.fst w.utc_of.1
  rw [hdate]
  exact CivilDate.weekday_shift_iff _ _

/-- **The day name of the date as it is written is the one that is accepted if this is the date in
    UTC.** Otherwise a name is treated as it should be only if it is that of neither date. -/
theorem checksDayName_iff (hchrono : chrono.Lawful) (w : Written chrono) {name : Str}
    {day : Weekday} (hname : NameText dayNames name day []) :
    ChecksDayName w name day ↔
      w.utc.date = w.date ∨ day ≠ w.date.weekday ∧ day ≠ w.utc.date.weekday := by
  have hparsed {t} : parseDateTime chrono (w.textWith name) = .ok t ↔
      w.utc = t ∧ day = w.utc.date.weekday := by
    rw [← w.parse_named hchrono hname (.space w.not_opensGap)]
    exact Iff.of_eq (congrArg (parseDateTime chrono · = .ok t) (List.append_assoc ..))
  have hsame : ∀ t, parseDateTime chrono (w.textWith name) = .ok t →
      parseDateTime chrono w.text = .ok t := by
    intro t ht
    rw [w.parse_text hchrono, (hparsed.mp ht).1]
  have haccepted : (∃ t, parseDateTime chrono (w.textWith name) = .ok t) ↔
      day = w.utc.date.weekday :=
    ⟨fun ⟨t, ht⟩ => (hparsed.mp ht).2, fun h => ⟨w.utc, hparsed.mpr ⟨rfl, h⟩⟩⟩
  rw [ChecksDayName, haccepted, and_iff_left hsame]
  constructor
  · intro h
    by_cases hdate : w.utc.date = w.date
    · exact .inl hdate
    · have hne := mt w.weekday_eq_iff.mp hdate
      refine .inr ⟨fun hday => ?_, fun hday => ?_⟩
      · exact hne ((h.mpr hday).symm.trans hday)
      · exact hne (hday.symm.trans (h.mp hday))
  · rintro (hdate | ⟨hwritten, hutc⟩)
    · rw [hdate]
    · exact iff_of_false hutc hwritten

end DayName

/-- Half past midnight of a Monday, an hour ahead of UTC, where it is Sunday. -/
def pastMidnight : Written proleptic where
  dayText := ['1']
  monthText := "Jan".toList
  yearText := "2018".toList
  timeText := "00:30:00".toList
  zoneText := "+0100".toList
  date := .ofValid 2018 1 1 (by decide)
  hour := 0
  minute := 30
  second := some 0
  offset := 100
  utc := ⟨.ofValid 2017 12 31 (by decide), 84600, 0, by decide, DateTime.zero_nanos_lt⟩
  day_eq := .inl ⟨'1', rfl, rfl, rfl, rfl⟩
  month_eq := ⟨rfl, by decide⟩
  year_eq := ⟨List.all_eq_true.mp rfl, rfl, by decide, by decide, by decide⟩
  time_eq := timeOfDayText_seconds (h := ['0', '0']) (m := ['3', '0']) (s := ['0', '0'])
    ⟨'0', '0', rfl, rfl, rfl, rfl⟩ ⟨'3', '0', rfl, rfl, rfl, rfl⟩ ⟨'0', '0', rfl, rfl, rfl, rfl⟩ _
  zone_eq := .inl ⟨"0100".toList, 100, .four (List.all_eq_true.mp rfl) rfl, .inl ⟨rfl, rfl⟩⟩
  hour_lt := by decide
  minute_lt := by decide
  second_lt := by decide
  offset_gt := by decide
  offset_lt := by decide
  utc_of := ⟨by decide, rfl⟩
  inRange := ⟨by decide, by decide⟩
  utc_inRange := ⟨by decide, by decide⟩

/-- The name of the day is taken for wrong, and that of the day before for right. -/
theorem not_checksDayName :
    parseDateTime proleptic (pastMidnight.textWith "Mon".toList) = invalid ∧
      parseDateTime proleptic (pastMidnight.textWith "Sun".toList) = .ok pastMidnight.utc ∧
      pastMidnight.date.weekday = .mon := by
  decide +kernel

theorem checksDayName_pastMidnight : ChecksDayName pastMidnight "Tue".toList .tue :=
  (checksDayName_iff lawful_proleptic pastMidnight ⟨rfl, by decide⟩).mpr
    (.inr ⟨by decide, by decide⟩)

end Rtsp.Common
