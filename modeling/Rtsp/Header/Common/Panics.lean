import Rtsp.Header.Common.DateTime

/-!
# Which dates panic

Of the parsers of `date.rs` two panic, on texts that `parseName_panics_iff` and
`parseYear_panics_iff` describe; that the others do not is part of what is proved of
them in `Gaps` and `Fields`, and that no loop runs out of turns is too. What is left
is where in a string these two get to read.

Each parser has been shown to read what it reads and to panic nowhere, but for two. A
parser that comes later is reached only on what the earlier ones leave. `Behind` says
this about a string: there is a part in front that is read so, and what is behind it has
the property. So the condition is made of readings and not of calls.

The two conditions are about bytes. A name is cut off at the third byte, and that can be
in the middle of a character that has more than one. A year is added up digit by digit,
in 32 bits with a sign, and there are two numbers of ten digits at which the last
addition overflows and the last multiplication does not.

Whether `chrono` panics at the fields is a condition of its own, because nothing is
assumed of it here.
-/

namespace Rtsp.Common

open Syntax Lib

def Panics {α : Type} (x : Parsed α) : Prop := ∃ p, x = .error (.panic p)

section Panics

variable {α β : Type}

theorem not_panics_ok (a : α) : ¬ Panics (.ok a : Parsed α) := by
  rintro ⟨p, h⟩
  cases h

theorem not_panics_invalid : ¬ Panics (invalid : Parsed α) := by
  rintro ⟨p, h⟩
  cases h

theorem Safe.not_panics {p : StrParser α} (h : Safe p) (s : Str) : ¬ Panics (p s) := by
  rintro ⟨q, hq⟩
  exact h s q hq

theorem panics_bind_iff {p : StrParser α} {R : Reading Char α} (hp : Reads p R)
    {f : α × Str → Parsed β} {s : Str} :
    Panics (p s >>= f) ↔ Panics (p s) ∨ R.Behind (fun a rest => Panics (f (a, rest))) s := by
  constructor
  · rintro ⟨q, h⟩
    rcases hp.bind_eq_error_iff.mp h with h | ⟨c, a, rest, hs, hR, h⟩
    · exact .inl ⟨q, h⟩
    · exact .inr ⟨c, a, rest, hs, hR, q, h⟩
  · rintro (⟨q, h⟩ | ⟨c, a, rest, hs, hR, q, h⟩)
    · exact ⟨q, hp.bind_eq_error_iff.mpr (.inl h)⟩
    · exact ⟨q, hp.bind_eq_error_iff.mpr (.inr ⟨c, a, rest, hs, hR, h⟩)⟩

/-- A parser that does not panic leaves it to the next. -/
theorem Safe.panics_bind_iff {p : StrParser α} {R : Reading Char α} (hsafe : Safe p)
    (hp : Reads p R) {f : α × Str → Parsed β} {s : Str} :
    Panics (p s >>= f) ↔ R.Behind (fun a rest => Panics (f (a, rest))) s := by
  rw [Common.panics_bind_iff hp, or_iff_right (hsafe.not_panics s)]

/-- What never panics can follow. -/
theorem panics_bind_of_safe {x : Parsed α} {f : α → Parsed β} (hf : ∀ a, ¬ Panics (f a)) :
    Panics (x >>= f) ↔ Panics x := by
  constructor
  · rintro ⟨p, h⟩
    rcases bind_eq_error_iff.mp h with h | ⟨a, -, h⟩
    · exact ⟨p, h⟩
    · exact absurd ⟨p, h⟩ (hf a)
  · rintro ⟨p, h⟩
    exact ⟨p, bind_eq_error_iff.mpr (.inl h)⟩

theorem Safe.bind {p : StrParser α} {q : α → StrParser β} (hp : Safe p) (hq : ∀ a, Safe (q a)) :
    Safe fun s => p s >>= fun r => q r.1 r.2 := by
  intro s e h
  rcases bind_eq_error_iff.mp h with h | ⟨r, -, h⟩
  · exact hp s e h
  · exact hq r.1 r.2 e h

theorem Safe.not_panics_bind {p : StrParser α} (hp : Safe p) {f : α × Str → Parsed β} {s : Str}
    (hf : ∀ r, ¬ Panics (f r)) : ¬ Panics (p s >>= f) :=
  fun h => hp.not_panics s ((panics_bind_of_safe hf).mp h)

theorem Safe.map {p : StrParser α} (hp : Safe p) (f : α → β) :
    Safe fun s => p s >>= fun r => .ok (f r.1, r.2) :=
  hp.bind (q := fun a s => .ok (f a, s)) fun _ _ e h => not_panics_ok _ ⟨e, h⟩

end Panics

/-! ## Parsers that do not panic -/

theorem safe_gap (isOptional : Bool) : Safe (parseCommentAndFoldingWhitespace isOptional) :=
  (sound_gap isOptional).safe

theorem safe_colon {β : Type} (isOptional : Bool) {q : StrParser β} (hq : Safe q) :
    Safe fun s => parseColon isOptional s >>= q := by
  intro s e h
  rcases bind_eq_error_iff.mp h with h | ⟨t, -, h⟩
  · exact parseColon_safe isOptional s e h
  · exact hq t e h

theorem safe_timeOfDay : Safe parseTimeOfDay :=
  sound_twoDigits.safe.bind fun hour => safe_colon false <|
    sound_twoDigits.safe.bind fun minute => sound_second.safe.map fun second =>
      (hour, minute, second)

theorem safe_time : Safe parseTime :=
  safe_timeOfDay.bind fun t => (safe_gap false).bind fun _ =>
    sound_timeZone.safe.map fun offset => (t.1, t.2.1, t.2.2, offset)

/-! ## Parsers that do -/

/-- The month is split off, or the year added up, where that panics. -/
def MonthOrYearPanics : Str → Prop :=
  (DayText.seq fun _ => GapText false).Behind fun _ x => SplitsCharacter x ∨
    ((NameText monthNames).seq fun _ => GapText false).Behind (fun _ => YearOverflows) x

theorem parseDate_panics_iff {s : Str} : Panics (parseDate s) ↔ MonthOrYearPanics s := by
  rw [MonthOrYearPanics, Reading.behind_seq]
  refine (sound_day.safe.panics_bind_iff reads_day).trans
    (Reading.behind_congr fun _ _ _ _ => ?_)
  refine ((safe_gap false).panics_bind_iff (reads_gap false)).trans
    (Reading.behind_congr fun _ _ _ _ => ?_)
  rw [Reading.behind_seq]
  refine (panics_bind_iff (reads_name monthNames)).trans
    (or_congr parseName_panics_iff (Reading.behind_congr fun _ _ _ _ => ?_))
  refine ((safe_gap false).panics_bind_iff (reads_gap false)).trans
    (Reading.behind_congr fun _ _ _ _ => ?_)
  exact (panics_bind_of_safe fun _ => not_panics_ok _).trans parseYear_panics_iff

/-- Behind the day name nothing panics. -/
theorem parseDayName_panics_iff {s : Str} :
    Panics (parseDayName s) ↔ startsWith Char.isAlpha s = true ∧ SplitsCharacter s := by
  cases s with
  | nil => exact iff_of_false not_panics_invalid fun h => Bool.false_ne_true h.1
  | cons x t =>
    by_cases hx : x.isAlpha = true
    · show Panics (if x.isAlpha = true then _ else _) ↔ _
      rw [if_pos hx]
      refine (panics_bind_of_safe fun r => ?_).trans
        (parseName_panics_iff.trans (iff_and_self.mpr fun _ => hx))
      intro hpanics
      obtain ⟨c, g, rest, -, -, hpanics⟩ :=
        ((safe_gap true).panics_bind_iff (reads_gap true)).mp hpanics
      cases rest with
      | nil => exact not_panics_invalid hpanics
      | cons y rest =>
        change Panics (if y ≠ ',' then invalid else _) at hpanics
        split at hpanics
        · exact not_panics_invalid hpanics
        · next hcomma =>
          obtain rfl : y = ',' := Classical.not_not.mp hcomma
          rw [splitAt_comma, ok_bind] at hpanics
          refine (safe_gap true).not_panics rest ?_
          exact (panics_bind_of_safe fun _ => not_panics_ok _).mp hpanics
    · have hnone : parseDayName (x :: t) = .ok (none, x :: t) := if_neg hx
      rw [hnone]
      exact iff_of_false (not_panics_ok _) fun h => hx h.1

theorem parseFields_panics_iff {s : Str} : Panics (parseFields s) ↔
    (GapText true).Behind (fun _ x => startsWith Char.isAlpha x = true ∧ SplitsCharacter x) s ∨
      ((GapText true).seq fun _ => DayNameText).Behind (fun _ => MonthOrYearPanics) s := by
  rw [Reading.behind_seq, ← Reading.behind_or]
  refine ((safe_gap true).panics_bind_iff (reads_gap true)).trans
    (Reading.behind_congr fun _ _ _ _ => ?_)
  refine (panics_bind_iff reads_dayName).trans
    (or_congr parseDayName_panics_iff (Reading.behind_congr fun _ _ _ _ => ?_))
  refine (panics_bind_of_safe fun r => ?_).trans parseDate_panics_iff
  refine (safe_gap false).not_panics_bind fun _ => safe_time.not_panics_bind fun _ => ?_
  exact not_panics_ok _

/-! ## The whole date -/

/-- What is read in front of the day. -/
def BeforeDay : Reading Char (Option Weekday) := (GapText true).seq fun _ => DayNameText

/-- What is read in front of the month. -/
def BeforeMonth : Reading Char Str := BeforeDay.seq fun _ => DayText.seq fun _ => GapText false

/-- What is read in front of the year. -/
def BeforeYear : Reading Char Str :=
  BeforeMonth.seq fun _ => (NameText monthNames).seq fun _ => GapText false

/-- The strings that `parse_date_time` panics at. -/
inductive Crashes (chrono : Chrono) (s : Str) : Prop where
  /-- A letter where a date begins, and the third byte from it is in the middle of a character. -/
  | dayName : (GapText true).Behind
      (fun _ x => startsWith Char.isAlpha x = true ∧ SplitsCharacter x) s → Crashes chrono s
  /-- The third byte from where a month begins is in the middle of a character. -/
  | month : BeforeMonth.Behind (fun _ => SplitsCharacter) s → Crashes chrono s
  /-- The year is `2147483648` or `2147483649` up to its tenth significant digit. -/
  | year : BeforeYear.Behind (fun _ => YearOverflows) s → Crashes chrono s
  /-- `chrono` panics at the fields. -/
  | chrono : FieldsText.Behind (fun f x => (GapText true).Behind
      (fun _ _ => ∃ p, f.resolve chrono = .error p) x) s → Crashes chrono s

theorem resolveFields_panics_iff {chrono : Chrono} {f : Fields}
    (h : -9999 ≤ f.offset ∧ f.offset ≤ 9999) :
    Panics (resolveFields chrono f) ↔ ∃ p, f.resolve chrono = .error p := by
  rw [resolveFields_eq chrono h]
  cases hresolve : f.resolve chrono with
  | error p => exact iff_of_true ⟨p, rfl⟩ ⟨p, rfl⟩
  | ok resolved =>
    refine iff_of_false ?_ (by rintro ⟨p, ⟨⟩⟩)
    cases resolved with
    | none => exact not_panics_invalid
    | some t =>
      dsimp only [call, okOr]
      rw [ok_bind, ok_bind]
      cases f.weekday with
      | none => exact not_panics_ok t
      | some w =>
        dsimp only
        split
        · exact not_panics_invalid
        · exact not_panics_ok t

theorem parseDateTime_panics_iff {chrono : Chrono} {s : Str} :
    Panics (parseDateTime chrono s) ↔ Crashes chrono s := by
  have hdate : ((GapText true).seq fun _ => DayNameText).Behind (fun _ => MonthOrYearPanics) s ↔
      BeforeMonth.Behind (fun _ => SplitsCharacter) s ∨
        BeforeYear.Behind (fun _ => YearOverflows) s := by
    rw [BeforeYear, Reading.behind_seq (R := BeforeMonth), ← Reading.behind_or, BeforeMonth,
      Reading.behind_seq (R := BeforeDay)]
    exact Iff.rfl
  have hresolve : FieldsText.Behind (fun f x => (GapText true).Behind
      (fun _ _ => Panics (resolveFields chrono f)) x) s ↔
      FieldsText.Behind (fun f x => (GapText true).Behind
        (fun _ _ => ∃ p, f.resolve chrono = .error p) x) s :=
    Reading.behind_congr fun c f rest hc => Reading.behind_congr fun _ _ _ _ =>
      resolveFields_panics_iff (fieldsText_bounded hc)
  have hpanics : Panics (parseDateTime chrono s) ↔ Panics (parseFields s) ∨
      FieldsText.Behind (fun f x => (GapText true).Behind
        (fun _ _ => Panics (resolveFields chrono f)) x) s :=
    (panics_bind_iff reads_fields).trans (or_congr_right (Reading.behind_congr fun _ _ _ _ =>
      (safe_gap true).panics_bind_iff (reads_gap true)))
  rw [hpanics, parseFields_panics_iff, hdate, hresolve]
  constructor
  · rintro ((h | h | h) | h)
    · exact .dayName h
    · exact .month h
    · exact .year h
    · exact .chrono h
  · rintro (h | h | h | h)
    · exact .inl (.inl h)
    · exact .inl (.inr (.inl h))
    · exact .inl (.inr (.inr h))
    · exact .inr h

/-- **`parse_date_time` returns `Ok` or `Err` at every string but these.** -/
theorem returns_iff (chrono : Chrono) (s : Str) :
    (∃ t, parseDateTime chrono s = .ok t) ∨ parseDateTime chrono s = invalid ↔
      ¬ Crashes chrono s := by
  rw [← parseDateTime_panics_iff]
  cases parseDateTime chrono s with
  | ok t => exact iff_of_true (.inl ⟨t, rfl⟩) (not_panics_ok t)
  | error e =>
    cases e with
    | panic p =>
      refine iff_of_false ?_ (not_not_intro ⟨p, rfl⟩)
      rintro (⟨t, h⟩ | h)
      · cases h
      · cases h
    | invalid => exact iff_of_true (.inr rfl) not_panics_invalid

/-- A day name is cut within a character, and a year is added up to `2147483648`. -/
theorem not_returns :
    parseDateTime proleptic "aaé".toList = .error (.panic .sliceOutOfRange) ∧
    parseDateTime proleptic "1 aaé 2018 08:00 GMT".toList = .error (.panic .sliceOutOfRange) ∧
    parseDateTime proleptic "1 Jan 2147483648 08:00 GMT".toList = .error (.panic .overflow) := by
  decide +kernel

end Rtsp.Common
