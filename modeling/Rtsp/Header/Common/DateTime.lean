import Rtsp.Header.Common.Chrono
import Rtsp.Header.Common.Fields

/-!
# Dates and times

`parse_date_time` of `date.rs`: the text is read field by field, and `chrono` makes
an instant of the fields.

The source has one function that reads a field and goes on; it is cut in two here, at
the place where nothing is read any more. What the first half can do wrong is a matter
of the text alone, and what the second half can do wrong is up to `chrono` and the
numbers.

The gap at the end is parsed and its rest thrown away. This is as the source has it, and
a text that goes on behind the date is accepted (`Common.WellFormed`).
-/

namespace Rtsp.Common

open Syntax Lib

/-- What is read of a date and time. -/
structure Fields where
  weekday : Option Weekday
  day : Nat
  month : Nat
  year : Int
  hour : Nat
  minute : Nat
  second : Option Nat
  offset : Int
  deriving DecidableEq

/-! ## The parser -/

/-- The day name in front of the date, if there is one. -/
def parseDayName : StrParser (Option Weekday) := fun value => do
  let first ← okOr value.head?
  if first.isAlpha then do
    let (weekday, value) ← parseDayOfWeek value
    let (_, value) ← parseCommentAndFoldingWhitespace true value
    let next ← okOr value.head?
    if next ≠ ',' then invalid
    else do
      let (_, value) ← splitAt value 1
      let (_, value) ← parseCommentAndFoldingWhitespace true value
      return (some weekday, value)
  else return (none, value)

/-- The part of `parse_date_time` that reads fields. -/
def parseFields : StrParser Fields := fun value => do
  let (_, value) ← parseCommentAndFoldingWhitespace true value
  let (weekday, value) ← parseDayName value
  let ((day, month, year), value) ← parseDate value
  let (_, value) ← parseCommentAndFoldingWhitespace false value
  let ((hour, minute, second, offset), value) ← parseTime value
  return (⟨weekday, day, month, year, hour, minute, second, offset⟩, value)

/-- The offset in seconds. Division and remainder round towards zero. -/
def offsetSeconds (offset : Int) : Parsed Int := do
  let hours ← i32 (offset.tdiv 100 * 3600)
  let minutes ← i32 (offset.tmod 100 * 60)
  i32 (hours + minutes)

/-- The part of `parse_date_time` that makes an instant of the fields. -/
def resolveFields (chrono : Chrono) (f : Fields) : Parsed DateTime := do
  let offset ← offsetSeconds f.offset
  let resolved ← call
    (chrono.resolve offset f.year f.month f.day f.hour f.minute (f.second.getD 0))
  let dateTime ← okOr resolved
  match f.weekday with
  | some weekday => if weekday ≠ chrono.weekday dateTime then invalid else return dateTime
  | none => return dateTime

/-- `parse_date_time`. What is left behind the last gap is not looked at. -/
def parseDateTime (chrono : Chrono) (value : Str) : Parsed DateTime := do
  let (fields, value) ← parseFields value
  let _ ← parseCommentAndFoldingWhitespace true value
  resolveFields chrono fields

/-! ## What is read -/

/-- A day name with a comma, or nothing in front of what is no letter. -/
def DayNameText : Reading Char (Option Weekday) := fun c weekday rest =>
  (∃ name g g' w, c = name ++ (g ++ ',' :: g') ∧ NameText dayNames name w (g ++ ',' :: g' ++ rest) ∧
    Gap g (',' :: g' ++ rest) ∧ Gap g' rest ∧ weekday = some w) ∨
  c = [] ∧ weekday = none ∧ rest ≠ [] ∧ startsWith Char.isAlpha rest = false

/-- Only letters become letters in lower case. -/
theorem isAlpha_of_toLower {c : Char} (h : c.toLower.isAlpha = true) : c.isAlpha = true :=
  Str.forall_ascii (P := fun c => c.toLower.isAlpha = true → c.isAlpha = true)
    (by decide +kernel) (Str.ascii_of_toLower (Str.ascii_of_isAlpha h)) h

/-- Names in any case are letters, if the names are. -/
theorem isAlpha_of_lookup {α : Type} {names : List (Str × α)} {c : Str} {a : α}
    (hnames : ∀ e ∈ names, ∀ x ∈ e.1, x.isAlpha = true)
    (h : names.lookup (c.map Char.toLower) = some a) : ∀ x ∈ c, x.isAlpha = true := by
  intro x hx
  apply isAlpha_of_toLower
  exact hnames _ (mem_of_lookup h) _ (List.mem_map.mpr ⟨x, hx, rfl⟩)

theorem isAlpha_dayNames : ∀ e ∈ dayNames, ∀ x ∈ e.1, x.isAlpha = true := by
  have hall : (dayNames.all fun e => e.1.all Char.isAlpha) = true := rfl
  simpa only [List.all_eq_true] using hall

theorem isAlpha_monthNames : ∀ e ∈ monthNames, ∀ x ∈ e.1, x.isAlpha = true := by
  have hall : (monthNames.all fun e => e.1.all Char.isAlpha) = true := rfl
  simpa only [List.all_eq_true] using hall

theorem exists_cons_of_name {α : Type} {names : List (Str × α)} {c rest : Str} {a : α}
    (h : NameText names c a rest) : ∃ x t, c = x :: t := by
  cases c with
  | nil => cases h.1
  | cons x t => exact ⟨x, t, rfl⟩

theorem head?_append_name {α : Type} {names : List (Str × α)} {c rest : Str} {a : α}
    (hnames : ∀ e ∈ names, ∀ x ∈ e.1, x.isAlpha = true) (h : NameText names c a rest)
    (rest' : Str) : ∃ x, (c ++ rest').head? = some x ∧ x.isAlpha = true := by
  obtain ⟨x, t, rfl⟩ := exists_cons_of_name h
  exact ⟨x, rfl, isAlpha_of_lookup hnames h.2 x (by simp)⟩

theorem splitAt_comma (t : Str) : splitAt (',' :: t) 1 = .ok ([','], t) := splitAt_len [','] t

theorem reads_dayName : Reads parseDayName DayNameText := by
  refine Reads.intro (fun s weekday rest h => ?_) ?_
  · unfold parseDayName at h
    cases s with
    | nil => cases h
    | cons x t =>
      change (if x.isAlpha = true then _ else _) = _ at h
      split at h
      · obtain ⟨⟨w, value⟩, hname, h₁⟩ := bind_eq_ok h
        obtain ⟨⟨_, value'⟩, hgap, h₂⟩ := bind_eq_ok h₁
        cases value' with
        | nil => cases h₂
        | cons y value' =>
          change (if y ≠ ',' then invalid else _) = _ at h₂
          split at h₂
          · cases h₂
          · next hcomma =>
            obtain rfl : y = ',' := Classical.not_not.mp hcomma
            rw [splitAt_comma, ok_bind] at h₂
            obtain ⟨⟨_, value''⟩, hgap', h₃⟩ := bind_eq_ok h₂
            cases h₃
            obtain ⟨name, hs, hname⟩ := (reads_name dayNames _ _ _).mp hname
            obtain ⟨g, rfl, -, hg, -⟩ := (reads_gap true _ _ _).mp hgap
            obtain ⟨g', rfl, -, hg', -⟩ := (reads_gap true _ _ _).mp hgap'
            exact ⟨name ++ (g ++ ',' :: g'), by simp [hs], .inl ⟨name, g, g', w, rfl,
              ⟨hname.1, hname.2⟩, hg, hg', rfl⟩⟩
      · next halpha =>
        cases h
        exact ⟨[], rfl, .inr ⟨rfl, rfl, List.cons_ne_nil x t, Bool.eq_false_iff.mpr halpha⟩⟩
  · rintro c weekday rest (⟨name, g, g', w, rfl, hname, hg, hg', rfl⟩ | ⟨rfl, rfl, hne, halpha⟩)
    · have hparsed := (reads_name dayNames (name ++ (g ++ ',' :: g' ++ rest)) w
        (g ++ ',' :: g' ++ rest)).mpr ⟨name, rfl, hname⟩
      have hgap := (reads_gap true (g ++ (',' :: g' ++ rest)) g (',' :: g' ++ rest)).mpr
        ⟨g, rfl, rfl, hg, .inl rfl⟩
      have hgap' := (reads_gap true (g' ++ rest) g' rest).mpr ⟨g', rfl, rfl, hg', .inl rfl⟩
      obtain ⟨x, hx, halpha⟩ :=
        head?_append_name isAlpha_dayNames hname (g ++ ',' :: g' ++ rest)
      rw [List.append_assoc, parseDayName, hx]
      simp only [okOr, ok_bind, halpha, if_true, parseDayOfWeek, hparsed]
      rw [List.append_assoc, hgap, ok_bind]
      dsimp only [List.cons_append, List.head?_cons]
      rw [ok_bind, if_neg (not_not_intro rfl), splitAt_comma, ok_bind]
      dsimp only
      rw [hgap']
      rfl
    · obtain ⟨x, t, rfl⟩ := List.exists_cons_of_ne_nil hne
      have halpha : ¬ x.isAlpha = true := Bool.eq_false_iff.mp halpha
      exact if_neg halpha

/-- The fields of a date and time, from the gap in front of them to the zone. -/
def FieldsText : Reading Char Fields :=
  (GapText true).seq fun _ => DayNameText.seq fun weekday => DateText.seq fun date =>
    (GapText false).seq fun _ c f rest => ∃ time, TimeText c time rest ∧
      f = ⟨weekday, date.1, date.2.1, date.2.2, time.1, time.2.1, time.2.2.1, time.2.2.2⟩

theorem reads_fields : Reads parseFields FieldsText :=
  (reads_gap true).bind fun _ => reads_dayName.bind fun weekday => reads_date.bind fun date =>
    (reads_gap false).bind fun _ => reads_time.map fun time =>
      (⟨weekday, date.1, date.2.1, date.2.2, time.1, time.2.1, time.2.2.1, time.2.2.2⟩ : Fields)

/-! ## What becomes of it -/

/-- The offset of `hhmm` in seconds. -/
def zoneSeconds (offset : Int) : Int := offset.tdiv 100 * 3600 + offset.tmod 100 * 60

theorem fieldsText_bounded {c rest : Str} {f : Fields} (h : FieldsText c f rest) :
    -9999 ≤ f.offset ∧ f.offset ≤ 9999 := by
  obtain ⟨_, _, _, -, -, _, _, _, -, -, _, _, _, -, -, _, _, _, -, -, time, htime, rfl⟩ := h
  obtain ⟨_, _, _, -, -, _, _, _, -, -, offset, hzone, rfl⟩ := htime
  exact zoneText_bounded hzone

/-- No overflow with four digits. -/
theorem offsetSeconds_eq {offset : Int} (h : -9999 ≤ offset ∧ offset ≤ 9999) :
    offsetSeconds offset = .ok (zoneSeconds offset) := by
  have hdiv : -99 ≤ offset.tdiv 100 ∧ offset.tdiv 100 ≤ 99 := by
    obtain ⟨n, rfl | rfl⟩ := offset.eq_nat_or_neg
    · rw [Int.tdiv_eq_ediv_of_nonneg (by omega)]
      omega
    · rw [Int.neg_tdiv, Int.tdiv_eq_ediv_of_nonneg (by omega)]
      omega
  have hmod : -99 ≤ offset.tmod 100 ∧ offset.tmod 100 ≤ 99 := by
    obtain ⟨n, rfl | rfl⟩ := offset.eq_nat_or_neg
    · rw [Int.tmod_eq_emod_of_nonneg (by omega)]
      omega
    · rw [Int.neg_tmod, Int.tmod_eq_emod_of_nonneg (by omega)]
      omega
  rw [offsetSeconds, i32_of_le (by omega) (by unfold i32Max; omega), ok_bind,
    i32_of_le (by omega) (by unfold i32Max; omega), ok_bind,
    i32_of_le (by omega) (by unfold i32Max; omega), zoneSeconds]

/-- What `chrono` makes of the fields. -/
def Fields.resolve (chrono : Chrono) (f : Fields) : Rust (Option DateTime) :=
  chrono.resolve (zoneSeconds f.offset) f.year f.month f.day f.hour f.minute (f.second.getD 0)

theorem resolveFields_eq (chrono : Chrono) {f : Fields} (h : -9999 ≤ f.offset ∧ f.offset ≤ 9999) :
    resolveFields chrono f = (do
      let resolved ← call (f.resolve chrono)
      let dateTime ← okOr resolved
      match f.weekday with
      | some weekday => if weekday ≠ chrono.weekday dateTime then invalid else return dateTime
      | none => return dateTime) := by
  rw [resolveFields, offsetSeconds_eq h, ok_bind]
  rfl

theorem resolveFields_eq_ok_iff {chrono : Chrono} {f : Fields} {t : DateTime}
    (h : -9999 ≤ f.offset ∧ f.offset ≤ 9999) :
    resolveFields chrono f = .ok t ↔
      f.resolve chrono = .ok (some t) ∧ ∀ w, f.weekday = some w → w = chrono.weekday t := by
  rw [resolveFields_eq chrono h]
  cases hresolve : f.resolve chrono with
  | error p => simp [call]
  | ok resolved =>
    cases resolved with
    | none => simp [call, okOr, invalid]
    | some t' =>
      simp only [call, okOr, ok_bind]
      cases hweekday : f.weekday with
      | none => simp [pure, Except.pure]
      | some w =>
        dsimp only
        by_cases hw : w = chrono.weekday t'
        · rw [if_neg (not_not_intro hw)]
          simp only [pure, Except.pure, Except.ok.injEq, Option.some.injEq, forall_eq']
          exact ⟨fun ht => ⟨ht, ht ▸ hw⟩, fun ht => ht.1⟩
        · rw [if_pos hw]
          simp only [Except.ok.injEq, Option.some.injEq, forall_eq']
          refine iff_of_false (by rintro ⟨⟩) ?_
          rintro ⟨rfl, hw'⟩
          exact hw hw'

theorem parseDateTime_of_fields {c g rest : Str} {f : Fields} (hc : FieldsText c f (g ++ rest))
    (hg : Gap g rest) (chrono : Chrono) :
    parseDateTime chrono (c ++ (g ++ rest)) = resolveFields chrono f := by
  have hfields := (reads_fields _ f _).mpr ⟨c, rfl, hc⟩
  have hgap := (reads_gap true (g ++ rest) g rest).mpr ⟨g, rfl, rfl, hg, .inl rfl⟩
  rw [parseDateTime, hfields, ok_bind]
  dsimp only
  rw [hgap, ok_bind]

/-- **When a date is accepted, and as what.** -/
theorem parseDateTime_eq_ok_iff {chrono : Chrono} {s : Str} {t : DateTime} :
    parseDateTime chrono s = .ok t ↔
      FieldsText.Behind (fun f x => (∃ g rest, x = g ++ rest ∧ Gap g rest) ∧
        f.resolve chrono = .ok (some t) ∧ ∀ w, f.weekday = some w → w = chrono.weekday t) s := by
  constructor
  · intro h
    obtain ⟨⟨f, x⟩, hfields, h₁⟩ := bind_eq_ok h
    obtain ⟨⟨g, rest⟩, hgap, h₂⟩ := bind_eq_ok h₁
    obtain ⟨c, rfl, hc⟩ := (reads_fields _ _ _).mp hfields
    obtain ⟨g, rfl, -, hg, -⟩ := (reads_gap true _ _ _).mp hgap
    exact ⟨c, f, g ++ rest, rfl, hc, ⟨g, rest, rfl, hg⟩,
      (resolveFields_eq_ok_iff (fieldsText_bounded hc)).mp h₂⟩
  · rintro ⟨c, f, x, rfl, hc, ⟨g, rest, rfl, hg⟩, h⟩
    rw [parseDateTime_of_fields hc hg]
    exact (resolveFields_eq_ok_iff (fieldsText_bounded hc)).mpr h

end Rtsp.Common
