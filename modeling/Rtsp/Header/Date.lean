import Mathlib.Data.Bool.AllAny
import Rtsp.Header.Common.DayName
import Rtsp.Header.Value

/-!
# `Date` and `Expires`

`header/types/date.rs` and `header/types/expires.rs`, which differ in their names
only. Printing is up to `chrono` and reading to `parse_date_time`; that the two fit
for every date with a year of four digits is `dates_roundTrip`.

The text that `chrono` prints is a parameter as everything of `chrono` is, and
`Chrono.Prints` says what it looks like. The reader does not rely on that: it would
accept many other spellings, and the ones with a comment or an obsolete zone are
nobody's output.

A fraction of a second is not printed, and what comes back is the date in whole seconds
(`truncated`). A leap second is printed as the sixtieth and is not read, so the result
leaves it out, with a bound on the nanoseconds.

Years beyond four digits are printed with a sign, and those before the year zero too.
Nothing is said of them.
-/

namespace Rtsp

open Common Syntax Lib

structure Date where
  dateTime : DateTime
  deriving DecidableEq

structure Expires where
  dateTime : DateTime
  deriving DecidableEq

inductive DateError where
  | invalidDateTime
  | moreThanOneHeader
  deriving DecidableEq

inductive ExpiresError where
  | invalidDateTime
  | moreThanOneHeader
  deriving DecidableEq

section Headers

variable {α ε : Type}

/-- `TypedHeader::decode` of both headers. -/
def decodeDateTime (chrono : Chrono) (header : DateTime → α)
    (invalidDateTime moreThanOneHeader : ε) : List HeaderValue → Rust (Except ε (Option α))
  | [] => .ok (.ok none)
  | [value] =>
    match parseDateTime chrono value.asStr with
    | .ok dateTime => .ok (.ok (some (header dateTime)))
    | .error .invalid => .ok (.error invalidDateTime)
    | .error (.panic p) => .error p
  | _ :: _ :: _ => .ok (.error moreThanOneHeader)

/-- `TypedHeader::encode` of both headers. -/
def encodeDateTime (chrono : Chrono) (dateTime : DateTime) : Rust (List HeaderValue) := do
  let value ← HeaderValue.fromStringUnchecked (chrono.format dateFormat dateTime)
  return [value]

end Headers

def Date.decode (chrono : Chrono) : List HeaderValue → Rust (Except DateError (Option Date)) :=
  decodeDateTime chrono Date.mk .invalidDateTime .moreThanOneHeader

def Date.encode (chrono : Chrono) (d : Date) : Rust (List HeaderValue) :=
  encodeDateTime chrono d.dateTime

def Expires.decode (chrono : Chrono) :
    List HeaderValue → Rust (Except ExpiresError (Option Expires)) :=
  decodeDateTime chrono Expires.mk .invalidDateTime .moreThanOneHeader

def Expires.encode (chrono : Chrono) (e : Expires) : Rust (List HeaderValue) :=
  encodeDateTime chrono e.dateTime

/-! ## What is printed -/

theorem isDigit_digitChar (n : Nat) : (Nat.digitChar (n % 10)).isDigit = true := by
  have h : ∀ i : Fin 10, (Nat.digitChar i).isDigit = true := by decide
  exact h ⟨n % 10, Nat.mod_lt n (by decide)⟩

theorem digitValue_digitChar (n : Nat) : digitValue (Nat.digitChar (n % 10)) = n % 10 := by
  have h : ∀ i : Fin 10, digitValue (Nat.digitChar i) = i := by decide
  exact h ⟨n % 10, Nat.mod_lt n (by decide)⟩

theorem isDigit_zeroPadded (width n : Nat) : ∀ c ∈ zeroPadded width n, c.isDigit = true := by
  induction width generalizing n with
  | zero => exact fun c hc => nomatch hc
  | succ width ih =>
    intro c hc
    rcases List.mem_append.mp hc with hc | hc
    · exact ih (n / 10) c hc
    · rw [List.mem_singleton.mp hc]
      exact isDigit_digitChar n

theorem length_zeroPadded (width n : Nat) : (zeroPadded width n).length = width := by
  induction width generalizing n with
  | zero => rfl
  | succ width ih => rw [zeroPadded, List.length_append, ih, List.length_singleton]

/-- The digits denote the number, if there is room for it. -/
theorem numberFrom_zeroPadded {width n : Nat} (h : n < 10 ^ width) :
    numberFrom 0 (zeroPadded width n) = n := by
  induction width generalizing n with
  | zero => exact (Nat.lt_one_iff.mp h).symm
  | succ width ih =>
    have hdiv : n / 10 < 10 ^ width := Nat.div_lt_of_lt_mul (by rwa [Nat.pow_succ'] at h)
    rw [zeroPadded, numberFrom, List.foldl_append]
    show numberFrom 0 (zeroPadded width (n / 10)) * 10 + digitValue (Nat.digitChar (n % 10)) = n
    rw [ih hdiv, digitValue_digitChar]
    omega

theorem twoDigits_zeroPadded {n : Nat} (h : n < 100) (rest : Str) :
    TwoDigits (zeroPadded 2 n) n rest := by
  refine ⟨Nat.digitChar (n / 10 % 10), Nat.digitChar (n % 10), rfl, isDigit_digitChar _,
    isDigit_digitChar _, ?_⟩
  rw [digitValue_digitChar, digitValue_digitChar]
  omega

theorem dayText_zeroPadded {day : Nat} (h : day < 100) :
    DayText (if day < 10 then zeroPadded 1 day else zeroPadded 2 day) day [' '] := by
  split
  · next hlt =>
    refine .inl ⟨Nat.digitChar (day % 10), rfl, isDigit_digitChar day, rfl, ?_⟩
    rw [digitValue_digitChar, Nat.mod_eq_of_lt hlt]
  · exact .inr (twoDigits_zeroPadded h _)

theorem yearText_zeroPadded {year : Int} (hlo : 0 ≤ year) (hhi : year ≤ 9999) :
    YearText (zeroPadded 4 year.toNat) year [' '] := by
  have hnum := @numberFrom_zeroPadded 4 year.toNat (by omega)
  refine ⟨isDigit_zeroPadded 4 _, rfl, ?_, ?_, ?_⟩
  · rw [length_zeroPadded]
    decide
  · rw [hnum]
    unfold i32Max
    omega
  · rw [length_zeroPadded, hnum]
    exact (Int.toNat_of_nonneg hlo).symm

theorem nameText_dayName (w : Weekday) : NameText dayNames (dayName w) w [] := by
  cases w
  all_goals exact ⟨rfl, by decide⟩

theorem nameText_monthName {month : Nat} (h : 1 ≤ month ∧ month ≤ 12) :
    NameText monthNames (monthName month) month [' '] := by
  have hnames : ∀ m : Fin 12, Str.len (monthName (m + 1)) = 3 ∧
      monthNames.lookup ((monthName (m + 1)).map Char.toLower) = some (m.val + 1) := by decide
  have hmonth := hnames ⟨month - 1, by omega⟩
  dsimp only at hmonth
  rwa [Nat.sub_add_cancel h.1] at hmonth

/-- `DateTime::with_nanosecond(0)` -/
def Common.DateTime.truncated (t : DateTime) : DateTime :=
  { t with nanos := 0, nanos_lt := zero_nanos_lt }

section Printed

variable {chrono : Chrono} (hchrono : chrono.Lawful) (t : DateTime) (hlo : 0 ≤ t.date.year)
  (hhi : t.date.year ≤ 9999)

/-- What is printed of a date behind its day name. -/
def printed : Written chrono where
  dayText := if t.date.day < 10 then zeroPadded 1 t.date.day else zeroPadded 2 t.date.day
  monthText := monthName t.date.month
  yearText := zeroPadded 4 t.date.year.toNat
  timeText := zeroPadded 2 (t.second / 3600) ++
    ':' :: (zeroPadded 2 (t.second / 60 % 60) ++ ':' :: zeroPadded 2 (t.second % 60))
  zoneText := "+0000".toList
  date := t.date
  hour := t.second / 3600
  minute := t.second / 60 % 60
  second := some (t.second % 60)
  offset := 0
  utc := t.truncated
  day_eq := dayText_zeroPadded (Nat.lt_of_le_of_lt
    (Nat.le_trans t.date.day_le (daysInMonth_le _ _)) (by decide))
  month_eq := nameText_monthName t.date.month_range
  year_eq := yearText_zeroPadded hlo hhi
  time_eq := by
    have hsecond := t.second_lt
    exact timeOfDayText_seconds (twoDigits_zeroPadded (by omega) _)
      (twoDigits_zeroPadded (by omega) _) (twoDigits_zeroPadded (by omega) _) _
  zone_eq := .inl ⟨"0000".toList, 0, .four (List.all_eq_true.mp rfl) rfl, .inl ⟨rfl, rfl⟩⟩
  hour_lt := Nat.div_lt_of_lt_mul t.second_lt
  minute_lt := Nat.mod_lt _ (by decide)
  second_lt := Nat.mod_lt _ (by decide)
  offset_gt := by decide
  offset_lt := by decide
  utc_of := by
    have hlocal : ((t.second / 3600 : Nat) : Int) * 3600 + (t.second / 60 % 60 : Nat) * 60 +
        ((some (t.second % 60)).getD 0 : Nat) - zoneSeconds 0 = t.second := by
      show _ + ((t.second % 60 : Nat) : Int) - 0 = _
      omega
    have hsecond := t.second_lt
    refine ⟨?_, rfl⟩
    rw [hlocal, t.date.shift_of_lt (by omega) (by omega)]
    rfl
  inRange := hchrono.inRange _ hlo hhi
  utc_inRange := hchrono.inRange _ hlo hhi

theorem strftime_eq (hleap : t.nanos < 1000000000) :
    strftime dateFormat t = dayName t.date.weekday ++ ',' ::
      ((if t.date.day < 10 then [' ', ' '] else [' ']) ++ (printed hchrono t hlo hhi).text) := by
  have hsecond : t.second % 60 + t.nanos / 1000000000 = t.second % 60 := by omega
  have hformat : strftime dateFormat t = dayName t.date.weekday ++ ',' :: ' ' ::
      ((if t.date.day < 10 then ' ' :: zeroPadded 1 t.date.day else zeroPadded 2 t.date.day) ++
        ' ' :: (monthName t.date.month ++ ' ' :: (zeroPadded 4 t.date.year.toNat ++
          ' ' :: (zeroPadded 2 (t.second / 3600) ++ ':' :: (zeroPadded 2 (t.second / 60 % 60) ++
            ':' :: (zeroPadded 2 (t.second % 60 + t.nanos / 1000000000) ++
              ' ' :: "+0000".toList)))))) :=
    rfl
  rw [hformat, hsecond, Written.text, printed]
  split
  · simp only [List.append_assoc, List.cons_append, List.nil_append]
  · simp only [List.append_assoc, List.cons_append, List.nil_append]

end Printed

/-! ## What a value can hold -/

def IsPrintable (c : Char) : Prop := 32 ≤ c.toNat ∧ c.toNat ≤ 126

instance : DecidablePred IsPrintable := fun _ => inferInstanceAs (Decidable (_ ∧ _))

theorem printable_zeroPadded (width n : Nat) : ∀ c ∈ zeroPadded width n, IsPrintable c := by
  intro c hc
  have h := Char.isDigit_iff_toNat.mp (isDigit_zeroPadded width n c hc)
  exact ⟨Nat.le_trans (by decide) h.1, Nat.le_trans h.2 (by decide)⟩

theorem printable_dayName (w : Weekday) : ∀ c ∈ dayName w, IsPrintable c := by
  cases w
  all_goals exact List.all_iff_forall_prop.mp rfl

theorem printable_monthName (month : Nat) : ∀ c ∈ monthName month, IsPrintable c := by
  unfold monthName
  split
  all_goals exact List.all_iff_forall_prop.mp rfl

theorem printable_specifier (t : DateTime) {c : Char} (hc : IsPrintable c) :
    ∀ d ∈ specifier t c, IsPrintable d := by
  unfold specifier
  split
  · exact printable_dayName _
  · exact printable_monthName _
  · split
    · exact List.forall_mem_cons.mpr ⟨by decide, printable_zeroPadded 1 _⟩
    · exact printable_zeroPadded 2 _
  · exact printable_zeroPadded 4 _
  · exact printable_zeroPadded 2 _
  · exact printable_zeroPadded 2 _
  · exact printable_zeroPadded 2 _
  · exact List.all_iff_forall_prop.mp rfl
  · exact List.forall_mem_cons.mpr ⟨by decide, List.forall_mem_singleton.mpr hc⟩

theorem printable_strftime (format : Str) (t : DateTime) (h : ∀ c ∈ format, IsPrintable c) :
    ∀ c ∈ strftime format t, IsPrintable c := by
  fun_induction strftime format t with
  | case1 c format t ih =>
    have hc := h c (by simp)
    have hformat := ih fun d hd => h d (by simp [hd])
    exact List.forall_mem_append.mpr ⟨printable_specifier t hc, hformat⟩
  | case2 c format t _ ih =>
    have hformat := ih fun d hd => h d (by simp [hd])
    exact List.forall_mem_cons.mpr ⟨h c (by simp), hformat⟩
  | case3 => exact h

/-! ## Reading it back -/

section RoundTrip

variable {chrono : Chrono} {t : DateTime}

/-- What is printed is read as the same instant, less the fraction of a second. -/
theorem parseDateTime_strftime (hchrono : chrono.Lawful) (hlo : 0 ≤ t.date.year)
    (hhi : t.date.year ≤ 9999) (hleap : t.nanos < 1000000000) :
    parseDateTime chrono (strftime dateFormat t) = .ok t.truncated := by
  have hblanks : ∀ c ∈ if t.date.day < 10 then [' ', ' '] else [' '], isBlank c = true := by
    split
    all_goals exact List.all_eq_true.mp rfl
  have hgap := Gap.blanks hblanks (printed hchrono t hlo hhi).not_opensGap
  rw [strftime_eq hchrono t hlo hhi hleap]
  exact ((printed hchrono t hlo hhi).parse_named hchrono (nameText_dayName _) hgap).mpr ⟨rfl, rfl⟩

theorem encodeDateTime_eq (hprints : chrono.Prints) (hlo : 0 ≤ t.date.year)
    (hhi : t.date.year ≤ 9999) :
    ∃ value, encodeDateTime chrono t = .ok [value] ∧ value.asStr = strftime dateFormat t := by
  obtain ⟨value, hvalue, hstr⟩ := HeaderValue.fromStringUnchecked_printable
    (printable_strftime dateFormat t (List.all_iff_forall_prop.mp rfl))
  refine ⟨value, ?_, hstr⟩
  rw [encodeDateTime, hprints t hlo hhi, hvalue]
  rfl

theorem decode_encodeDateTime (hchrono : chrono.Lawful) (hprints : chrono.Prints)
    (hlo : 0 ≤ t.date.year) (hhi : t.date.year ≤ 9999) (hleap : t.nanos < 1000000000) {α ε : Type}
    (header : DateTime → α) (invalidDateTime moreThanOneHeader : ε) :
    encodeDateTime chrono t >>= decodeDateTime chrono header invalidDateTime moreThanOneHeader =
      .ok (.ok (some (header t.truncated))) := by
  obtain ⟨value, hvalue, hstr⟩ := encodeDateTime_eq hprints hlo hhi
  rw [hvalue, ok_bind, decodeDateTime, hstr, parseDateTime_strftime hchrono hlo hhi hleap]

/-- **A date that is encoded is decoded as the same date, in whole seconds.** -/
theorem dates_roundTrip (hchrono : chrono.Lawful) (hprints : chrono.Prints)
    (hlo : 0 ≤ t.date.year) (hhi : t.date.year ≤ 9999) (hleap : t.nanos < 1000000000) :
    (Date.encode chrono ⟨t⟩ >>= Date.decode chrono) = .ok (.ok (some ⟨t.truncated⟩)) ∧
    (Expires.encode chrono ⟨t⟩ >>= Expires.decode chrono) = .ok (.ok (some ⟨t.truncated⟩)) :=
  ⟨decode_encodeDateTime hchrono hprints hlo hhi hleap Date.mk _ _,
    decode_encodeDateTime hchrono hprints hlo hhi hleap Expires.mk _ _⟩

/-- A quarter of a second past the last minute of February in a leap year. -/
theorem dates_roundTrip_leap :
    let t : DateTime :=
      ⟨⟨2020, 2, 29, by decide, by decide⟩, 86340, 250000000, by decide, by decide⟩
    (Date.encode proleptic ⟨t⟩ >>= Date.decode proleptic) = .ok (.ok (some ⟨t.truncated⟩)) ∧
    (Expires.encode proleptic ⟨t⟩ >>= Expires.decode proleptic) =
      .ok (.ok (some ⟨t.truncated⟩)) :=
  dates_roundTrip lawful_proleptic prints_proleptic (by decide) (by decide) (by decide)

end RoundTrip

end Rtsp
