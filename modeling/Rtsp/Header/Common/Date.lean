import Rtsp.Lib.Calendar
import Rtsp.Lib.Reads
import Rtsp.Whitespace

/-!
# The parser of dates

`header/common/date.rs`, up to where `chrono` takes over. Each function takes a
part off the front of a string. They walk over characters and split at offsets in
bytes; that such a split is at a boundary is for the proofs to show, and the
integers are checked for overflow as the code's are.

Strings are lists of characters, and offsets are counted in bytes, as in the source. A
split at an offset that is inside a character panics. Most of the splits follow a walk
over ASCII characters and cannot panic; the names of days and months are cut off at
three bytes without looking, and these can.

A failure is a panic or an error, in one type, so that the functions read as they do in
the source with its `?`. What an error says is never more than that the date is not
valid.
-/

namespace Rtsp.Common

open Syntax Lib

/-- Why a parser returned no value. -/
inductive Failure where
  | panic (p : Panic)
  /-- `DateTimeError` -/
  | invalid
  deriving DecidableEq

abbrev Parsed (α : Type) := Except Failure α

/-- A function that takes a part off the front of a string. -/
abbrev StrParser (α : Type) := Parser Char Failure α

def invalid {α : Type} : Parsed α := .error .invalid

/-- A call that does not return a `Result`. -/
def call {α : Type} : Rust α → Parsed α
  | .ok a => .ok a
  | .error p => .error (.panic p)

def splitAt (s : Str) (i : Nat) : Parsed (Str × Str) := call (Str.splitAt s i)

def i32Max : Nat := 2 ^ 31 - 1

/-- An `i32` that was computed. -/
def i32 (n : Int) : Parsed Int :=
  if -2 ^ 31 ≤ n ∧ n ≤ i32Max then .ok n else .error (.panic .overflow)

/-- A `u32` that was computed. -/
def u32 (n : Nat) : Parsed Nat := if n ≤ u32Max then .ok n else .error (.panic .overflow)

/-- `char::to_digit` -/
def toDigit (c : Char) : Option Nat := if c.isDigit then some (c.toNat - 48) else none

/-- `ok_or(DateTimeError)?` -/
def okOr {α : Type} : Option α → Parsed α
  | some a => .ok a
  | none => invalid

/-! ## Comments and whitespace -/

/-- `get_new_iter`: the offset behind the part, and what is left. -/
def getNewIter (value : Str) (parseFunction : StrParser Str) (bytesParsed : Nat) :
    Parsed (Nat × Str) := do
  let (_, tail) ← splitAt value bytesParsed
  let (part1, part2) ← parseFunction tail
  return (bytesParsed + Str.len part1, part2)

def isCommentText (c : Char) : Bool :=
  ('!' ≤ c && c ≤ '\'') || ('*' ≤ c && c ≤ '[') || (']' ≤ c && c ≤ '~')

/-- `ParseState::Whitespace` of `parse_folding_whitespace`, with `ParseState::CRLF`, which is
    entered at a `CR` only. -/
def foldingLoop (value : Str) : Bool → Nat → StrParser Str
  | required, bytesParsed, [] => if required then invalid else splitAt value bytesParsed
  | required, bytesParsed, c :: chars =>
    if isBlank c then foldingLoop value false (bytesParsed + 1) chars
    else if required then invalid
    else if c = '\r' then
      match chars with
      | d :: chars => if d = '\n' then foldingLoop value true (bytesParsed + 2) chars else invalid
      | [] => invalid
    else splitAt value bytesParsed

/-- `parse_folding_whitespace`, which begins in `ParseState::InitialWhitespace` -/
def parseFoldingWhitespace : StrParser Str
  | [] => invalid
  | c :: chars => if isBlank c then foldingLoop (c :: chars) false 1 chars else invalid

def parseQuotedPair : StrParser Str
  | c₁ :: c₂ :: chars =>
    if c₁ = '\\' ∧ (('!' < c₂ ∧ c₂ < '~') ∨ c₂ = ' ' ∨ c₂ = '\t') then
      splitAt (c₁ :: c₂ :: chars) 2
    else invalid
  | _ => invalid

/-- `parse_comment`, with the loop it enters behind the parenthesis. -/
def parseCommentWith (loop : Str → Nat → StrParser Str) : StrParser Str
  | [] => invalid
  | c :: chars => if c = '(' then loop (c :: chars) 1 chars else invalid

/-- The loop of `parse_comment`, with a bound on its turns and on the nesting. -/
def commentLoop : Nat → Str → Nat → StrParser Str
  | 0, _, _, _ => .error (.panic .diverged)
  | _ + 1, _, _, [] => invalid
  | fuel + 1, value, bytesParsed, c :: chars =>
    if isBlank c then do
      let (bytesParsed, chars) ← getNewIter value parseFoldingWhitespace bytesParsed
      commentLoop fuel value bytesParsed chars
    else if c = '(' then do
      let (bytesParsed, chars) ←
        getNewIter value (parseCommentWith (commentLoop fuel)) bytesParsed
      commentLoop fuel value bytesParsed chars
    else if c = ')' then splitAt value (bytesParsed + 1)
    else if c = '\\' then do
      let (bytesParsed, chars) ← getNewIter value parseQuotedPair bytesParsed
      commentLoop fuel value bytesParsed chars
    else if isCommentText c then commentLoop fuel value (bytesParsed + 1) chars
    else invalid

/-- `parse_comment`. A turn reads a character at least, so there is one for each. -/
def parseComment : StrParser Str := fun value => parseCommentWith (commentLoop value.length) value

/-- What `chars().next()` of the string is asked for. -/
def startsWith (p : Char → Bool) : Str → Bool
  | [] => false
  | c :: _ => p c

/-- The loop of `parse_comment_and_folding_whitespace`, with a bound on its turns. -/
def gapLoop (value : Str) (isOptional : Bool) : Nat → Bool → Nat → StrParser Str
  | 0, _, _, _ => .error (.panic .diverged)
  | fuel + 1, firstFound, bytesParsed, chars =>
    if startsWith (· == '(') chars then do
      let (bytesParsed, chars) ← getNewIter value parseComment bytesParsed
      gapLoop value isOptional fuel true bytesParsed chars
    else if startsWith isBlank chars then do
      let (bytesParsed, chars) ← getNewIter value parseFoldingWhitespace bytesParsed
      gapLoop value isOptional fuel true bytesParsed chars
    else if firstFound || isOptional then splitAt value bytesParsed
    else invalid

def parseCommentAndFoldingWhitespace (isOptional : Bool) : StrParser Str := fun value =>
  gapLoop value isOptional (value.length + 1) false 0 value

/-! ## The day -/

/-- The weekdays by the names in the order of `parse_day_of_week`. -/
def dayNames : List (Str × Weekday) :=
  [("sun".toList, .sun), ("mon".toList, .mon), ("tue".toList, .tue), ("wed".toList, .wed),
    ("thu".toList, .thu), ("fri".toList, .fri), ("sat".toList, .sat)]

/-- The months by the names in the order of `parse_month`. -/
def monthNames : List (Str × Nat) :=
  [("jan".toList, 1), ("feb".toList, 2), ("mar".toList, 3), ("apr".toList, 4),
    ("may".toList, 5), ("jun".toList, 6), ("jul".toList, 7), ("aug".toList, 8),
    ("sep".toList, 9), ("oct".toList, 10), ("nov".toList, 11), ("dec".toList, 12)]

/-- `parse_day_of_week` and `parse_month`: three bytes that are a name in any case. The names
    have no letter that a character other than ASCII is lowercased to. -/
def parseName {α : Type} (names : List (Str × α)) : StrParser α := fun value =>
  if Str.len value < 3 then invalid
  else do
    let (part1, part2) ← splitAt value 3
    let name ← okOr (names.lookup (part1.map Char.toLower))
    return (name, part2)

def parseDayOfWeek : StrParser Weekday := parseName dayNames

def parseMonth : StrParser Nat := parseName monthNames

def parseDay : StrParser Nat
  | [] => invalid
  | c :: chars => do
    let firstDigit ← okOr (toDigit c)
    match chars.head?.bind toDigit with
    | some secondDigit =>
      let day ← u32 (firstDigit * 10 + secondDigit)
      let (_, rest) ← splitAt (c :: chars) 2
      return (day, rest)
    | none =>
      let (_, rest) ← splitAt (c :: chars) 1
      return (firstDigit, rest)

/-- The loop of `parse_year` over the characters. -/
def yearLoop (year : Int) (bytesParsed : Nat) : Str → Parsed (Int × Nat)
  | [] => .ok (year, bytesParsed)
  | c :: chars =>
    match toDigit c with
    | some digit =>
      -- `checked_mul` is followed by an addition that is not.
      if year * 10 ≤ i32Max then do
        let year ← i32 (year * 10 + digit)
        yearLoop year (bytesParsed + 1) chars
      else invalid
    | none => .ok (year, bytesParsed)

/-- What a year in two or three digits stands for. -/
def expandYear (digits : Nat) (year : Int) : Parsed Int :=
  match digits with
  | 0 | 1 => invalid
  | 2 => if 0 ≤ year ∧ year ≤ 49 then i32 (year + 2000) else i32 (year + 1900)
  | 3 => i32 (year + 1900)
  | _ => .ok year

def parseYear : StrParser Int := fun value => do
  let (year, bytesParsed) ← yearLoop 0 0 value
  let year ← expandYear bytesParsed year
  let (_, rest) ← splitAt value bytesParsed
  return (year, rest)

def parseDate : StrParser (Nat × Nat × Int) := fun value => do
  let (day, value) ← parseDay value
  let (_, value) ← parseCommentAndFoldingWhitespace false value
  let (month, value) ← parseMonth value
  let (_, value) ← parseCommentAndFoldingWhitespace false value
  let (year, value) ← parseYear value
  return ((day, month, year), value)

/-! ## The time -/

def parse2DigitNumber : StrParser Nat
  | [] => invalid
  | c :: chars => do
    let firstDigit ← okOr (toDigit c)
    let secondDigit ← okOr (chars.head?.bind toDigit)
    let number ← u32 (firstDigit * 10 + secondDigit)
    let (_, rest) ← splitAt (c :: chars) 2
    return (number, rest)

/-- `parse_colon`, which returns what is left. -/
def parseColon (isOptional : Bool) (originalValue : Str) : Parsed Str := do
  let (_, value) ← parseCommentAndFoldingWhitespace true originalValue
  if startsWith (· == ':') value then do
    let (_, value) ← splitAt value 1
    let (_, value) ← parseCommentAndFoldingWhitespace true value
    return value
  else if isOptional then return originalValue
  else invalid

/-- The seconds of `parse_time_of_day`, behind another colon. -/
def parseSecond : StrParser (Option Nat) := fun originalValue => do
  let value ← parseColon true originalValue
  if Str.len originalValue ≠ Str.len value then do
    let (second, value) ← parse2DigitNumber value
    return (some second, value)
  else return (none, originalValue)

def parseTimeOfDay : StrParser (Nat × Nat × Option Nat) := fun value => do
  let (hour, value) ← parse2DigitNumber value
  let value ← parseColon false value
  let (minute, value) ← parse2DigitNumber value
  let (second, value) ← parseSecond value
  return ((hour, minute, second), value)

/-- `str::parse` at `i32` -/
def parseI32 (text : Bytes) : Option Int :=
  match text with
  | 45 :: digits =>
    if digits.isEmpty then none
    else (parseDigits (i32Max + 1) 0 digits).toOption.map fun n => -n
  | _ => (parseUnsigned i32Max text).toOption.map fun n => n

/-- The named time zones. -/
def zoneNames : List (Str × Int) :=
  [("ut".toList, 0), ("gmt".toList, 0), ("edt".toList, -400), ("est".toList, -500),
    ("cdt".toList, -500), ("cst".toList, -600), ("mdt".toList, -600), ("mst".toList, -700),
    ("pdt".toList, -700), ("pst".toList, -800)]

/-- The `match` on the name of a time zone in lower case. -/
def namedZone (timezone : Str) : Parsed Int :=
  match zoneNames.lookup timezone with
  | some offset => .ok offset
  | none =>
    match timezone with
    | [c] => if ('a' ≤ c ∧ c ≤ 'i') ∨ ('k' ≤ c ∧ c ≤ 'z') then .ok 0 else invalid
    | _ => invalid

def parseTimeZone : StrParser Int := fun value =>
  if startsWith (fun c => c == '+' || c == '-') value then do
    let offset := (value.drop 1).take 4
    if Str.len offset ≠ 4 then invalid
    else do
      let offset ← okOr (parseI32 (Str.asBytes offset))
      let offset ← if value.head? = some '-' then i32 (offset * -1) else .ok offset
      let (_, rest) ← splitAt value 5
      return (offset, rest)
  else do
    let timezone := ((value.take 3).takeWhile Char.isAlpha).map Char.toLower
    let offset ← namedZone timezone
    let (_, rest) ← splitAt value (Str.len timezone)
    return (offset, rest)

def parseTime : StrParser (Nat × Nat × Option Nat × Int) := fun value => do
  let ((hour, minute, second), value) ← parseTimeOfDay value
  let (_, value) ← parseCommentAndFoldingWhitespace false value
  let (offset, value) ← parseTimeZone value
  return ((hour, minute, second, offset), value)

end Rtsp.Common
