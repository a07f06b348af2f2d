import Rtsp.Syntax

/-!
# Range formats

`RangeFormat` of `header/types/accept_ranges.rs`. As with methods, an extension
carries what its constructor checked: it is a token in lower case that spells no
standard format.

Unlike a header name an extension is stored in lower case, so there is no spelling to
keep and equal formats are the same value. The three properties that its fields carry
are what `try_from` has checked by the time it builds one; without `notStandard` a
format could be built that prints as a standard one and is different from it.
-/

namespace Rtsp

open Syntax

/-- The standard variants of `RangeFormat`. -/
inductive StandardRangeFormat where
  | clock | npt | smpte | smpte25 | smpte30Drop
  deriving DecidableEq

namespace StandardRangeFormat

def asStr : StandardRangeFormat → Bytes
  | clock => ascii "clock"
  | npt => ascii "npt"
  | smpte => ascii "smpte"
  | smpte25 => ascii "smpte-25"
  | smpte30Drop => ascii "smpte-30-drop"

/-- The formats `RangeFormat::try_from` compares with, by the length of the value. -/
def ofLength : Nat → List StandardRangeFormat
  | 3 => [npt]
  | 5 => [clock, smpte]
  | 8 => [smpte25]
  | 13 => [smpte30Drop]
  | _ => []

/-- The `check_range_format!`s of `RangeFormat::try_from`, in order. -/
def check (value : Bytes) : Option StandardRangeFormat :=
  (ofLength value.length).find? fun r => matchesName toAsciiLowercase value r.asStr

theorem check_eq_some_iff {value : Bytes} {r : StandardRangeFormat} :
    check value = some r ↔ value.map toAsciiLowercase = r.asStr :=
  find?_matchesName_iff (fun r => by cases r <;> decide)
    (fun r r' => by cases r <;> cases r' <;> decide)

theorem check_map_toAsciiLowercase (value : Bytes) :
    check (value.map toAsciiLowercase) = check value := by
  refine Option.ext fun r => ?_
  rw [check_eq_some_iff, check_eq_some_iff, map_toAsciiLowercase_idem]

theorem lowercase_asStr (r : StandardRangeFormat) : r.asStr.map toAsciiLowercase = r.asStr := by
  cases r <;> decide

end StandardRangeFormat

/-- The name of a range format that is not standard. -/
@[ext] structure ExtensionRangeFormat where
  name : Bytes
  token : isToken name = true
  lowercase : name.map toAsciiLowercase = name
  notStandard : StandardRangeFormat.check name = none

instance : DecidableEq ExtensionRangeFormat := fun _ _ =>
  decidable_of_iff' _ ExtensionRangeFormat.ext_iff

inductive RangeFormat where
  | standard (r : StandardRangeFormat)
  | extension (e : ExtensionRangeFormat)
  deriving DecidableEq

inductive RangeFormatError where
  | empty
  | invalidCharacter
  deriving DecidableEq

namespace RangeFormat

def asStr : RangeFormat → Bytes
  | standard r => r.asStr
  | extension e => e.name

/-- What `RangeFormat::extension` stores has the properties its checks were for. -/
def ofToken (value : Bytes) (hstd : StandardRangeFormat.check value = none)
    (htok : isToken value = true) : ExtensionRangeFormat where
  name := value.map toAsciiLowercase
  token := (isToken_map_toAsciiLowercase value).trans htok
  lowercase := map_toAsciiLowercase_idem value
  notStandard := (StandardRangeFormat.check_map_toAsciiLowercase value).trans hstd

/-- `RangeFormat::extension`, reached when no standard format matched. -/
def ofExtension (value : Bytes) (hstd : StandardRangeFormat.check value = none) :
    Except RangeFormatError RangeFormat :=
  if value.isEmpty then .error .empty
  else if htok : isToken value = true then .ok (.extension (ofToken value hstd htok))
  else .error .invalidCharacter

/-- `RangeFormat::try_from` -/
def tryFrom (value : Bytes) : Except RangeFormatError RangeFormat :=
  match h : StandardRangeFormat.check value with
  | some r => .ok (.standard r)
  | none => ofExtension value h

theorem isToken_asStr (r : RangeFormat) : isToken r.asStr = true := by
  cases r with
  | standard r => cases r <;> decide
  | extension e => exact e.token

/-- Every range format is read back as it is written. -/
theorem tryFrom_asStr (r : RangeFormat) : tryFrom r.asStr = .ok r := by
  cases r with
  | standard r =>
    have hcheck : StandardRangeFormat.check r.asStr = some r :=
      StandardRangeFormat.check_eq_some_iff.mpr r.lowercase_asStr
    unfold tryFrom
    split
    · next r' h => rw [asStr, hcheck] at h; cases h; rfl
    · next h => rw [asStr, hcheck] at h; cases h
  | extension e =>
    unfold tryFrom
    split
    · next r h => rw [asStr, e.notStandard] at h; cases h
    · simp [ofExtension, asStr, isToken_ne_nil e.token, e.token, ofToken, e.lowercase]

end RangeFormat
end Rtsp
