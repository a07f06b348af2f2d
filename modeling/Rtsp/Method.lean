import Rtsp.Syntax

/-!
# Methods

`method.rs`. A method is one of the ten standard ones or an extension. An
extension carries what its constructor checked: it is a token in upper case that
starts with no `$` and spells no standard method, so it is read back as itself.

Methods are printed in capitals, and an extension is stored in capitals, whatever it was
read from. The dollar sign is a character of tokens, but at the front of a message it
announces interleaved data, for which reason `Method::extension` refuses it.

The enumeration of the source has one variant for extensions beside the standard ones.
Here it is split in two types, so that what holds of standard methods can be decided by
going through them.
-/

namespace Rtsp

open Syntax

/-- The standard variants of `Method`. -/
inductive StandardMethod where
  | describe | getParameter | options | pause | play | playNotify | redirect | setParameter
  | setup | teardown
  deriving DecidableEq

namespace StandardMethod

def asStr : StandardMethod → Bytes
  | describe => ascii "DESCRIBE"
  | getParameter => ascii "GET_PARAMETER"
  | options => ascii "OPTIONS"
  | pause => ascii "PAUSE"
  | play => ascii "PLAY"
  | playNotify => ascii "PLAY_NOTIFY"
  | redirect => ascii "REDIRECT"
  | setParameter => ascii "SET_PARAMETER"
  | setup => ascii "SETUP"
  | teardown => ascii "TEARDOWN"

/-- The methods `Method::try_from` compares with, by the length of the value. -/
def ofLength : Nat → List StandardMethod
  | 4 => [play]
  | 5 => [pause, setup]
  | 7 => [options]
  | 8 => [describe, redirect, teardown]
  | 11 => [playNotify]
  | 13 => [getParameter, setParameter]
  | _ => []

/-- The `check_method!`s of `Method::try_from`, in order. -/
def check (value : Bytes) : Option StandardMethod :=
  (ofLength value.length).find? fun m => matchesName toAsciiUppercase value m.asStr

theorem check_map_toAsciiUppercase (value : Bytes) :
    check (value.map toAsciiUppercase) = check value := by
  have heq : ∀ m : StandardMethod, matchesName toAsciiUppercase (value.map toAsciiUppercase) m.asStr
      = matchesName toAsciiUppercase value m.asStr := by
    intro m
    rw [Bool.eq_iff_iff, matchesName_iff, matchesName_iff, map_toAsciiUppercase_idem]
  simp only [check, List.length_map, heq]

theorem check_asStr (m : StandardMethod) : check m.asStr = some m := by
  cases m <;> rfl

theorem isToken_asStr (m : StandardMethod) : isToken m.asStr = true := by
  cases m <;> decide

end StandardMethod

/-- The name of a method that is not standard. -/
@[ext] structure ExtensionMethod where
  name : Bytes
  token : isToken name = true
  uppercase : name.map toAsciiUppercase = name
  noDollarSign : name.head? ≠ some 36
  notStandard : StandardMethod.check name = none

instance : DecidableEq ExtensionMethod := fun _ _ => decidable_of_iff' _ ExtensionMethod.ext_iff

inductive Method where
  | standard (m : StandardMethod)
  | extension (e : ExtensionMethod)
  deriving DecidableEq

inductive MethodError where
  | empty
  | invalidCharacter
  | startsWithDollarSign
  deriving DecidableEq

namespace Method

def asStr : Method → Bytes
  | standard m => m.asStr
  | extension e => e.name

/-- What `Method::extension` stores has the properties its checks were for. -/
def ofToken (value : Bytes) (hstd : StandardMethod.check value = none)
    (hdollar : value.head? ≠ some 36) (htok : isToken value = true) : ExtensionMethod where
  name := value.map toAsciiUppercase
  token := (isToken_map_toAsciiUppercase value).trans htok
  uppercase := map_toAsciiUppercase_idem value
  noDollarSign := by
    cases value with
    | nil => simp
    | cons b bs =>
      simp only [List.map_cons, List.head?_cons, ne_eq, Option.some.injEq] at hdollar ⊢
      exact fun h => hdollar (toAsciiUppercase_dollar h)
  notStandard := (StandardMethod.check_map_toAsciiUppercase value).trans hstd

/-- `Method::extension`, reached when no standard method matched. -/
def ofExtension (value : Bytes) (hstd : StandardMethod.check value = none) :
    Except MethodError Method :=
  if value.isEmpty then .error .empty
  else if hdollar : value.head? = some 36 then .error .startsWithDollarSign
  else if htok : isToken value = true then .ok (.extension (ofToken value hstd hdollar htok))
  else .error .invalidCharacter

/-- `Method::try_from` -/
def tryFrom (value : Bytes) : Except MethodError Method :=
  match h : StandardMethod.check value with
  | some m => .ok (.standard m)
  | none => ofExtension value h

theorem isToken_asStr (m : Method) : isToken m.asStr = true := by
  cases m with
  | standard m => exact m.isToken_asStr
  | extension e => exact e.token

/-- Every method is read back as it is written. -/
theorem tryFrom_asStr (m : Method) : tryFrom m.asStr = .ok m := by
  cases m with
  | standard m =>
    unfold tryFrom
    split
    · next m' h => rw [asStr, m.check_asStr] at h; cases h; rfl
    · next h => rw [asStr, m.check_asStr] at h; cases h
  | extension e =>
    unfold tryFrom
    split
    · next m h => rw [asStr, e.notStandard] at h; cases h
    · next h =>
      have hne := isToken_ne_nil e.token
      simp [ofExtension, asStr, hne, e.noDollarSign, e.token, ofToken, e.uppercase]

/-- A method is its text in upper case. -/
theorem asStr_of_tryFrom {value : Bytes} {m : Method} (h : tryFrom value = .ok m) :
    m.asStr = value.map toAsciiUppercase := by
  unfold tryFrom at h
  split at h
  · next s hcheck =>
    cases h
    have hmatches := List.find?_some hcheck
    exact (matchesName_iff.mp hmatches).symm
  · next hcheck =>
    unfold ofExtension at h
    split at h
    · cases h
    · split at h
      · cases h
      · split at h
        · cases h
          rfl
        · cases h

theorem isToken_of_tryFrom {value : Bytes} {m : Method} (h : tryFrom value = .ok m) :
    isToken value = true := by
  rw [← isToken_map_toAsciiUppercase, ← asStr_of_tryFrom h]
  exact m.isToken_asStr

end Method
end Rtsp
