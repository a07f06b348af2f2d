import Rtsp.Syntax

/-!
# Protocol version

`rtsp-common/src/version.rs`: the two versions the library knows and the parser
of the eight bytes that name one.

The version is read in any case and printed in capitals. A digit is computed by a
checked subtraction, so a byte below `0` is invalid, while one above `9` becomes a
number too large, which is found out after the two known versions have been compared.

A version 1.0 is known here, and it is for the callers to refuse it.
-/

namespace Rtsp

open Syntax

inductive Version where
  | rtsp1_0
  | rtsp2_0
  deriving DecidableEq

namespace Version

inductive DecodeError where
  | invalid
  | unknown (major minor : Nat)
  deriving DecidableEq

def asEncoded : Version → Bytes
  | rtsp1_0 => ascii "RTSP/1.0"
  | rtsp2_0 => ascii "RTSP/2.0"

/-- `u8::checked_sub(b'0')` -/
def checkedDigit (b : Byte) : Except DecodeError Nat :=
  if 48 ≤ b then .ok (b.toNat - 48) else .error .invalid

/-- `Version::try_decode`. The length is checked before the bytes are indexed. -/
def tryDecode (value : Bytes) : Except DecodeError Version :=
  match value with
  | [v₀, v₁, v₂, v₃, v₄, v₅, v₆, v₇] =>
    if [v₀, v₁, v₂, v₃, v₄].map toAsciiUppercase ≠ ascii "RTSP/" ∨ v₆ ≠ 46 then .error .invalid
    else do
      let major ← checkedDigit v₅
      let minor ← checkedDigit v₇
      if major = 1 ∧ minor = 0 then .ok rtsp1_0
      else if major = 2 ∧ minor = 0 then .ok rtsp2_0
      else if 9 < major ∨ 9 < minor then .error .invalid
      else .error (.unknown major minor)
  | _ => .error .invalid

/-- Both versions are read back as they are written. -/
theorem tryDecode_asEncoded (v : Version) : tryDecode v.asEncoded = .ok v := by
  cases v <;> rfl

end Version
end Rtsp
