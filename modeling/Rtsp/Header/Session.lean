import Mathlib.Data.Bool.AllAny
import Rtsp.Header.Map
import Rtsp.Whitespace

/-!
# `Session`

`session.rs` and `header/types/session.rs`: an identifier, and the seconds after
which it expires if they are not the default. The decoder has a bound on the
seconds. A `Session` has none, nor has the encoder, so the longest timeouts are
written but not read back (`Session.roundTrips_iff`).

A timeout is a `Duration`, whose seconds go up to the largest `u64`; the header allows
nineteen digits, and there are numbers of twenty digits in between. The encoder prints
any of them.

What comes back need not be the same value. The default timeout is not written at all,
and fractions of a second are not either, so that sessions are compared by their
identifier and by the seconds that hold (`effectiveSecs`). To ask for more would make
the result false for reasons that nobody would call a defect.
-/

namespace Rtsp

open Syntax

/-! ## Identifiers -/

inductive SessionIDError where
  | invalidCharacter
  | tooLong
  | tooShort
  deriving DecidableEq

namespace SessionID

/-- A letter or a digit, or one of `$-_.+`. -/
def isIdChar (b : Byte) : Bool :=
  isUpper b || isLower b || isDigit b || b == 36 || b == 45 || b == 95 || b == 46 || b == 43

/-- The checks of `SessionID::try_from`. -/
def check (value : Bytes) : Except SessionIDError Unit :=
  if value.length < 8 then .error .tooShort
  else if value.length > 256 then .error .tooLong
  else if value.all isIdChar then .ok ()
  else .error .invalidCharacter

end SessionID

structure SessionID where
  text : Bytes
  valid : SessionID.check text = .ok ()
  deriving DecidableEq

namespace SessionID

/-- `SessionID::try_from` -/
def tryFrom (value : Bytes) : Except SessionIDError SessionID :=
  match h : check value with
  | .ok () => .ok ⟨value, h⟩
  | .error e => .error e

theorem tryFrom_text (i : SessionID) : tryFrom i.text = .ok i := by
  unfold tryFrom
  split
  · rfl
  · next e h =>
    rw [i.valid] at h
    cases h

theorem isTokenChar_of_isIdChar {b : Byte} (h : isIdChar b = true) : isTokenChar b = true :=
  forall_byte (P := fun b => isIdChar b = true → isTokenChar b = true) (by decide +kernel) b h

/-- Every character of an identifier may stand in a token. -/
theorem isToken_text (i : SessionID) : isToken i.text = true := by
  have hvalid := i.valid
  unfold check at hvalid
  split at hvalid
  · cases hvalid
  · next hlen =>
    split at hvalid
    · cases hvalid
    · split at hvalid
      · next hall =>
        have hne : i.text ≠ [] := by
          intro hnil
          simp [hnil] at hlen
        simp only [isToken, Bool.and_eq_true, List.all_eq_true] at hall ⊢
        exact ⟨by simpa using hne, fun b hb => isTokenChar_of_isIdChar (hall b hb)⟩
      · cases hvalid

end SessionID

/-! ## Sessions -/

def u64Max : Nat := 2 ^ 64 - 1

/-- `std::time::Duration` -/
structure Duration where
  secs : Nat
  nanos : Nat
  secs_le : secs ≤ u64Max
  nanos_lt : nanos < 1000000000
  deriving DecidableEq

def DEFAULT_SESSION_TIMEOUT : Duration := ⟨60, 0, by decide, by decide⟩

def MAX_SESSION_TIMEOUT : Nat := 9999999999999999999

structure Session where
  id : SessionID
  timeout : Option Duration
  deriving DecidableEq

inductive TimeoutError where
  | empty
  | exceedsMaximumLength
  | invalidDigit
  | overflow
  deriving DecidableEq

/-- `TryFrom<IntErrorKind> for TimeoutError` -/
def TimeoutError.ofIntErrorKind : IntErrorKind → TimeoutError
  | .empty => empty
  | .invalidDigit => invalidDigit
  | .posOverflow => overflow

inductive SessionError where
  | invalidParameterSyntax
  | moreThanOneHeader
  | sessionID (e : SessionIDError)
  | timeout (e : TimeoutError)
  deriving DecidableEq

namespace Session

def withoutTimeout (id : Bytes) : Except SessionIDError Session := do
  let id ← SessionID.tryFrom id
  return ⟨id, none⟩

def withTimeout (id : Bytes) (timeout : Duration) : Except SessionIDError Session := do
  let id ← SessionID.tryFrom id
  return ⟨id, some timeout⟩

/-- The part of `TypedHeader::decode` behind the semicolon. -/
def decodeTimeout (parameter : Str) : Except SessionError Duration :=
  match Str.splitn2 '=' parameter with
  | (_, none) => .error .invalidParameterSyntax
  | (name, some delta) =>
    -- `to_lowercase`: there is no other character that becomes a letter of this name.
    if (trimWhitespace name).map Char.toLower ≠ "timeout".toList then
      .error .invalidParameterSyntax
    else
      match parseUnsigned u64Max (trimWhitespace delta).asBytes with
      | .error e => .error (.timeout (.ofIntErrorKind e))
      | .ok delta =>
        if h : delta ≤ MAX_SESSION_TIMEOUT then
          .ok ⟨delta, 0, Nat.le_trans h (by decide), by decide⟩
        else .error (.timeout .exceedsMaximumLength)

/-- The identifier in front of the semicolon. -/
def decodeId (part : Str) : Except SessionError SessionID :=
  match SessionID.tryFrom (trimWhitespace part).asBytes with
  | .ok id => .ok id
  | .error e => .error (.sessionID e)

/-- `TypedHeader::encode`, as the text of the value. -/
def encodeText (s : Session) : Bytes :=
  match s.timeout with
  | some timeout =>
    if timeout.secs = DEFAULT_SESSION_TIMEOUT.secs then s.id.text
    else s.id.text ++ ascii "; timeout = " ++ toDecimal timeout.secs
  | none => s.id.text

theorem isToken_toDecimal (n : Nat) : isToken (toDecimal n) = true := by
  simp only [isToken, Bool.and_eq_true, List.all_eq_true]
  refine ⟨by simpa using toDecimal_ne_nil n, fun b hb => ?_⟩
  exact forall_byte (P := fun b => Rtsp.isDigit b = true → isTokenChar b = true)
    (by decide +kernel) b (isDigit_of_mem_toDecimal n b hb)

theorem printable_encodeText (s : Session) :
    ∀ b ∈ s.encodeText, 32 ≤ b.toNat ∧ b.toNat ≤ 126 := by
  have hid := printable_of_isToken s.id.isToken_text
  unfold encodeText
  split
  · split
    · exact hid
    · next timeout _ _ =>
      have hname : ∀ b ∈ ascii "; timeout = ", 32 ≤ b.toNat ∧ b.toNat ≤ 126 :=
        List.all_iff_forall_prop.mp rfl
      have hsecs := printable_of_isToken (isToken_toDecimal timeout.secs)
      intro b hb
      simp only [List.mem_append] at hb
      rcases hb with (hb | hb) | hb
      · exact hid b hb
      · exact hname b hb
      · exact hsecs b hb
  · exact hid

instance : TypedHeader Session SessionError where
  headerName := .standard .session
  decode
    | [] => .ok none
    | [value] =>
      match Str.splitn2 ';' value.asStr with
      | (id, none) => do
        let id ← decodeId id
        return some ⟨id, none⟩
      | (id, some parameter) => do
        let id ← decodeId id
        let timeout ← decodeTimeout parameter
        return some ⟨id, some timeout⟩
    | _ :: _ :: _ => .error .moreThanOneHeader
  encode s := [⟨s.encodeText, HeaderValue.check_printable s.printable_encodeText⟩]

/-! ## Reading a session back -/

/-- The timeout that holds: without one it is the default. -/
def effectiveSecs (s : Session) : Nat :=
  match s.timeout with
  | some timeout => timeout.secs
  | none => DEFAULT_SESSION_TIMEOUT.secs

/-- The same identifier is read back, and the same timeout in seconds. -/
def RoundTrips (s : Session) : Prop :=
  ∃ s' : Session, TypedHeader.decode (TypedHeader.encode s) = .ok (some s') ∧
    s'.id = s.id ∧ s'.effectiveSecs = s.effectiveSecs

theorem decodeId_text (i : SessionID) : decodeId (Str.ofAscii i.text) = .ok i := by
  rw [decodeId, trimWhitespace_word (isWord_of_isToken i.isToken_text),
    Str.asBytes_ofAscii (ascii_of_isToken i.isToken_text), i.tryFrom_text]

/-- The parameter as it is written is read up to the bound. -/
theorem decodeTimeout_toDecimal {n : Nat} (h : n ≤ u64Max) :
    decodeTimeout (" timeout ".toList ++ '=' :: ' ' :: Str.ofAscii (toDecimal n)) =
      if h : n ≤ MAX_SESSION_TIMEOUT then .ok ⟨n, 0, Nat.le_trans h (by decide), by decide⟩
      else .error (.timeout .exceedsMaximumLength) := by
  have htoken := isToken_toDecimal n
  have hname : trimWhitespace " timeout ".toList = "timeout".toList := by
    rw [trimWhitespace, trimWhitespaceLeft_eq, trimWhitespaceRight_eq]
    rfl
  have hlower : "timeout".toList.map Char.toLower = "timeout".toList := by decide
  rw [decodeTimeout, Str.splitn2_append _ (by decide)]
  simp only [hname, hlower, ne_eq, not_true_eq_false, if_false]
  rw [trimWhitespace_space_word (isWord_of_isToken htoken),
    Str.asBytes_ofAscii (ascii_of_isToken htoken), parseUnsigned_toDecimal h]

theorem asStr_encode (s : Session) :
    HeaderValue.asStr ⟨s.encodeText, HeaderValue.check_printable s.printable_encodeText⟩ =
      Str.ofAscii s.encodeText :=
  HeaderValue.asStr_of_ascii fun b hb =>
    Nat.lt_of_le_of_lt (s.printable_encodeText b hb).2 (by decide)

/-- An identifier on its own is a session without a timeout. -/
theorem decode_encode_id {s : Session} (h : s.encodeText = s.id.text) :
    TypedHeader.decode (TypedHeader.encode s) = .ok (some (⟨s.id, none⟩ : Session)) := by
  have hsemi : ';' ∉ Str.ofAscii s.id.text :=
    not_mem_ofAscii (c := 59) s.id.isToken_text (by decide)
  show (match Str.splitn2 ';' (HeaderValue.asStr ⟨s.encodeText, _⟩) with
    | (id, none) => _
    | (id, some parameter) => _) = _
  rw [asStr_encode, h, Str.splitn2_of_not_mem hsemi]
  show (decodeId (Str.ofAscii s.id.text) >>= _) = _
  rw [decodeId_text]
  rfl

/-- What is written of another timeout than the default is what the decoder reads. -/
theorem decode_encode_timeout {s : Session} {timeout : Duration} (h : s.timeout = some timeout)
    (hne : timeout.secs ≠ DEFAULT_SESSION_TIMEOUT.secs) :
    TypedHeader.decode (TypedHeader.encode s) =
      if h : timeout.secs ≤ MAX_SESSION_TIMEOUT then
        .ok (some (⟨s.id, some ⟨timeout.secs, 0, Nat.le_trans h (by decide), by decide⟩⟩ : Session))
      else .error (SessionError.timeout .exceedsMaximumLength) := by
  have hsemi : ';' ∉ Str.ofAscii s.id.text :=
    not_mem_ofAscii (c := 59) s.id.isToken_text (by decide)
  have htext : Str.ofAscii s.encodeText = Str.ofAscii s.id.text ++
      ';' :: (" timeout ".toList ++ '=' :: ' ' :: Str.ofAscii (toDecimal timeout.secs)) := by
    unfold encodeText
    rw [h]
    dsimp only
    rw [if_neg hne, Str.ofAscii, List.map_append, List.map_append, List.append_assoc]
    rfl
  show (match Str.splitn2 ';' (HeaderValue.asStr ⟨s.encodeText, _⟩) with
    | (id, none) => _
    | (id, some parameter) => _) = _
  rw [asStr_encode, htext, Str.splitn2_append _ hsemi]
  show (decodeId (Str.ofAscii s.id.text) >>= fun id => decodeTimeout _ >>= _) = _
  rw [decodeId_text, ok_bind, decodeTimeout_toDecimal timeout.secs_le]
  split
  · rfl
  · rfl

/-- **A session is read back exactly if its timeout is within the bound of the decoder.** -/
theorem roundTrips_iff (s : Session) :
    s.RoundTrips ↔ ∀ timeout, s.timeout = some timeout → timeout.secs ≤ MAX_SESSION_TIMEOUT := by
  cases h : s.timeout with
  | none =>
    have htext : s.encodeText = s.id.text := by rw [encodeText, h]
    refine iff_of_true ⟨_, decode_encode_id htext, rfl, ?_⟩ fun timeout => nofun
    simp only [effectiveSecs, h]
  | some timeout =>
    by_cases hdefault : timeout.secs = DEFAULT_SESSION_TIMEOUT.secs
    · have htext : s.encodeText = s.id.text := by
        rw [encodeText, h]
        exact if_pos hdefault
      refine iff_of_true ⟨_, decode_encode_id htext, rfl, ?_⟩ ?_
      · simp only [effectiveSecs, h, hdefault]
      · rintro timeout' heq
        cases heq
        rw [hdefault]
        decide
    · have hdecode := decode_encode_timeout h hdefault
      constructor
      · rintro ⟨s', hs', -, -⟩ timeout' heq
        cases heq
        by_cases hle : timeout.secs ≤ MAX_SESSION_TIMEOUT
        · exact hle
        · rw [hdecode, dif_neg hle] at hs'
          cases hs'
      · intro hbound
        have hle := hbound timeout rfl
        rw [dif_pos hle] at hdecode
        refine ⟨_, hdecode, rfl, ?_⟩
        simp only [effectiveSecs, h]

/-- The shortest timeout that is too long. -/
theorem not_roundTrips_long :
    ∃ s, withTimeout (ascii "QKyjN8nt2WqbWw4tIYof52")
      ⟨10000000000000000000, 0, by decide, by decide⟩ = .ok s ∧ ¬ s.RoundTrips := by
  refine ⟨⟨⟨ascii "QKyjN8nt2WqbWw4tIYof52", by decide⟩, _⟩, rfl, ?_⟩
  rintro ⟨s', hs', -, -⟩
  rw [decode_encode_timeout rfl (by decide), dif_neg (by decide)] at hs'
  cases hs'

end Session
end Rtsp
