import Rtsp.Header.Map

/-!
# `CSeq` and `Content-Length`

`header/types/cseq.rs` and `header/types/content_length.rs`. Both are one
unsigned number with an upper bound, decoded from exactly one value; they differ
in the bound, the width of the integer parsed and what is done with the number.

A `CSeq` counts modulo `MAX_CSEQ + 1`. Its subtraction does not: below zero it
is off by one (`CSeq.sub`).

The decoder of both is one definition with the bound and the integer's range as
parameters, as their texts in the source are the same but for these. The conversion that
rejects numbers above the bound comes after `str::parse`, which has its own errors.

A `usize` has 64 bits throughout (`usizeMax`). On a machine with a shorter one the bound
on content lengths could not be reached.
-/

namespace Rtsp

/-- `CSeqError` and `ContentLengthError`, which have the same variants. -/
inductive NumberError where
  | empty
  | exceedsMaximumLength
  | invalidDigit
  | moreThanOneHeader
  | overflow
  deriving DecidableEq

/-- `TryFrom<IntErrorKind>` of either error. -/
def NumberError.ofIntErrorKind : IntErrorKind → NumberError
  | .empty => empty
  | .invalidDigit => invalidDigit
  | .posOverflow => overflow

/-- `TypedHeader::decode` of either header: the maximum of the integer type and the
    conversion of the number are its own. -/
def decodeNumber {α : Type} (max : Nat) (tryFrom : Nat → Except NumberError α) :
    List HeaderValue → Except NumberError (Option α)
  | [] => .ok none
  | [value] =>
    match parseUnsigned max value.text with
    | .ok n => (tryFrom n).map some
    | .error e => .error (.ofIntErrorKind e)
  | _ :: _ :: _ => .error .moreThanOneHeader

/-! ## CSeq -/

def MAX_CSEQ : Nat := 999999999

structure CSeq where
  val : Nat
  le_max : val ≤ MAX_CSEQ
  deriving DecidableEq

namespace CSeq

/-- `TryFrom<u32> for CSeq` -/
def tryFrom (value : Nat) : Except NumberError CSeq :=
  if h : value ≤ MAX_CSEQ then .ok ⟨value, h⟩ else .error .exceedsMaximumLength

def wrappingIncrement (c : CSeq) : CSeq :=
  ⟨(c.val + 1) % (MAX_CSEQ + 1), Nat.le_of_lt_succ (Nat.mod_lt _ (Nat.succ_pos _))⟩

/-- `Add for CSeq` -/
def add (a b : CSeq) : CSeq :=
  ⟨(a.val + b.val) % (MAX_CSEQ + 1), Nat.le_of_lt_succ (Nat.mod_lt _ (Nat.succ_pos _))⟩

/-- `Sub for CSeq` -/
def sub (a b : CSeq) : CSeq :=
  ⟨if b.val ≤ a.val then a.val - b.val else MAX_CSEQ - (b.val - a.val), by
    have := a.le_max
    split <;> omega⟩

instance : TypedHeader CSeq NumberError where
  headerName := .standard .cSeq
  decode := decodeNumber u32Max tryFrom
  encode c := [.ofNumber c.val]

theorem getAll_typedInsert (m : HeaderMap) (c : CSeq) :
    (m.typedInsert c).getAll (.standard .cSeq) = [.ofNumber c.val] := by
  show ((m.remove (.standard .cSeq)).append (.standard .cSeq) _).getAll _ = _
  rw [HeaderMap.getAll_append, HeaderMap.getAll_remove, List.nil_append]

/-- **A sequence number that was inserted is the one that is got**: it takes the place of
    whatever number there was. -/
theorem typedGet_typedInsert (m : HeaderMap) (c : CSeq) :
    (m.typedInsert c).typedGet CSeq = some c := by
  have hle : c.val ≤ u32Max := Nat.le_trans c.le_max (by decide)
  have hparsed : parseUnsigned u32Max (HeaderValue.ofNumber c.val).text = .ok c.val :=
    parseUnsigned_toDecimal hle
  have hdecoded : (m.typedInsert c).typedTryGet CSeq = .ok (some c) := by
    show decodeNumber u32Max tryFrom ((m.typedInsert c).getAll (.standard .cSeq)) = _
    rw [getAll_typedInsert, decodeNumber, hparsed]
    simp [tryFrom, c.le_max, Except.map]
  rw [HeaderMap.typedGet, hdecoded]

end CSeq

/-! ## Content-Length -/

def MAX_CONTENT_LENGTH : Nat := 9999999999999999999

structure ContentLength where
  val : Nat
  le_max : val ≤ MAX_CONTENT_LENGTH
  deriving DecidableEq

namespace ContentLength

/-- `TryFrom<usize> for ContentLength` -/
def tryFrom (value : Nat) : Except NumberError ContentLength :=
  if h : value ≤ MAX_CONTENT_LENGTH then .ok ⟨value, h⟩ else .error .exceedsMaximumLength

/-- `ContentLength::default` -/
def zero : ContentLength := ⟨0, Nat.zero_le _⟩

instance : TypedHeader ContentLength NumberError where
  headerName := .standard .contentLength
  decode := decodeNumber usizeMax tryFrom
  encode l := [.ofNumber l.val]

end ContentLength
end Rtsp
