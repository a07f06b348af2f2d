import Rtsp.Header.Types
import Rtsp.Lib.Resume
import Rtsp.Lib.Search

/-!
# What the two decoders share

`codec/decoder/mod.rs`, and the parts of `decoder/request.rs` and
`decoder/response.rs` that are the same text in both: reading up to a separator,
header names, header values, headers, the body and the loop of `decode`. Each is
one definition here, with the limits and the error constructors of its decoder
as parameters.

A decoding step looks at the buffer and answers with what it takes off the front
(`Turn`); an incomplete step takes nothing and changes nothing.

To have them once is a liberty. The source has each of these functions twice, with the
constants and the errors of its decoder, and a change to one of them would not change
the other. For the time being they are the same to the letter, and a proof about one is
a proof about both.

The errors of `Turn` say how many bytes the step had taken when it failed. It makes a
difference: the empty line behind the headers is taken off before the length of the body
is looked at, so an error there leaves the stream two bytes further on.

The loop has a number of turns. The code loops until it returns, and that it does is
shown by a measure of states and bytes (`Codec.Run`). The number that it is called with
is computed from the buffer.
-/

namespace Rtsp

open Syntax Lib

/-- `DecodeResult` -/
inductive DecodeResult (α ε : Type) where
  | complete (value : α)
  | error (e : ε)
  | incomplete
  deriving DecidableEq

namespace Decoder

def BODY_DEFAULT_MAX_LENGTH : Nat := 65536
def HEADER_DEFAULT_MAX_COUNT : Nat := 64
def HEADER_NAME_DEFAULT_MAX_LENGTH : Nat := 100
def HEADER_VALUE_DEFAULT_MAX_LENGTH : Nat := 2000
def METHOD_DEFAULT_MAX_LENGTH : Nat := 50
def REASON_PHRASE_DEFAULT_MAX_LENGTH : Nat := 50
def URI_DEFAULT_MAX_LENGTH : Nat := 2000

variable {δ μ α ε : Type}

/-! ## The loop -/

/-- What one turn of the loop in `decode` does. -/
inductive Turn (δ μ ε : Type) where
  /-- The step is done: `n` bytes are taken off and the loop goes on. -/
  | complete (d : δ) (n : Nat)
  /-- The step failed, with `n` bytes taken off already. -/
  | error (n : Nat) (e : ε)
  | incomplete
  /-- The end state: the message is built. -/
  | message (m : μ) (d : δ)
  /-- The error state, left only by a reset. -/
  | failed (e : ε)
  deriving DecidableEq

/-- The loop of `decode`, with the number of turns it may still take and the number of
    bytes taken off so far. Returns the result, the bytes decoded and the decoder. -/
def decodeLoop (turn : δ → Bytes → Rust (Turn δ μ ε)) (setError : δ → ε → δ) :
    Nat → δ → Bytes → Nat → Rust (DecodeResult μ ε × Nat × δ)
  | 0, _, _, _ => .error .diverged
  | turns + 1, d, buffer, decoded => do
    match ← turn d buffer with
    | .complete d n => decodeLoop turn setError turns d (buffer.drop n) (decoded + n)
    | .error n e => .ok (.error e, decoded + n, setError d e)
    | .incomplete => .ok (.incomplete, decoded, d)
    | .message m d => .ok (.complete m, decoded, d)
    | .failed e => .ok (.error e, 0, d)

/-- Turns enough for any loop over this buffer: not every turn takes a byte off, but only
    a few in a row do not. -/
def turns (buffer : Bytes) : Nat := 4 * buffer.length + 7

/-- `*buffer = &buffer[n..]` at the end of a step. -/
def consume (buffer : Bytes) (d : δ) (n : Nat) : Rust (Turn δ μ ε) := do
  let _ ← sliceFrom buffer n
  .ok (.complete d n)

/-! ## Fields that end at a separator -/

/-- The bytes before the first `separator`, which has to come within `maxLength + 1`
    bytes. -/
def readUntil (separator : Byte) (maxLength : Nat) (tooLong : ε) (buffer : Bytes) :
    Rust (DecodeResult Bytes ε) := do
  let maxLength ← usizeAdd maxLength 1
  match (buffer.take maxLength).findIdx? (· == separator) with
  | some index => .ok (.complete (← slice buffer 0 index))
  | none =>
    if maxLength ≤ buffer.length then .ok (.error tooLong) else .ok .incomplete

/-- A step that reads such a field and goes on with it. -/
def readField (separator : Byte) (maxLength : Nat) (tooLong : ε) (buffer : Bytes)
    (next : Bytes → Rust (Turn δ μ ε)) : Rust (Turn δ μ ε) := do
  match ← readUntil separator maxLength tooLong buffer with
  | .complete field => next field
  | .error e => .ok (.error 0 e)
  | .incomplete => .ok .incomplete

/-! ## Headers -/

/-- `trim_header_name` -/
def trimHeaderName (name : Bytes) : Bytes := (name.reverse.dropWhile isSpaceOrTab).reverse

/-- `trim_header_value` -/
def trimHeaderValue (value : Bytes) : Bytes :=
  let hasInitialLinebreak := CRLF.isPrefixOf value
  let start := if hasInitialLinebreak then 2 else 0
  let index := start + ((value.drop start).takeWhile isSpaceOrTab).length
  if hasInitialLinebreak && index == 2 then value else value.drop index

/-- `decode_header_name` -/
def decodeHeaderName (maxLength : Nat) (tooLong : ε) (buffer : Bytes) :
    Rust (DecodeResult (Option Bytes) ε) :=
  if CRLF.isPrefixOf buffer then .ok (.complete none)
  else do
    match ← readUntil 58 maxLength tooLong buffer with
    | .complete name => .ok (.complete (some name))
    | .error e => .ok (.error e)
    | .incomplete => .ok .incomplete

/-- Where the first `n` pairs of neighbours are `CRLF`:
    `windows(2).take(n).enumerate().filter(..).map(..)`. -/
def lineBreaks (buffer : Bytes) (n : Nat) : List Nat :=
  (((windows2 buffer).take n).zipIdx.filter fun w => w.1 == (CR, LF)).map (·.2)

/-- The loop of `decode_header_value` over the line breaks: `none` if it ran through. A
    line break is the end of the value unless a space or a tab follows it, which takes
    one more byte to see. -/
def scanLineBreaks (buffer : Bytes) : List Nat → Rust (Option (DecodeResult Bytes ε))
  | [] => .ok none
  | index :: rest =>
    match buffer[index + 2]? with
    | some byte =>
      if isSpaceOrTab byte then scanLineBreaks buffer rest
      else do .ok (some (.complete (← slice buffer 0 index)))
    | none => .ok (some .incomplete)

/-- `decode_header_value` -/
def decodeHeaderValue (maxLength : Nat) (tooLong : ε) (buffer : Bytes) :
    Rust (DecodeResult Bytes ε) := do
  let maxLength ← usizeAdd maxLength 1
  match ← scanLineBreaks buffer (lineBreaks buffer maxLength) with
  | some result => .ok result
  | none => if maxLength ≤ buffer.length then .ok (.error tooLong) else .ok .incomplete

/-- The limits on headers and bodies, which both decoders' configurations have. -/
structure Limits where
  bodyMaxLength : Nat
  headerMaxCount : Nat
  headerNameMaxLength : Nat
  headerValueMaxLength : Nat
  deriving DecidableEq

/-- The errors of a header, which both decoders have under these names. -/
structure HeaderErrors (ε : Type) where
  bodyTooLong : ε
  headerName : HeaderNameError → ε
  headerNameTooLong : ε
  headerValue : HeaderValueError → ε
  headerValueTooLong : ε
  invalidContentLength : ε
  tooManyHeaders : ε

/-- What `decode_header` found. -/
inductive HeaderLine (ε : Type) where
  /-- A header of `n` bytes. -/
  | header (name : HeaderName) (value : HeaderValue) (n : Nat)
  /-- The empty line, and the length of the body that follows. -/
  | ended (contentLength : ContentLength)
  /-- The empty line, after headers that do not give a length the decoder accepts. -/
  | endedWithError (e : ε)
  | error (e : ε)
  | incomplete
  deriving DecidableEq

/-- The length of the body: that of the `Content-Length` header, zero without one. -/
def bodyLength (limits : Limits) (errors : HeaderErrors ε) (headers : HeaderMap) :
    Except ε ContentLength :=
  match headers.typedTryGet ContentLength with
  | .ok (some contentLength) =>
    if limits.bodyMaxLength < contentLength.val then .error errors.bodyTooLong
    else .ok contentLength
  | .ok none => .ok .zero
  | .error _ => .error errors.invalidContentLength

/-- The rest of `decode_header` once there is a header name: the value and the checks. -/
def decodeHeaderField (limits : Limits) (errors : HeaderErrors ε) (headers : HeaderMap)
    (name buffer : Bytes) : Rust (HeaderLine ε) :=
  if limits.headerMaxCount ≤ headers.valuesLen then .ok (.error errors.tooManyHeaders)
  else do
    let rest ← sliceFrom buffer (name.length + 1)
    match ← decodeHeaderValue limits.headerValueMaxLength errors.headerValueTooLong rest with
    | .incomplete => .ok .incomplete
    | .error e => .ok (.error e)
    | .complete value =>
      match HeaderName.tryFrom (trimHeaderName name) with
      | .error e => .ok (.error (errors.headerName e))
      | .ok headerName =>
        match HeaderValue.tryFrom (trimHeaderValue value) with
        | .error e => .ok (.error (errors.headerValue e))
        | .ok headerValue => do
          let _ ← sliceFrom rest (value.length + 2)
          .ok (.header headerName headerValue (name.length + 1 + (value.length + 2)))

/-- `decode_header` -/
def decodeHeader (limits : Limits) (errors : HeaderErrors ε) (headers : HeaderMap)
    (buffer : Bytes) : Rust (HeaderLine ε) := do
  match ← decodeHeaderName limits.headerNameMaxLength errors.headerNameTooLong buffer with
  | .incomplete => .ok .incomplete
  | .error e => .ok (.error e)
  | .complete (some name) => decodeHeaderField limits errors headers name buffer
  | .complete none => do
    let _ ← sliceFrom buffer 2
    match bodyLength limits errors headers with
    | .ok contentLength => .ok (.ended contentLength)
    | .error e => .ok (.endedWithError e)

/-- `decode_body`: the body, once the buffer holds all of it. -/
def decodeBody (contentLength : ContentLength) (buffer : Bytes) : Option Bytes :=
  if buffer.length < contentLength.val then none else some (buffer.take contentLength.val)

end Decoder
end Rtsp
