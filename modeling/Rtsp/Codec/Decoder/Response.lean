import Rtsp.Codec.Decoder.Common
import Rtsp.Response

/-!
# The response decoder

`codec/decoder/response.rs`: the decoder for responses. Its headers, body and
loop are those of the request decoder; the information line is version, status
code and reason phrase.

Version and status code are cut at fixed places, by index, and the byte behind each has
to be a blank. Only the phrase is searched for its end. The search is not the one for
header values: a line break ends the phrase whatever follows, and a phrase that does not
end in time is told by a count of its own (`Codec.ResponseLimits`).

A phrase that has been read is kept as a custom one until the response is built, and
there it may be replaced. What is checked of it is checked here, also if it is going to
be dropped.
-/

namespace Rtsp

open Syntax Decoder Lib

namespace ResponseDecoder

inductive DecodeError where
  | bodyTooLong
  | headerName (e : HeaderNameError)
  | headerNameTooLong
  | headerValue (e : HeaderValueError)
  | headerValueTooLong
  | invalidContentLength
  | reasonPhrase (e : ReasonPhraseError)
  | reasonPhraseTooLong
  | statusCode (e : StatusCodeError)
  | tooManyHeaders
  | unsupportedVersion
  | version (e : Version.DecodeError)
  deriving DecidableEq

inductive DecodeState (ε : Type) where
  | body
  | «end»
  | error (e : ε)
  | header
  | reasonPhrase
  | statusCode
  | version
  deriving DecidableEq

/-- `response::Config` -/
structure Config extends Limits where
  reasonPhraseMaxLength : Nat
  deriving DecidableEq

/-- `Config::default` -/
def Config.default : Config where
  bodyMaxLength := BODY_DEFAULT_MAX_LENGTH
  headerMaxCount := HEADER_DEFAULT_MAX_COUNT
  headerNameMaxLength := HEADER_NAME_DEFAULT_MAX_LENGTH
  headerValueMaxLength := HEADER_VALUE_DEFAULT_MAX_LENGTH
  reasonPhraseMaxLength := REASON_PHRASE_DEFAULT_MAX_LENGTH

def headerErrors : HeaderErrors DecodeError where
  bodyTooLong := .bodyTooLong
  headerName := .headerName
  headerNameTooLong := .headerNameTooLong
  headerValue := .headerValue
  headerValueTooLong := .headerValueTooLong
  invalidContentLength := .invalidContentLength
  tooManyHeaders := .tooManyHeaders

end ResponseDecoder

/-- `response::Decoder` -/
structure ResponseDecoder where
  builder : ResponseBuilder
  config : ResponseDecoder.Config
  contentLength : ContentLength
  state : ResponseDecoder.DecodeState ResponseDecoder.DecodeError
  deriving DecidableEq

namespace ResponseDecoder

/-- One turn of the response decoder's loop. -/
abbrev Turn := Decoder.Turn ResponseDecoder Response DecodeError

def withConfig (config : Config) : ResponseDecoder where
  builder := .new
  config := config
  contentLength := .zero
  state := .version

/-- `Decoder::new` -/
def new : ResponseDecoder := withConfig .default

def reset (d : ResponseDecoder) : ResponseDecoder :=
  { d with builder := .new, contentLength := .zero, state := .version }

def decodeBody (d : ResponseDecoder) (buffer : Bytes) : Rust Turn :=
  match Decoder.decodeBody d.contentLength buffer with
  | none => .ok .incomplete
  | some body =>
    consume buffer { d with state := .end, builder := { d.builder with body := some body } }
      d.contentLength.val

def decodeHeader (d : ResponseDecoder) (buffer : Bytes) : Rust Turn := do
  match ← Decoder.decodeHeader d.config.toLimits headerErrors d.builder.headers buffer with
  | .header name value n => .ok (.complete { d with builder := d.builder.header name value } n)
  | .ended contentLength => .ok (.complete { d with state := .body, contentLength } 2)
  | .endedWithError e => .ok (.error 2 e)
  | .error e => .ok (.error 0 e)
  | .incomplete => .ok .incomplete

/-- `windows(2).take(n).position(|bytes| bytes == b"\r\n")` -/
def firstLineBreak (buffer : Bytes) (n : Nat) : Option Nat :=
  ((windows2 buffer).take n).findIdx? (· == (CR, LF))

def decodeReasonPhrase (d : ResponseDecoder) (buffer : Bytes) : Rust Turn := do
  let maxLength ← usizeAdd d.config.reasonPhraseMaxLength 2
  match firstLineBreak buffer maxLength with
  | some index =>
    match ReasonPhrase.tryFrom (← slice buffer 0 index) with
    | .error e => .ok (.error 0 (.reasonPhrase e))
    | .ok phrase =>
      consume buffer
        { d with builder := { d.builder with customReasonPhrase := some phrase }, state := .header }
        (index + 2)
  | none =>
    if maxLength ≤ buffer.length then .ok (.error 0 .reasonPhraseTooLong) else .ok .incomplete

def decodeStatusCode (d : ResponseDecoder) (buffer : Bytes) : Rust Turn :=
  if buffer.length < 4 then .ok .incomplete
  else do
    if (← index buffer 3) ≠ SP then .ok (.error 0 (.statusCode .invalid))
    else
      match StatusCode.tryFrom (← slice buffer 0 3) with
      | .error e => .ok (.error 0 (.statusCode e))
      | .ok statusCode =>
        consume buffer { d with builder := { d.builder with statusCode }, state := .reasonPhrase } 4

def decodeVersion (d : ResponseDecoder) (buffer : Bytes) : Rust Turn :=
  if buffer.length < 9 then .ok .incomplete
  else do
    if (← index buffer 8) ≠ SP then .ok (.error 0 (.version .invalid))
    else
      match Version.tryDecode (← slice buffer 0 8) with
      | .error e => .ok (.error 0 (.version e))
      | .ok .rtsp2_0 =>
        consume buffer
          { d with builder := { d.builder with version := .rtsp2_0 }, state := .statusCode } 9
      | .ok _ => .ok (.error 0 .unsupportedVersion)

/-- The `match self.state` of the loop. -/
def turn (d : ResponseDecoder) (buffer : Bytes) : Rust Turn :=
  match d.state with
  | .header => d.decodeHeader buffer
  | .statusCode => d.decodeStatusCode buffer
  | .reasonPhrase => d.decodeReasonPhrase buffer
  | .version => d.decodeVersion buffer
  | .body => d.decodeBody buffer
  | .end => do
    let response ← expect "no response parts should be missing" d.builder.build.toOption
    .ok (.message response { d with builder := .new, state := .version })
  | .error e => .ok (.failed e)

def setError (d : ResponseDecoder) (e : DecodeError) : ResponseDecoder :=
  { d with state := .error e }

/-- `Decoder::decode` -/
def decode (d : ResponseDecoder) (buffer : Bytes) :
    Rust (DecodeResult Response DecodeError × Nat × ResponseDecoder) :=
  decodeLoop turn setError (turns buffer) d buffer 0

end ResponseDecoder
end Rtsp
