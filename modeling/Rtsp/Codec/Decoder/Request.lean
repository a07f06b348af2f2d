import Rtsp.Codec.Decoder.Common
import Rtsp.Request

/-!
# The request decoder

`codec/decoder/request.rs`: a decoder that keeps a partial request in its builder
and goes through method, URI, version, headers and body, one turn of the loop
for each step.

Slices and sums are those of `Rust`: they fail as the code panics, where an index is out
of range or a limit is as large as a `usize` can be. That an index is in range is a
theorem and not a matter of the definition.

The length of the body is kept in a field of its own, next to the builder, as in the
code. It is set where the headers end and looked at in the body state only; what it
holds before that is left over from the message before.

In the error state the decoder returns the same error again, with nothing taken, until
it is reset. The codec never resets it.
-/

namespace Rtsp

open Syntax Decoder

namespace RequestDecoder

inductive DecodeError (URIError : Type) where
  | bodyTooLong
  | headerName (e : HeaderNameError)
  | headerNameTooLong
  | headerValue (e : HeaderValueError)
  | headerValueTooLong
  | invalidContentLength
  | method (e : MethodError)
  | methodTooLong
  | tooManyHeaders
  | unsupportedVersion
  | uri (e : URIError)
  | uriTooLong
  | version (e : Version.DecodeError)
  deriving DecidableEq

inductive DecodeState (ε : Type) where
  | body
  | «end»
  | error (e : ε)
  | header
  | method
  | uri
  | version
  deriving DecidableEq

/-- `request::Config` -/
structure Config extends Limits where
  methodMaxLength : Nat
  uriMaxLength : Nat
  deriving DecidableEq

/-- `Config::default` -/
def Config.default : Config where
  bodyMaxLength := BODY_DEFAULT_MAX_LENGTH
  headerMaxCount := HEADER_DEFAULT_MAX_COUNT
  headerNameMaxLength := HEADER_NAME_DEFAULT_MAX_LENGTH
  headerValueMaxLength := HEADER_VALUE_DEFAULT_MAX_LENGTH
  methodMaxLength := METHOD_DEFAULT_MAX_LENGTH
  uriMaxLength := URI_DEFAULT_MAX_LENGTH

def headerErrors {URIError : Type} : HeaderErrors (DecodeError URIError) where
  bodyTooLong := .bodyTooLong
  headerName := .headerName
  headerNameTooLong := .headerNameTooLong
  headerValue := .headerValue
  headerValueTooLong := .headerValueTooLong
  invalidContentLength := .invalidContentLength
  tooManyHeaders := .tooManyHeaders

end RequestDecoder

/-- `request::Decoder` -/
structure RequestDecoder (URI URIError : Type) where
  builder : RequestBuilder URI
  config : RequestDecoder.Config
  contentLength : ContentLength
  state : RequestDecoder.DecodeState (RequestDecoder.DecodeError URIError)
  deriving DecidableEq

namespace RequestDecoder

variable {URI URIError : Type}

/-- One turn of the request decoder's loop. -/
abbrev Turn (URI URIError : Type) :=
  Decoder.Turn (RequestDecoder URI URIError) (Request URI) (DecodeError URIError)

def withConfig (config : Config) : RequestDecoder URI URIError where
  builder := .new
  config := config
  contentLength := .zero
  state := .method

/-- `Decoder::new` -/
def new : RequestDecoder URI URIError := withConfig .default

def reset (d : RequestDecoder URI URIError) : RequestDecoder URI URIError :=
  { d with builder := .new, contentLength := .zero, state := .method }

def decodeBody (d : RequestDecoder URI URIError) (buffer : Bytes) : Rust (Turn URI URIError) :=
  match Decoder.decodeBody d.contentLength buffer with
  | none => .ok .incomplete
  | some body =>
    consume buffer { d with state := .end, builder := { d.builder with body := some body } }
      d.contentLength.val

def decodeHeader (d : RequestDecoder URI URIError) (buffer : Bytes) : Rust (Turn URI URIError) := do
  match ← Decoder.decodeHeader d.config.toLimits headerErrors d.builder.headers buffer with
  | .header name value n => .ok (.complete { d with builder := d.builder.header name value } n)
  | .ended contentLength => .ok (.complete { d with state := .body, contentLength } 2)
  | .endedWithError e => .ok (.error 2 e)
  | .error e => .ok (.error 0 e)
  | .incomplete => .ok .incomplete

def decodeMethod (d : RequestDecoder URI URIError) (buffer : Bytes) : Rust (Turn URI URIError) :=
  readField SP d.config.methodMaxLength .methodTooLong buffer fun name =>
    match Method.tryFrom name with
    | .ok method =>
      consume buffer { d with builder := { d.builder with method := some method }, state := .uri }
        (name.length + 1)
    | .error e => .ok (.error 0 (.method e))

def decodeURI [RequestURI URI URIError] (d : RequestDecoder URI URIError) (buffer : Bytes) :
    Rust (Turn URI URIError) :=
  readField SP d.config.uriMaxLength .uriTooLong buffer fun text =>
    match RequestURI.tryFrom text with
    | .ok uri =>
      consume buffer { d with builder := { d.builder with uri := some uri }, state := .version }
        (text.length + 1)
    | .error e => .ok (.error 0 (.uri e))

def decodeVersion (d : RequestDecoder URI URIError) (buffer : Bytes) :
    Rust (Turn URI URIError) :=
  if buffer.length < 10 then .ok .incomplete
  else do
    if (← slice buffer 8 10) ≠ CRLF then .ok (.error 0 (.version .invalid))
    else
      match Version.tryDecode (← slice buffer 0 8) with
      | .error e => .ok (.error 0 (.version e))
      | .ok .rtsp2_0 =>
        consume buffer
          { d with builder := { d.builder with version := .rtsp2_0 }, state := .header } 10
      | .ok _ => .ok (.error 0 .unsupportedVersion)

/-- The `match self.state` of the loop. -/
def turn [RequestURI URI URIError] (d : RequestDecoder URI URIError) (buffer : Bytes) :
    Rust (Turn URI URIError) :=
  match d.state with
  | .header => d.decodeHeader buffer
  | .method => d.decodeMethod buffer
  | .uri => d.decodeURI buffer
  | .version => d.decodeVersion buffer
  | .body => d.decodeBody buffer
  | .end => do
    let request ← expect "no request parts should be missing" d.builder.build.toOption
    .ok (.message request { d with builder := .new, state := .method })
  | .error e => .ok (.failed e)

def setError (d : RequestDecoder URI URIError) (e : DecodeError URIError) :
    RequestDecoder URI URIError :=
  { d with state := .error e }

/-- `Decoder::decode` -/
def decode [RequestURI URI URIError] (d : RequestDecoder URI URIError) (buffer : Bytes) :
    Rust (DecodeResult (Request URI) (DecodeError URIError) × Nat × RequestDecoder URI URIError) :=
  decodeLoop turn setError (turns buffer) d buffer 0

end RequestDecoder
end Rtsp
