import Rtsp.Codec.Decoder.Request
import Rtsp.Codec.Decoder.Response
import Rtsp.Codec.Encoder

/-!
# The codec

`codec/mod.rs`. One codec reads requests and responses from one stream. Between
messages it skips empty lines and looks at the first five bytes to tell which
decoder the next message belongs to; inside a message it goes on with the
decoder that has started.

`feed` is how a framed stream drives it: each chunk is appended to the buffer,
and `decode` is called until it asks for more or fails.

The codec of the source owns no buffer: it is given one and takes bytes off its front,
and the driver appends behind. `decode` is therefore a function of the codec and the
buffer that returns both, with the result; nothing else of the framed stream is needed
to say what it does.

The event channel is kept with what has been sent through it, and with whether the other
half is there. A codec that finds it gone forgets its own half, as the code does, so
that it never sends again.

In `decodeAll` the number of calls is fuel. A message takes at least one byte, so that
as many calls as there are bytes and some more are enough, which is shown once for all
(`decodeAll_returns`); the failure for want of fuel does not occur.
-/

namespace Rtsp

open Syntax Decoder

inductive CodecEvent where
  | decodingEnded
  | decodingStarted
  | encodingEnded
  | encodingStarted
  deriving DecidableEq

inductive Message (URI : Type) where
  | request (r : Request URI)
  | response (r : Response)
  deriving DecidableEq

inductive DecodeError (URIError : Type) where
  | request (e : RequestDecoder.DecodeError URIError)
  | response (e : ResponseDecoder.DecodeError)
  deriving DecidableEq

/-- The errors of the codec and of the stream under it. What an I/O error says is never
    looked at. -/
inductive ProtocolError (URIError : Type) where
  | decodeError (e : DecodeError URIError)
  | decodingTimedOut
  | io
  | unexpectedEOF
  deriving DecidableEq

/-- The sending half of the event channel: whether the other half is still there, and the
    events sent so far. -/
structure EventSender where
  open_ : Bool
  sent : List CodecEvent
  deriving DecidableEq

structure Codec (URI URIError : Type) where
  requestDecoder : RequestDecoder URI URIError
  responseDecoder : ResponseDecoder
  txEvent : Option EventSender
  deriving DecidableEq

def MINIMUM_INFO_LINE_SIZE : Nat := 5

namespace RequestDecoder

/-- `self.request_decoder.state() == RequestDecodeState::Method` -/
def isInitial {URI URIError : Type} (d : RequestDecoder URI URIError) : Bool :=
  match d.state with
  | .method => true
  | _ => false

end RequestDecoder

namespace ResponseDecoder

/-- `self.response_decoder.state() == ResponseDecodeState::Version` -/
def isInitial (d : ResponseDecoder) : Bool :=
  match d.state with
  | .version => true
  | _ => false

end ResponseDecoder

namespace Codec

variable {URI URIError : Type}

/-- `Codec::new` -/
def new : Codec URI URIError := ⟨.new, .new, none⟩

/-- `Codec::with_events` -/
def withEvents (txEvent : EventSender) : Codec URI URIError := ⟨.new, .new, some txEvent⟩

/-- `send_codec_event` -/
def sendCodecEvent (c : Codec URI URIError) (event : CodecEvent) : Codec URI URIError :=
  match c.txEvent with
  | none => c
  | some tx =>
    if tx.open_ then { c with txEvent := some { tx with sent := tx.sent ++ [event] } }
    else { c with txEvent := none }

/-- What a call of `decode` returns, with the codec and the buffer it leaves. -/
abbrev Decoded (URI URIError : Type) :=
  Except (ProtocolError URIError) (Option (Message URI)) × Codec URI URIError × Bytes

/-- `decode_request` -/
def decodeRequest [RequestURI URI URIError] (c : Codec URI URIError) (buffer : Bytes) :
    Rust (Decoded URI URIError) := do
  let (result, bytesDecoded, requestDecoder) ← c.requestDecoder.decode buffer
  let buffer ← sliceFrom buffer bytesDecoded
  let c := { c with requestDecoder }
  match result with
  | .complete request =>
    .ok (.ok (some (.request request)), c.sendCodecEvent .decodingEnded, buffer)
  | .incomplete => .ok (.ok none, c, buffer)
  | .error e => .ok (.error (.decodeError (.request e)), c.sendCodecEvent .decodingEnded, buffer)

/-- `decode_response` -/
def decodeResponse (c : Codec URI URIError) (buffer : Bytes) : Rust (Decoded URI URIError) := do
  let (result, bytesDecoded, responseDecoder) ← c.responseDecoder.decode buffer
  let buffer ← sliceFrom buffer bytesDecoded
  let c := { c with responseDecoder }
  match result with
  | .complete response =>
    .ok (.ok (some (.response response)), c.sendCodecEvent .decodingEnded, buffer)
  | .incomplete => .ok (.ok none, c, buffer)
  | .error e => .ok (.error (.decodeError (.response e)), c.sendCodecEvent .decodingEnded, buffer)

/-- The loop that ignores preceding newlines. -/
def skipNewlines : Bytes → Bytes
  | 13 :: 10 :: rest => skipNewlines rest
  | buffer => buffer

/-- `Codec::decode` -/
def decode [RequestURI URI URIError] (c : Codec URI URIError) (buffer : Bytes) :
    Rust (Decoded URI URIError) :=
  if !c.requestDecoder.isInitial then c.decodeRequest buffer
  else if !c.responseDecoder.isInitial then c.decodeResponse buffer
  else
    let buffer := skipNewlines buffer
    let c := if buffer.isEmpty then c else c.sendCodecEvent .decodingStarted
    if buffer.length < MINIMUM_INFO_LINE_SIZE then .ok (.ok none, c, buffer)
    else if (ascii "RTSP/").isPrefixOf buffer then c.decodeResponse buffer
    else c.decodeRequest buffer

/-- `Codec::decode_eof` -/
def decodeEof [RequestURI URI URIError] (c : Codec URI URIError) (buffer : Bytes) :
    Rust (Decoded URI URIError) := do
  match ← c.decode buffer with
  | (.error e, c, buffer) => .ok (.error e, c, buffer)
  | (.ok (some message), c, buffer) => .ok (.ok (some message), c, buffer)
  | (.ok none, c, buffer) =>
    if buffer.isEmpty then .ok (.ok none, c, buffer) else .ok (.error .unexpectedEOF, c, buffer)

/-- `Codec::encode` -/
def encode [RequestURI URI URIError] (c : Codec URI URIError) (message : Message URI)
    (buffer : Bytes) : Codec URI URIError × Bytes :=
  let c := c.sendCodecEvent .encodingStarted
  let buffer := buffer ++ match message with
    | .request request => request.encode
    | .response response => response.encode
  (c.sendCodecEvent .encodingEnded, buffer)

/-! ## Driving the codec -/

/-- The messages a driver got out of the codec, and how it stopped: with an error, or
    with a codec that asked for more and the bytes it left. -/
abbrev Fed (URI URIError : Type) :=
  List (Message URI) × Except (ProtocolError URIError) (Codec URI URIError × Bytes)

/-- `decode` until it returns `Ok(None)` or an error, with the calls it may still take. -/
def decodeAll [RequestURI URI URIError] :
    Nat → Codec URI URIError → Bytes → Rust (Fed URI URIError)
  | 0, _, _ => .error .diverged
  | calls + 1, c, buffer => do
    match ← c.decode buffer with
    | (.error e, _, _) => .ok ([], .error e)
    | (.ok none, c, buffer) => .ok ([], .ok (c, buffer))
    | (.ok (some message), c, buffer) => do
      let (messages, stop) ← decodeAll calls c buffer
      .ok (message :: messages, stop)

/-- Appending the chunks one by one and decoding all there is after each, up to the first
    error. -/
def feed [RequestURI URI URIError] :
    Codec URI URIError → Bytes → List Bytes → Rust (Fed URI URIError)
  | c, buffer, [] => .ok ([], .ok (c, buffer))
  | c, buffer, chunk :: chunks => do
    match ← decodeAll (turns (buffer ++ chunk)) c (buffer ++ chunk) with
    | (messages, .error e) => .ok (messages, .error e)
    | (messages, .ok (c, buffer)) => do
      let (messages', stop) ← feed c buffer chunks
      .ok (messages ++ messages', stop)

/-- What the driver's caller sees: the messages, and the first error if there was one. -/
def outcome (fed : Fed URI URIError) : List (Message URI) × Option (ProtocolError URIError) :=
  (fed.1, match fed.2 with
    | .ok _ => none
    | .error e => some e)

end Codec
end Rtsp
