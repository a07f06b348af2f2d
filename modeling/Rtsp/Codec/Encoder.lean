import Rtsp.Request
import Rtsp.Response

/-!
# Encoders

`codec/encoder/request.rs` and `codec/encoder/response.rs`. The two differ in
the information line; headers and body are written by the same text in both.

The encoders write into a buffer that they are given. As they only append, they are
modelled by what they append, and `Codec.encode` puts it behind what is there.

A `Content-Length` that a message has among its headers is not written. The encoder
writes its own, if there is a body, in front of all others; so a message does not come
back with its headers in the order they had, and what comes back instead is
`HeaderMap.received` (`Codec.RoundTrip`).
-/

namespace Rtsp

open Syntax

namespace Encoder

/-- `name: value` and the line break. -/
def encodeHeader (name value : Bytes) : Bytes := name ++ ascii ": " ++ value ++ CRLF

/-- The headers but `Content-Length`. -/
def encodeHeaders (headers : HeaderMap) : Bytes :=
  headers.entries.flatMap fun e =>
    if e.1.eqv (.standard .contentLength) then []
    else encodeHeader e.1.canonicalName e.2.text

/-- What follows the information line: a `Content-Length` of the encoder's own for a body
    that is not empty, the other headers, the empty line and the body. -/
def encodeRest (headers : HeaderMap) (body : Bytes) : Bytes :=
  (if 0 < body.length then encodeHeader (ascii "Content-Length") (toDecimal body.length) else [])
    ++ encodeHeaders headers ++ CRLF ++ body

end Encoder

open Encoder

/-- `request::encode` -/
def Request.encode {URI URIError : Type} [RequestURI URI URIError] (request : Request URI) :
    Bytes :=
  request.method.asStr ++ [SP] ++ RequestURI.toBytes request.uri ++ [SP]
    ++ request.version.asEncoded ++ CRLF ++ encodeRest request.headers request.body

/-- `response::encode` -/
def Response.encode (response : Response) : Bytes :=
  response.version.asEncoded ++ [SP] ++ response.statusCode.toBytes ++ [SP]
    ++ response.reasonPhrase.text ++ CRLF ++ encodeRest response.headers response.body

end Rtsp
