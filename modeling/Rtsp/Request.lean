import Rtsp.Header.Map
import Rtsp.Method
import Rtsp.Version

/-!
# Requests

`request.rs`: a request and the builder the decoder fills step by step. The body
is a byte string throughout. Request URIs are parsed and printed by code that
rests on a URI library outside the repository, so their type is a parameter
(`RequestURI`).

The class has the three things that the protocol does with a URI: it reads one, it
prints one, and it asks for the scheme `rtspu`. `AsteriskURI` is the smallest type that
has them, and runs on fixed inputs use it. What is asked of the class is a law of its
own, stated where it is needed (`RequestURI.Lawful`).

The builder has a version, which can be set, and fails on any but one. A request carries
that as a field, so that whoever is given a request need not ask.
-/

namespace Rtsp

/-- What the protocol uses of a request URI. -/
class RequestURI (URI : Type) (URIError : outParam Type) where
  /-- `URI::try_from` -/
  tryFrom : Bytes → Except URIError URI
  /-- `Display for URI` -/
  toBytes : URI → Bytes
  /-- `uri.scheme() == Some(Scheme::RTSPU)` -/
  isRtspu : URI → Bool

/-- The request URIs that need no parser: the asterisk alone. -/
inductive AsteriskURI where
  | asterisk
  deriving DecidableEq

/-- Any other text is refused. -/
instance : RequestURI AsteriskURI Unit where
  tryFrom text := if text = ascii "*" then .ok .asterisk else .error ()
  toBytes _ := ascii "*"
  isRtspu _ := false

variable {URI : Type}

/-- A request. No constructor and no accessor lets its version be another one. -/
structure Request (URI : Type) where
  body : Bytes
  headers : HeaderMap
  method : Method
  uri : URI
  version : Version
  supported : version = .rtsp2_0
  deriving DecidableEq

inductive RequestError where
  | missingBody
  | missingMethod
  | missingURI
  | unsupportedVersion
  deriving DecidableEq

/-- `request::Builder` -/
structure RequestBuilder (URI : Type) where
  body : Option Bytes
  headers : HeaderMap
  method : Option Method
  uri : Option URI
  version : Version
  deriving DecidableEq

namespace RequestBuilder

def new : RequestBuilder URI where
  body := none
  headers := .empty
  method := none
  uri := none
  version := .rtsp2_0

def header (b : RequestBuilder URI) (name : HeaderName) (value : HeaderValue) :
    RequestBuilder URI :=
  { b with headers := b.headers.append name value }

def build (b : RequestBuilder URI) : Except RequestError (Request URI) :=
  match b.method, b.uri, b.body with
  | none, _, _ => .error .missingMethod
  | some _, none, _ => .error .missingURI
  | some _, some _, none => .error .missingBody
  | some method, some uri, some body =>
    if h : b.version = .rtsp2_0 then
      .ok { body, headers := b.headers, method, uri, version := b.version, supported := h }
    else .error .unsupportedVersion

end RequestBuilder
end Rtsp
