import Rtsp.Syntax

/-!
# Header names

`header/name.rs`. A header name is one of the standard ones or an extension,
which keeps the spelling it was built from. Two names are the same header when
they agree in lower case; printing uses the canonical spelling.

Two names can be equal and yet differ: an extension keeps its own spelling, and equality
is in lower case. `eqv` is the equality of the source. The derived one of Lean is finer
and is used where a spelling has to come back.

The standard names are an enumeration of their own, which in the source is one with the
extension. It is split off here so that statements about all standard names can be
decided by cases. The order of the constructors is that of the source, where the derived
hash depends on it.
-/

namespace Rtsp

open Syntax

/-- The standard variants of `HeaderName`. -/
inductive StandardHeader where
  | accept | acceptCredentials | acceptEncoding | acceptLanguage | acceptRanges | allow
  | authenticationInfo | authorization | bandwidth | blocksize | cacheControl | connection
  | connectionCredentials | contentBase | contentEncoding | contentLanguage | contentLength
  | contentLocation | contentType | cSeq | date | expires | «from» | ifMatch | ifModifiedSince
  | ifNoneMatch | lastModified | location | mediaProperties | mediaRange | mTag | notifyReason
  | pipelinedRequests | proxyAuthenticate | proxyAuthenticationInfo | proxyAuthorization
  | proxyRequire | proxySupported | «public» | range | referrer | requestStatus | require
  | retryAfter | rtpInfo | scale | seekStyle | server | session | speed | supported
  | terminateReason | timestamp | transport | unsupported | userAgent | via | wwwAuthenticate
  deriving DecidableEq

namespace StandardHeader

/-- `HeaderName::as_str` -/
def asStr : StandardHeader → Bytes
  | accept => ascii "accept"
  | acceptCredentials => ascii "accept-credentials"
  | acceptEncoding => ascii "accept-encoding"
  | acceptLanguage => ascii "accept-language"
  | acceptRanges => ascii "accept-ranges"
  | allow => ascii "allow"
  | authenticationInfo => ascii "authentication-info"
  | authorization => ascii "authorization"
  | bandwidth => ascii "bandwidth"
  | blocksize => ascii "blocksize"
  | cacheControl => ascii "cache-control"
  | connection => ascii "connection"
  | connectionCredentials => ascii "connection-credentials"
  | contentBase => ascii "content-base"
  | contentEncoding => ascii "content-encoding"
  | contentLanguage => ascii "content-language"
  | contentLength => ascii "content-length"
  | contentLocation => ascii "content-location"
  | contentType => ascii "content-type"
  | cSeq => ascii "cseq"
  | date => ascii "date"
  | expires => ascii "expires"
  | «from» => ascii "from"
  | ifMatch => ascii "if-match"
  | ifModifiedSince => ascii "if-modified-since"
  | ifNoneMatch => ascii "if-none-match"
  | lastModified => ascii "last-modified"
  | location => ascii "location"
  | mediaProperties => ascii "media-properties"
  | mediaRange => ascii "media-range"
  | mTag => ascii "mtag"
  | notifyReason => ascii "notify-reason"
  | pipelinedRequests => ascii "pipelined-requests"
  | proxyAuthenticate => ascii "proxy-authenticate"
  | proxyAuthenticationInfo => ascii "proxy-authentication-info"
  | proxyAuthorization => ascii "proxy-authorization"
  | proxyRequire => ascii "proxy-require"
  | proxySupported => ascii "proxy-supported"
  | «public» => ascii "public"
  | range => ascii "range"
  | referrer => ascii "referrer"
  | requestStatus => ascii "request-status"
  | require => ascii "require"
  | retryAfter => ascii "retry-after"
  | rtpInfo => ascii "rtp-info"
  | scale => ascii "scale"
  | seekStyle => ascii "seek-style"
  | server => ascii "server"
  | session => ascii "session"
  | speed => ascii "speed"
  | supported => ascii "supported"
  | terminateReason => ascii "terminate-reason"
  | timestamp => ascii "timestamp"
  | transport => ascii "transport"
  | unsupported => ascii "unsupported"
  | userAgent => ascii "user-agent"
  | via => ascii "via"
  | wwwAuthenticate => ascii "www-authenticate"

/-- `HeaderName::canonical_name` -/
def canonicalName : StandardHeader → Bytes
  | accept => ascii "Accept"
  | acceptCredentials => ascii "Accept-Credentials"
  | acceptEncoding => ascii "Accept-Encoding"
  | acceptLanguage => ascii "Accept-Language"
  | acceptRanges => ascii "Accept-Ranges"
  | allow => ascii "Allow"
  | authenticationInfo => ascii "Authentication-Info"
  | authorization => ascii "Authorization"
  | bandwidth => ascii "Bandwidth"
  | blocksize => ascii "Blocksize"
  | cacheControl => ascii "Cache-Control"
  | connection => ascii "Connection"
  | connectionCredentials => ascii "Connection-Credentials"
  | contentBase => ascii "Content-Base"
  | contentEncoding => ascii "Content-Encoding"
  | contentLanguage => ascii "Content-Language"
  | contentLength => ascii "Content-Length"
  | contentLocation => ascii "Content-Location"
  | contentType => ascii "Content-Type"
  | cSeq => ascii "CSeq"
  | date => ascii "Date"
  | expires => ascii "Expires"
  | «from» => ascii "From"
  | ifMatch => ascii "If-Match"
  | ifModifiedSince => ascii "If-Modified-Since"
  | ifNoneMatch => ascii "If-None-Match"
  | lastModified => ascii "Last-Modified"
  | location => ascii "Location"
  | mediaProperties => ascii "Media-Properties"
  | mediaRange => ascii "Media-Range"
  | mTag => ascii "MTag"
  | notifyReason => ascii "Notify-Reason"
  | pipelinedRequests => ascii "Pipelined-Requests"
  | proxyAuthenticate => ascii "Proxy-Authenticate"
  | proxyAuthenticationInfo => ascii "Proxy-Authentication-Info"
  | proxyAuthorization => ascii "Proxy-Authorization"
  | proxyRequire => ascii "Proxy-Require"
  | proxySupported => ascii "Proxy-Supported"
  | «public» => ascii "Public"
  | range => ascii "Range"
  | referrer => ascii "Referrer"
  | requestStatus => ascii "Request-Status"
  | require => ascii "Require"
  | retryAfter => ascii "Retry-After"
  | rtpInfo => ascii "RTP-Info"
  | scale => ascii "Scale"
  | seekStyle => ascii "Seek-Style"
  | server => ascii "Server"
  | session => ascii "Session"
  | speed => ascii "Speed"
  | supported => ascii "Supported"
  | terminateReason => ascii "Terminate-Reason"
  | timestamp => ascii "Timestamp"
  | transport => ascii "Transport"
  | unsupported => ascii "Unsupported"
  | userAgent => ascii "User-Agent"
  | via => ascii "Via"
  | wwwAuthenticate => ascii "WWW-Authenticate"

/-- The names `HeaderName::try_from` compares with, by the length of the value. -/
def ofLength : Nat → List StandardHeader
  | 3 => [via]
  | 4 => [cSeq, date, «from», mTag]
  | 5 => [allow, range, scale, speed]
  | 6 => [accept, «public», server]
  | 7 => [expires, require, session]
  | 8 => [ifMatch, location, referrer, rtpInfo]
  | 9 => [bandwidth, blocksize, supported, timestamp, transport]
  | 10 => [connection, seekStyle, userAgent]
  | 11 => [mediaRange, retryAfter, unsupported]
  | 12 => [contentBase, contentType]
  | 13 => [acceptRanges, authorization, cacheControl, ifNoneMatch, lastModified, notifyReason,
      proxyRequire]
  | 14 => [contentLength, requestStatus]
  | 15 => [acceptEncoding, acceptLanguage, proxySupported]
  | 16 => [contentEncoding, contentLanguage, contentLocation, mediaProperties, terminateReason,
      wwwAuthenticate]
  | 17 => [ifModifiedSince]
  | 18 => [acceptCredentials, pipelinedRequests, proxyAuthenticate]
  | 19 => [authenticationInfo, proxyAuthorization]
  | 22 => [connectionCredentials]
  | 25 => [proxyAuthenticationInfo]
  | _ => []

/-- The `check_header_name!`s of `HeaderName::try_from`, in order. -/
def check (value : Bytes) : Option StandardHeader :=
  (ofLength value.length).find? fun h => matchesName toAsciiLowercase value h.asStr

theorem check_canonicalName (h : StandardHeader) : check h.canonicalName = some h := by
  cases h <;> rfl

theorem isToken_canonicalName (h : StandardHeader) : isToken h.canonicalName = true := by
  cases h <;> rfl

end StandardHeader

/-- The name of a header that is not standard, as it was spelled. -/
structure ExtensionHeaderName where
  name : Bytes
  token : isToken name = true
  notStandard : StandardHeader.check name = none
  deriving DecidableEq

inductive HeaderName where
  | standard (h : StandardHeader)
  | extension (e : ExtensionHeaderName)
  deriving DecidableEq

inductive HeaderNameError where
  | empty
  | invalidCharacter
  deriving DecidableEq

namespace HeaderName

/-- `HeaderName::as_str`; for an extension, its second string. -/
def asStr : HeaderName → Bytes
  | standard h => h.asStr
  | extension e => e.name.map toAsciiLowercase

def canonicalName : HeaderName → Bytes
  | standard h => h.canonicalName
  | extension e => e.name

/-- `PartialEq for HeaderName`: the derived one, with that of `ExtensionHeaderName`. -/
def eqv : HeaderName → HeaderName → Bool
  | standard h, standard h' => h == h'
  | extension e, extension e' => e.name.map toAsciiLowercase == e'.name.map toAsciiLowercase
  | _, _ => false

/-- `HeaderName::extension`, reached when no standard name matched. -/
def ofExtension (value : Bytes) (hstd : StandardHeader.check value = none) :
    Except HeaderNameError HeaderName :=
  if value.isEmpty then .error .empty
  else if htok : isToken value = true then .ok (.extension ⟨value, htok, hstd⟩)
  else .error .invalidCharacter

/-- `HeaderName::try_from` -/
def tryFrom (value : Bytes) : Except HeaderNameError HeaderName :=
  match h : StandardHeader.check value with
  | some s => .ok (.standard s)
  | none => ofExtension value h

@[simp] theorem eqv_refl (n : HeaderName) : n.eqv n = true := by
  cases n <;> simp [eqv]

theorem eqv_comm (n m : HeaderName) : n.eqv m = m.eqv n := by
  cases n <;> cases m <;> simp [eqv, Bool.beq_comm]

/-- A standard name is equal to no other name. -/
theorem eqv_standard {n : HeaderName} {h : StandardHeader} :
    n.eqv (standard h) = true ↔ n = standard h := by
  cases n <;> simp [eqv]

theorem isToken_canonicalName (n : HeaderName) : isToken n.canonicalName = true := by
  cases n with
  | standard h => exact h.isToken_canonicalName
  | extension e => exact e.token

/-- Every header name is read back as it is written. -/
theorem tryFrom_canonicalName (n : HeaderName) : tryFrom n.canonicalName = .ok n := by
  cases n with
  | standard h =>
    unfold tryFrom
    split
    · next h' heq => rw [canonicalName, h.check_canonicalName] at heq; cases heq; rfl
    · next heq => rw [canonicalName, h.check_canonicalName] at heq; cases heq
  | extension e =>
    unfold tryFrom
    split
    · next h heq => rw [canonicalName, e.notStandard] at heq; cases heq
    · simp [ofExtension, canonicalName, isToken_ne_nil e.token, e.token]

/-- The canonical spelling of a name is as long as any other. -/
theorem length_of_tryFrom {value : Bytes} {n : HeaderName} (h : tryFrom value = .ok n) :
    n.canonicalName.length = value.length := by
  unfold tryFrom at h
  split at h
  · next s hcheck =>
    cases h
    -- Both spellings match the name, so they are as long as it is.
    have hvalue := List.find?_some hcheck
    have hcanonical := List.find?_some s.check_canonicalName
    rw [canonicalName, ← List.length_map toAsciiLowercase, matchesName_iff.mp hcanonical,
      ← matchesName_iff.mp hvalue, List.length_map]
  · next hcheck =>
    unfold ofExtension at h
    split at h
    · cases h
    · split at h
      · cases h
        rfl
      · cases h

end HeaderName
end Rtsp
