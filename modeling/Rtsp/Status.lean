import Rtsp.Reason

/-!
# Status codes

`status.rs`. A status code is one of the standard ones, with the number and the
reason phrase of the table, or an extension: a number in range that no standard
code has and that is not one of the two the code refuses to build.

The table has the numbers and the phrases of the source, side by side as two functions.
Numbers are natural; an extension carries the proof that its number is in range and not
taken, so that `try_from` is the only way to one.

The two numbers that are turned away are those of the code, 303 and 352. The
documentation of the error names another one, and what is to be made of that is in
`Codec.StatusLine`.
-/

namespace Rtsp

open Syntax

/-- The standard variants of `StatusCode`. -/
inductive StandardStatus where
  | «continue» | ok | movedPermanently | found | notModified | useProxy | badRequest | unauthorized
  | paymentRequired | forbidden | notFound | methodNotAllowed | notAcceptable
  | proxyAuthenticationRequired | requestTimeout | gone | preconditionFailed
  | requestMessageBodyTooLarge | requestURITooLong | unsupportedMediaType
  | parameterNotUnderstood | notEnoughBandwidth | sessionNotFound | methodNotValidInThisState
  | headerFieldNotValidForResource | invalidRange | parameterIsReadOnly
  | aggregateOperationNotAllowed | onlyAggregateOperationAllowed | unsupportedTransport
  | destinationUnreachable | destinationProhibited | dataTransportNotReadyYet
  | notificationReasonUnknown | keyManagementError | connectionAuthorizationRequired
  | connectionCredentialsNotAccepted | failureToEstablishSecureConnection | internalServerError
  | notImplemented | badGateway | serviceUnavailable | gatewayTimeout | rtspVersionNotSupported
  | optionNotSupported | proxyUnavailable
  deriving DecidableEq

namespace StandardStatus

/-- The numbers of the table. -/
def code : StandardStatus → Nat
  | «continue» => 100
  | ok => 200
  | movedPermanently => 301
  | found => 302
  | notModified => 304
  | useProxy => 305
  | badRequest => 400
  | unauthorized => 401
  | paymentRequired => 402
  | forbidden => 403
  | notFound => 404
  | methodNotAllowed => 405
  | notAcceptable => 406
  | proxyAuthenticationRequired => 407
  | requestTimeout => 408
  | gone => 410
  | preconditionFailed => 412
  | requestMessageBodyTooLarge => 413
  | requestURITooLong => 414
  | unsupportedMediaType => 415
  | parameterNotUnderstood => 451
  | notEnoughBandwidth => 453
  | sessionNotFound => 454
  | methodNotValidInThisState => 455
  | headerFieldNotValidForResource => 456
  | invalidRange => 457
  | parameterIsReadOnly => 458
  | aggregateOperationNotAllowed => 459
  | onlyAggregateOperationAllowed => 460
  | unsupportedTransport => 461
  | destinationUnreachable => 462
  | destinationProhibited => 463
  | dataTransportNotReadyYet => 464
  | notificationReasonUnknown => 465
  | keyManagementError => 466
  | connectionAuthorizationRequired => 470
  | connectionCredentialsNotAccepted => 471
  | failureToEstablishSecureConnection => 472
  | internalServerError => 500
  | notImplemented => 501
  | badGateway => 502
  | serviceUnavailable => 503
  | gatewayTimeout => 504
  | rtspVersionNotSupported => 505
  | optionNotSupported => 551
  | proxyUnavailable => 553

/-- The reason phrases of the table. -/
def phrase : StandardStatus → Bytes
  | «continue» => ascii "Continue"
  | ok => ascii "OK"
  | movedPermanently => ascii "Moved Permanently"
  | found => ascii "Found"
  | notModified => ascii "Not Modified"
  | useProxy => ascii "Use Proxy"
  | badRequest => ascii "Bad Request"
  | unauthorized => ascii "Unauthorized"
  | paymentRequired => ascii "Payment Required"
  | forbidden => ascii "Forbidden"
  | notFound => ascii "Not Found"
  | methodNotAllowed => ascii "Method Not Allowed"
  | notAcceptable => ascii "Not Acceptable"
  | proxyAuthenticationRequired => ascii "Proxy Authentication Required"
  | requestTimeout => ascii "Request Timeout"
  | gone => ascii "Gone"
  | preconditionFailed => ascii "Precondition Failed"
  | requestMessageBodyTooLarge => ascii "Request Message Body Too Large"
  | requestURITooLong => ascii "Request-URI Too Long"
  | unsupportedMediaType => ascii "Unsupported Media Type"
  | parameterNotUnderstood => ascii "Parameter Not Understood"
  | notEnoughBandwidth => ascii "Not Enough Bandwidth"
  | sessionNotFound => ascii "Session Not Found"
  | methodNotValidInThisState => ascii "Method Not Valid in This State"
  | headerFieldNotValidForResource => ascii "Header Field Not Valid for Resource"
  | invalidRange => ascii "Invalid Range"
  | parameterIsReadOnly => ascii "Parameter Is Read-Only"
  | aggregateOperationNotAllowed => ascii "Aggregate Operation Not Allowed"
  | onlyAggregateOperationAllowed => ascii "Only Aggregate Operation Allowed"
  | unsupportedTransport => ascii "Unsupported Transport"
  | destinationUnreachable => ascii "Destination Unreachable"
  | destinationProhibited => ascii "Destination Prohibited"
  | dataTransportNotReadyYet => ascii "Data Transport Not Ready Yet"
  | notificationReasonUnknown => ascii "Notification Reason Unknown"
  | keyManagementError => ascii "Key Management Error"
  | connectionAuthorizationRequired => ascii "Connection Authorization Required"
  | connectionCredentialsNotAccepted => ascii "Connection Credentials Not Accepted"
  | failureToEstablishSecureConnection => ascii "Failure to Establish Secure Connection"
  | internalServerError => ascii "Internal Server Error"
  | notImplemented => ascii "Not Implemented"
  | badGateway => ascii "Bad Gateway"
  | serviceUnavailable => ascii "Service Unavailable"
  | gatewayTimeout => ascii "Gateway Timeout"
  | rtspVersionNotSupported => ascii "RTSP Version Not Supported"
  | optionNotSupported => ascii "Option Not Supported"
  | proxyUnavailable => ascii "Proxy Unavailable"

/-- The match on the number in `TryFrom<u16>`. -/
def ofCode : Nat → Option StandardStatus
  | 100 => some «continue»
  | 200 => some ok
  | 301 => some movedPermanently
  | 302 => some found
  | 304 => some notModified
  | 305 => some useProxy
  | 400 => some badRequest
  | 401 => some unauthorized
  | 402 => some paymentRequired
  | 403 => some forbidden
  | 404 => some notFound
  | 405 => some methodNotAllowed
  | 406 => some notAcceptable
  | 407 => some proxyAuthenticationRequired
  | 408 => some requestTimeout
  | 410 => some gone
  | 412 => some preconditionFailed
  | 413 => some requestMessageBodyTooLarge
  | 414 => some requestURITooLong
  | 415 => some unsupportedMediaType
  | 451 => some parameterNotUnderstood
  | 453 => some notEnoughBandwidth
  | 454 => some sessionNotFound
  | 455 => some methodNotValidInThisState
  | 456 => some headerFieldNotValidForResource
  | 457 => some invalidRange
  | 458 => some parameterIsReadOnly
  | 459 => some aggregateOperationNotAllowed
  | 460 => some onlyAggregateOperationAllowed
  | 461 => some unsupportedTransport
  | 462 => some destinationUnreachable
  | 463 => some destinationProhibited
  | 464 => some dataTransportNotReadyYet
  | 465 => some notificationReasonUnknown
  | 466 => some keyManagementError
  | 470 => some connectionAuthorizationRequired
  | 471 => some connectionCredentialsNotAccepted
  | 472 => some failureToEstablishSecureConnection
  | 500 => some internalServerError
  | 501 => some notImplemented
  | 502 => some badGateway
  | 503 => some serviceUnavailable
  | 504 => some gatewayTimeout
  | 505 => some rtspVersionNotSupported
  | 551 => some optionNotSupported
  | 553 => some proxyUnavailable
  | _ => none

theorem ofCode_code (s : StandardStatus) : ofCode s.code = some s := by
  cases s <;> rfl

theorem code_of_ofCode {n : Nat} {s : StandardStatus} (h : ofCode n = some s) : s.code = n := by
  unfold ofCode at h
  split at h <;> cases h <;> rfl

theorem check_phrase (s : StandardStatus) : ReasonPhrase.check s.phrase = .ok () := by
  cases s <;> rfl

end StandardStatus

/-- A number a `StatusCode` can stand for: in range and not removed. -/
def IsStatusCode (value : Nat) : Prop := 100 ≤ value ∧ value < 600 ∧ value ≠ 303 ∧ value ≠ 352

instance (value : Nat) : Decidable (IsStatusCode value) :=
  inferInstanceAs (Decidable (_ ∧ _ ∧ _ ∧ _))

theorem StandardStatus.isStatusCode (s : StandardStatus) : IsStatusCode s.code := by
  cases s <;> decide

structure ExtensionStatusCode where
  value : Nat
  inRange : IsStatusCode value
  notStandard : StandardStatus.ofCode value = none
  deriving DecidableEq

inductive StatusCode where
  | standard (s : StandardStatus)
  | extension (e : ExtensionStatusCode)
  deriving DecidableEq

inductive StatusCodeError where
  | invalid
  | outOfRange
  | removed
  deriving DecidableEq

namespace StatusCode

/-- `StatusCode::canonical_reason` -/
def canonicalReason : StatusCode → Option ReasonPhrase
  | standard s => some ⟨s.phrase, s.check_phrase⟩
  | extension _ => none

/-- `From<StatusCode> for u16` -/
def toU16 : StatusCode → Nat
  | standard s => s.code
  | extension e => e.value

/-- `TryFrom<u16> for StatusCode` -/
def ofU16 (value : Nat) : Except StatusCodeError StatusCode :=
  if hrange : value < 100 ∨ 600 ≤ value then .error .outOfRange
  else if hremoved : value = 303 ∨ value = 352 then .error .removed
  else match h : StandardStatus.ofCode value with
    | some s => .ok (.standard s)
    | none => .ok (.extension ⟨value, by unfold IsStatusCode; omega, h⟩)

/-- `u8::wrapping_sub(b'0')` -/
def wrappingDigit (b : Byte) : Nat := (b - 48).toNat

/-- `TryFrom<&[u8]> for StatusCode`. The bytes are not checked to be digits: each
    counts as its distance from `0` modulo 256. -/
def tryFrom (value : Bytes) : Except StatusCodeError StatusCode :=
  match value with
  | [v₀, v₁, v₂] => ofU16 (wrappingDigit v₀ * 100 + wrappingDigit v₁ * 10 + wrappingDigit v₂)
  | _ => .error .invalid

/-- `Display for StatusCode` -/
def toBytes (s : StatusCode) : Bytes := toDecimal s.toU16

theorem isStatusCode (s : StatusCode) : IsStatusCode s.toU16 := by
  cases s with
  | standard s => exact s.isStatusCode
  | extension e => exact e.inRange

theorem ofU16_toU16 (s : StatusCode) : ofU16 s.toU16 = .ok s := by
  have hs := s.isStatusCode
  unfold IsStatusCode at hs
  rw [ofU16, dif_neg (by omega), dif_neg (by omega)]
  cases s with
  | standard s =>
    split
    · next s' h => rw [toU16, s.ofCode_code] at h; cases h; rfl
    · next h => rw [toU16, s.ofCode_code] at h; cases h
  | extension e =>
    split
    · next s' h => rw [toU16, e.notStandard] at h; cases h
    · rfl

theorem wrappingDigit_digit {d : Nat} (h : d < 10) : wrappingDigit (digit d) = d := by
  have hnat := digit_toNat h
  rw [wrappingDigit, UInt8.toNat_sub_of_le _ _ (UInt8.le_iff_toNat_le.mpr (by simp [hnat])), hnat]
  simp

/-- A status code is printed as three digits, and read back as itself. -/
theorem tryFrom_toBytes (s : StatusCode) :
    (toBytes s).length = 3 ∧ tryFrom (toBytes s) = .ok s := by
  have hs := s.isStatusCode
  unfold IsStatusCode at hs
  have hdigits : toBytes s = [digit (s.toU16 / 10 / 10), digit (s.toU16 / 10 % 10),
      digit (s.toU16 % 10)] := by
    rw [toBytes, toDecimal_of_le (by omega), toDecimal_of_le (by omega),
      toDecimal_of_lt (by omega)]
    rfl
  have hsum : s.toU16 / 10 / 10 * 100 + s.toU16 / 10 % 10 * 10 + s.toU16 % 10 = s.toU16 := by
    omega
  rw [hdigits]
  refine ⟨rfl, ?_⟩
  rw [tryFrom, wrappingDigit_digit (by omega), wrappingDigit_digit (by omega),
    wrappingDigit_digit (by omega), hsum, ofU16_toU16]

end StatusCode
end Rtsp
