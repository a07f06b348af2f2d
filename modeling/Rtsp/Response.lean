import Rtsp.Header.Map
import Rtsp.Status
import Rtsp.Version

/-!
# Responses

`response.rs`: a response and its builder. A response built with a standard
status code has that code's canonical reason phrase, whatever phrase was set;
the phrase that was set is used for extension codes only.

The type of the body is a parameter, because the source's builder changes it on the way;
a response that is sent or received has bytes.

The phrase that was set is kept in the builder to the end, so that setting another
status code later can bring it back or lose it. What becomes of it in a response that is
put together in any of these ways is told in `Codec.StatusLine`.
-/

namespace Rtsp

/-- A response. No constructor and no accessor lets its version be another one. The bodies
    that are sent and received are bytes. -/
@[ext] structure Response (TBody : Type := Bytes) where
  body : TBody
  reasonPhrase : ReasonPhrase
  headers : HeaderMap
  statusCode : StatusCode
  version : Version
  supported : version = .rtsp2_0

instance {TBody : Type} [DecidableEq TBody] : DecidableEq (Response TBody) := fun _ _ =>
  decidable_of_iff' _ Response.ext_iff

inductive ResponseError where
  | missingBody
  | missingReasonPhrase
  | unsupportedVersion
  deriving DecidableEq

/-- `response::Builder` -/
structure ResponseBuilder (TBody : Type := Bytes) where
  body : Option TBody
  customReasonPhrase : Option ReasonPhrase
  headers : HeaderMap
  statusCode : StatusCode
  version : Version
  deriving DecidableEq

namespace ResponseBuilder

variable {TBody : Type}

def new : ResponseBuilder TBody where
  body := none
  customReasonPhrase := none
  headers := .empty
  statusCode := .standard .ok
  version := .rtsp2_0

def header (b : ResponseBuilder TBody) (name : HeaderName) (value : HeaderValue) :
    ResponseBuilder TBody :=
  { b with headers := b.headers.append name value }

/-- A body may be of another type than the one before. -/
def withBody {TNewBody : Type} (b : ResponseBuilder TBody) (body : TNewBody) :
    ResponseBuilder TNewBody where
  body := some body
  customReasonPhrase := b.customReasonPhrase
  headers := b.headers
  statusCode := b.statusCode
  version := b.version

def withReasonPhrase (b : ResponseBuilder TBody) (reasonPhrase : Option ReasonPhrase) :
    ResponseBuilder TBody :=
  { b with customReasonPhrase := reasonPhrase }

def withStatusCode (b : ResponseBuilder TBody) (statusCode : StatusCode) : ResponseBuilder TBody :=
  { b with statusCode }

def withVersion (b : ResponseBuilder TBody) (version : Version) : ResponseBuilder TBody :=
  { b with version }

/-- The reason phrase of the response: the canonical one, or for an extension the
    custom one, if it was set. -/
def reasonPhrase (b : ResponseBuilder TBody) : Option ReasonPhrase :=
  match b.statusCode with
  | .extension _ => b.customReasonPhrase
  | .standard s => (StatusCode.standard s).canonicalReason

def build (b : ResponseBuilder TBody) : Except ResponseError (Response TBody) :=
  match b.reasonPhrase, b.body with
  | none, _ => .error .missingReasonPhrase
  | some _, none => .error .missingBody
  | some reasonPhrase, some body =>
    if h : b.version = .rtsp2_0 then
      .ok { body, reasonPhrase, headers := b.headers, statusCode := b.statusCode,
            version := b.version, supported := h }
    else .error .unsupportedVersion

end ResponseBuilder

/-! ## Taking a response apart -/

namespace Response

variable {TBody : Type}

/-- `Response::from_parts` -/
def fromParts (version : Version) (statusCode : StatusCode) (reasonPhrase : ReasonPhrase)
    (headers : HeaderMap) (body : TBody) : Except ResponseError (Response TBody) :=
  let builder := (ResponseBuilder.new : ResponseBuilder Unit)
    |>.withVersion version
    |>.withStatusCode statusCode
    |>.withReasonPhrase (some reasonPhrase)
    |>.withBody body
  { builder with headers }.build

/-- `Response::into_builder` -/
def intoBuilder (r : Response TBody) : ResponseBuilder TBody where
  body := some r.body
  customReasonPhrase := some r.reasonPhrase
  headers := r.headers
  statusCode := r.statusCode
  version := r.version

/-- `Response::into_parts` -/
def intoParts (r : Response TBody) : Version × StatusCode × ReasonPhrase × HeaderMap × TBody :=
  (r.version, r.statusCode, r.reasonPhrase, r.headers, r.body)

end Response

/-- A phrase that a response with this status code is built with: any for an extension, the
    canonical one otherwise. -/
def StatusCode.Takes (code : StatusCode) (phrase : ReasonPhrase) : Prop :=
  ∀ canonical, code.canonicalReason = some canonical → phrase = canonical

namespace ResponseBuilder

variable {TBody : Type} {b : ResponseBuilder TBody} {phrase : ReasonPhrase}

/-- The phrase that was set is the phrase of the response if its status code takes it. -/
theorem reasonPhrase_eq_iff (hphrase : b.customReasonPhrase = some phrase) :
    b.reasonPhrase = some phrase ↔ b.statusCode.Takes phrase := by
  unfold reasonPhrase
  cases hcode : b.statusCode with
  | extension e => exact ⟨fun _ => nofun, fun _ => hphrase⟩
  | standard s =>
    constructor
    · intro h canonical hcanonical
      exact Option.some.inj (h.symm.trans hcanonical)
    · intro h
      rw [h _ rfl]
      rfl

/-- **What was set is built** if the builder is whole and the status code takes the phrase. -/
theorem build_keeps_iff (hphrase : b.customReasonPhrase = some phrase) :
    (∃ r, b.build = .ok r ∧ r.reasonPhrase = phrase) ↔
      b.body.isSome = true ∧ b.version = .rtsp2_0 ∧ b.statusCode.Takes phrase := by
  rw [← reasonPhrase_eq_iff hphrase]
  unfold build
  constructor
  · rintro ⟨r, hbuild, hr⟩
    split at hbuild
    · cases hbuild
    · cases hbuild
    · next reasonPhrase body hreason hbody =>
      split at hbuild
      · next hversion =>
        cases hbuild
        exact ⟨by rw [hbody]; rfl, hversion, hr ▸ hreason⟩
      · cases hbuild
  · rintro ⟨hbody, hversion, hreason⟩
    obtain ⟨body, hbody⟩ := Option.isSome_iff_exists.mp hbody
    rw [hreason, hbody]
    exact ⟨_, dif_pos hversion, rfl⟩

end ResponseBuilder

namespace Response

variable {TBody : Type}

theorem ext_of_fields {r r' : Response TBody} (hbody : r.body = r'.body)
    (hphrase : r.reasonPhrase = r'.reasonPhrase) (hheaders : r.headers = r'.headers)
    (hcode : r.statusCode = r'.statusCode) : r = r' := by
  obtain ⟨body, phrase, headers, code, version, rfl⟩ := r
  obtain ⟨body', phrase', headers', code', version', rfl⟩ := r'
  cases hbody
  cases hphrase
  cases hheaders
  cases hcode
  rfl

/-- **A response comes back from its builder** if its status code takes its phrase. -/
theorem intoBuilder_build_iff (r : Response TBody) :
    r.intoBuilder.build = .ok r ↔ r.statusCode.Takes r.reasonPhrase := by
  have hkeeps := ResponseBuilder.build_keeps_iff (b := r.intoBuilder) rfl
  constructor
  · intro h
    exact (hkeeps.mp ⟨r, h, rfl⟩).2.2
  · intro h
    obtain ⟨r', hbuild, hphrase⟩ := hkeeps.mpr ⟨rfl, r.supported, h⟩
    rw [hbuild]
    unfold ResponseBuilder.build at hbuild
    split at hbuild
    · cases hbuild
    · cases hbuild
    · next reasonPhrase body _ hbody =>
      split at hbuild
      · cases hbuild
        cases hbody
        exact congrArg _ (ext_of_fields rfl hphrase rfl rfl)
      · cases hbuild

end Response

/-! ## The library's own responses -/

/-- A standard status code, no headers and no body. -/
def Response.ofStatus (s : StandardStatus) : Response where
  body := []
  reasonPhrase := ⟨s.phrase, s.check_phrase⟩
  headers := .empty
  statusCode := .standard s
  version := .rtsp2_0
  supported := rfl

def BAD_REQUEST_RESPONSE : Response := .ofStatus .badRequest
def CONTINUE_RESPONSE : Response := .ofStatus .«continue»
def INTERNAL_SERVER_ERROR_RESPONSE : Response := .ofStatus .internalServerError
def NOT_IMPLEMENTED_RESPONSE : Response := .ofStatus .notImplemented
def REQUEST_MESSAGE_BODY_TOO_LARGE_RESPONSE : Response := .ofStatus .requestMessageBodyTooLarge
def REQUEST_URI_TOO_LONG_RESPONSE : Response := .ofStatus .requestURITooLong
def FORBIDDEN_RESPONSE : Response := .ofStatus .forbidden
def VERSION_NOT_SUPPORTED_RESPONSE : Response := .ofStatus .rtspVersionNotSupported

/-- The builder calls behind these responses succeed. -/
theorem Response.build_ofStatus (s : StandardStatus) :
    ResponseBuilder.build
        { (ResponseBuilder.new : ResponseBuilder) with
          statusCode := .standard s, body := some [] } =
      .ok (.ofStatus s) := rfl

end Rtsp
