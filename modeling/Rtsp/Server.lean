import Rtsp.Connection.Prompt
import Rtsp.Header.Lists
import Rtsp.Uri.Invariant

/-!
# The server's service

`ConnectionService` of `server.rs`, which `Server::run` gives every connection.
Its futures are ready from the start, so it is a service that answers at once. It
has no session, since `run` makes it without one and nothing else sets it.

The rest of the server is about sockets and the runtime, and none of that is here. What
is here is the service from the point of view of the request handler: a function from
requests to responses. It could panic, at the `unwrap`s, and in normalizing the URI;
that the former do not is shown first (`call_eq`).

The service normalizes the URI and answers to the method, and looks at nothing else but
`Accept-Ranges` in a `SETUP`. Its answer to that has an empty list in it, which the
other side cannot read (`Header.Lists`).
-/

namespace Rtsp

/-- What is called of a request URI: `URI::normalize` and `URI::is_asterisk`. -/
structure ServiceURI (URI : Type) where
  normalize : URI → Rust URI
  isAsterisk : URI → Bool

/-- `Result::unwrap` of a response that is built. -/
def Response.unwrap : Except ResponseError Response → Rust Response
  | .ok response => .ok response
  | .error _ => .error (.expect "called `Result::unwrap()` on an `Err` value")

/-- `Builder::with_typed_header` -/
def ResponseBuilder.withTypedHeader {TBody α ε : Type} [TypedHeader α ε]
    (b : ResponseBuilder TBody) (header : α) : ResponseBuilder TBody :=
  { b with headers := b.headers.typedInsert header }

def SUPPORTED_METHODS : List Method := [.standard .options, .standard .setup]

namespace ConnectionService

variable [LinkedHashSetOps] {URI : Type} (uris : ServiceURI URI)

/-- `SUPPORTED_METHODS.iter().cloned().collect::<Public>()` -/
def supported : Public := ⟨SUPPORTED_METHODS.foldl LinkedHashSetOps.insert .empty⟩

def handleMethodOptions (request : Request URI) : Rust Response :=
  if uris.isAsterisk request.uri then
    (ResponseBuilder.new : ResponseBuilder Unit)
      |>.withTypedHeader supported
      |>.withBody ([] : Bytes)
      |>.build
      |> Response.unwrap
  else
    (ResponseBuilder.new : ResponseBuilder Unit)
      |>.withStatusCode (.standard .notFound)
      |>.withBody ([] : Bytes)
      |>.build
      |> Response.unwrap

/-- The server supports no range, whichever ones the client asks for. -/
def handleMethodSetup (request : Request URI) : Rust Response :=
  match request.headers.typedTryGet AcceptRanges with
  | .ok _ =>
    (ResponseBuilder.new : ResponseBuilder Unit)
      |>.withStatusCode (.standard .headerFieldNotValidForResource)
      |>.withTypedHeader AcceptRanges.new
      |>.withBody ([] : Bytes)
      |>.build
      |> Response.unwrap
  | .error _ => .ok BAD_REQUEST_RESPONSE

/-- `Service::call`, with the response that the future is ready with. -/
def call (request : Request URI) : Rust Response := do
  let uri ← uris.normalize request.uri
  let request : Request URI := { request with uri }
  match request.method with
  | .standard .options => handleMethodOptions uris request
  | .standard .setup => handleMethodSetup request
  | _ => .ok NOT_IMPLEMENTED_RESPONSE

/-! ## What is answered -/

/-- A response with these headers. -/
def answerOf (status : StandardStatus) (headers : HeaderMap) : Response :=
  { Response.ofStatus status with headers }

/-- The answer to a request whose URI was normalized. -/
def answered (asterisk : Bool) (request : Request URI) : Response :=
  match request.method with
  | .standard .options =>
    if asterisk then answerOf .ok (HeaderMap.empty.typedInsert supported)
    else answerOf .notFound .empty
  | .standard .setup =>
    match request.headers.typedTryGet AcceptRanges with
    | .ok _ =>
      answerOf .headerFieldNotValidForResource (HeaderMap.empty.typedInsert AcceptRanges.new)
    | .error _ => BAD_REQUEST_RESPONSE
  | _ => NOT_IMPLEMENTED_RESPONSE

variable {uris} {request : Request URI}

/-- **The responses are all built**: only the URI can stop the call. -/
theorem call_eq {uri : URI} (h : uris.normalize request.uri = .ok uri) :
    call uris request = .ok (answered (uris.isAsterisk uri) request) := by
  rw [call, h, ok_bind, answered]
  dsimp only
  split
  · rw [handleMethodOptions]
    split
    · rfl
    · rfl
  · rw [handleMethodSetup]
    dsimp only
    split
    · rfl
    · rfl
  · rfl

/-- Nobody is ever told to wait. -/
theorem answered_final (asterisk : Bool) (request : Request URI) :
    (answered asterisk request).statusCode ≠ .standard .«continue» := by
  unfold answered
  split
  · split
    · exact nofun
    · exact nofun
  · split
    · exact nofun
    · exact nofun
  · exact nofun

/-- The supported methods, in their order. -/
theorem supported_elements (hops : LinkedHashSetOps.Lawful) :
    supported.methods.elements = SUPPORTED_METHODS := by
  have hoptions := hops.insert_new .empty (.standard .options : Method) List.not_mem_nil
  have hsetup : (.standard .setup : Method) ∉
      (LinkedHashSetOps.insert .empty (.standard .options : Method)).elements := by
    rw [hoptions]
    decide
  show (LinkedHashSetOps.insert (LinkedHashSetOps.insert .empty _) _).elements = _
  rw [hops.insert_new _ _ hsetup, hoptions]
  rfl

theorem getAll_typedInsert_supported :
    (HeaderMap.empty.typedInsert supported).getAll (.standard .public) =
      TypedHeader.encode supported := by
  show ((HeaderMap.empty.remove (.standard .public)).append (.standard .public) _).getAll _ = _
  rw [HeaderMap.getAll_append, HeaderMap.getAll_remove, List.nil_append]
  rfl

/-- **A success lists the supported methods**, and the list can be read. -/
theorem answered_public (hops : LinkedHashSetOps.Lawful) {asterisk : Bool}
    (h : (answered asterisk request).statusCode = .standard .ok) :
    (answered asterisk request).headers.typedTryGet Public = .ok (some supported) := by
  have hsome : supported.methods.elements ≠ [] := by
    rw [supported_elements hops]
    exact nofun
  have hread := (Public.decodes_iff hops supported).mpr hsome
  unfold answered at h ⊢
  split at h
  · split at h
    · next hasterisk =>
      rw [if_pos hasterisk, HeaderMap.typedTryGet, ← hread]
      exact congrArg TypedHeader.decode getAll_typedInsert_supported
    · cases h
  · split at h
    · cases h
    · cases h
  · cases h

end ConnectionService

/-! ## The request URIs of the library -/

variable {Authority Path Query E : Type} {ops : Uriparse Authority Path Query E}

namespace URI

theorem exists_normalize_valid (hlaws : ops.Lawful) {uri : URI Authority Path Query}
    (h : uri.Valid ops) :
    ∃ uri', normalize ops uri = .ok uri' ∧ uri'.Valid ops ∧ uri'.isAsterisk = uri.isAsterisk := by
  obtain ⟨_ | components⟩ := uri
  · exact ⟨asterisk, rfl, valid_asterisk, rfl⟩
  · obtain ⟨components', hnormalize, hvalid, -⟩ := exists_normalize hlaws (h _ rfl)
    exact ⟨_, hnormalize, valid_some hvalid, rfl⟩

theorem valid_normalize (hlaws : ops.Lawful) {uri uri' : URI Authority Path Query}
    (h : uri.Valid ops) (hnormalize : normalize ops uri = .ok uri') : uri'.Valid ops := by
  obtain ⟨_, hnormalize', hvalid, -⟩ := exists_normalize_valid hlaws h
  cases hnormalize.symm.trans hnormalize'
  exact hvalid

/-- A valid URI is normalized to a valid one. -/
def service (hlaws : ops.Lawful) :
    ServiceURI { uri : URI Authority Path Query // uri.Valid ops } where
  normalize uri :=
    match h : normalize ops uri.1 with
    | .ok uri' => .ok ⟨uri', valid_normalize hlaws uri.2 h⟩
    | .error panic => .error panic
  isAsterisk uri := uri.1.isAsterisk

/-- **The service answers any request of the library**, and never stops. -/
theorem call_service [LinkedHashSetOps] (hlaws : ops.Lawful)
    (request : Request { uri : URI Authority Path Query // uri.Valid ops }) :
    ConnectionService.call (service hlaws) request =
      .ok (ConnectionService.answered request.uri.1.isAsterisk request) := by
  obtain ⟨uri', hnormalize, hvalid, hasterisk⟩ := exists_normalize_valid hlaws request.uri.2
  have hnormalized : (service hlaws).normalize request.uri = .ok ⟨uri', hvalid⟩ := by
    unfold service
    dsimp only
    split
    · next h =>
      cases h.symm.trans hnormalize
      rfl
    · next h => cases h.symm.trans hnormalize
  rw [← hasterisk]
  exact ConnectionService.call_eq hnormalized

end URI
end Rtsp
