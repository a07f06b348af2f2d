import Rtsp.Codec.Stream

/-!
# What the request limits bound

A request decoder works on a buffer that grows between its calls. At every stage
the bytes it has taken since the last message are the parts of a request, as
they were spelled (`Parts`), and each part was checked against its limit when it
was read (`Reads`). So a request that comes out has parts within the limits; and
what is left in the buffer when the decoder asks for more is shorter than the
longest thing it may be waiting for (`decode_within`).

The limits are on what is read, so what they bound has to be said of the bytes. `Parts`
are the bytes of a message cut where the decoder cuts them, with no separator among
them; put together again they are what has been taken off the buffer. A message alone
would not do: a folded value is longer in the stream than in the map.

The run has a buffer that grows by chunks of any size at any time, and calls of `decode`
in between. Nothing is asked of the stream. After an error the parts begin anew, as the
decoder stays where it is until it is reset and takes nothing more.

`Config.Ample` is asked for because a limit at the end of the range of a `usize` makes
the sum of the limit and one panic; `Codec.Raising` is about that. `Parts.Checked` keeps
track of the sums that have been taken.
-/

namespace Rtsp

open Syntax Lib Decoder

namespace RequestDecoder

/-- The parts of a request as they stand in the stream: a field is a header name with
    whatever stood before the colon, and a value up to its line break. -/
structure Parts where
  method : Bytes
  uri : Bytes
  version : Bytes
  fields : List (Bytes × Bytes)
  body : Bytes

/-- A header line. -/
def fieldLine (field : Bytes × Bytes) : Bytes := field.1 ++ 58 :: (field.2 ++ CRLF)

/-- The information line. -/
def Parts.line (p : Parts) : Bytes :=
  p.method ++ [SP] ++ (p.uri ++ [SP]) ++ (p.version ++ CRLF)

/-- The bytes of the request. -/
def Parts.bytes (p : Parts) : Bytes :=
  p.line ++ p.fields.flatMap fieldLine ++ CRLF ++ p.body

/-- What of the request has been taken in each state. -/
def Parts.taken {ε : Type} (p : Parts) : DecodeState ε → Bytes
  | .method | .error _ => []
  | .uri => p.method ++ [SP]
  | .version => p.method ++ [SP] ++ (p.uri ++ [SP])
  | .header => p.line ++ p.fields.flatMap fieldLine
  | .body => p.line ++ p.fields.flatMap fieldLine ++ CRLF
  | .end => p.bytes

/-- The headers that fields spell: each is trimmed, parsed and appended. -/
inductive Spelled : List (Bytes × Bytes) → HeaderMap → Prop where
  | nil : Spelled [] .empty
  | snoc {fields headers name value headerName headerValue} : Spelled fields headers →
      HeaderName.tryFrom (trimHeaderName name) = .ok headerName →
      HeaderValue.tryFrom (trimHeaderValue value) = .ok headerValue →
      Spelled (fields ++ [(name, value)]) (headers.append headerName headerValue)

/-- Fields within the limits on headers. -/
structure FieldsWithin (limits : Limits) (fields : List (Bytes × Bytes)) (headers : HeaderMap) :
    Prop where
  names : ∀ field ∈ fields, field.1.length ≤ limits.headerNameMaxLength
  values : ∀ field ∈ fields, field.2.length ≤ limits.headerValueMaxLength
  count : headers.valuesLen ≤ limits.headerMaxCount

theorem FieldsWithin.empty (limits : Limits) : FieldsWithin limits [] .empty :=
  ⟨by simp, by simp, Nat.zero_le _⟩

theorem FieldsWithin.snoc {limits : Limits} {fields : List (Bytes × Bytes)} {headers : HeaderMap}
    {name value : Bytes} (h : FieldsWithin limits fields headers) (headerName : HeaderName)
    (headerValue : HeaderValue) (hname : name.length ≤ limits.headerNameMaxLength)
    (hvalue : value.length ≤ limits.headerValueMaxLength)
    (hcount : headers.valuesLen < limits.headerMaxCount) :
    FieldsWithin limits (fields ++ [(name, value)]) (headers.append headerName headerValue) where
  names field hfield := by
    rcases List.mem_append.mp hfield with hfield | hfield
    · exact h.names field hfield
    · rwa [List.mem_singleton.mp hfield]
  values field hfield := by
    rcases List.mem_append.mp hfield with hfield | hfield
    · exact h.values field hfield
    · rwa [List.mem_singleton.mp hfield]
  count := by
    simp only [HeaderMap.valuesLen, HeaderMap.append_entries, List.length_append,
      List.length_singleton] at hcount ⊢
    exact hcount

variable {URI URIError : Type} [RequestURI URI URIError]

/-- The request that the parts spell. -/
structure Parts.Spell (p : Parts) (request : Request URI) : Prop where
  method : Method.tryFrom p.method = .ok request.method
  uri : RequestURI.tryFrom p.uri = .ok request.uri
  version : p.version.length = 8
  headers : Spelled p.fields request.headers
  body : p.body = request.body

/-- Parts of a request within the limits of a configuration. -/
structure Parts.Within (p : Parts) (config : Config) (request : Request URI) : Prop where
  method : p.method.length ≤ config.methodMaxLength
  uri : p.uri.length ≤ config.uriMaxLength
  fields : FieldsWithin config.toLimits p.fields request.headers
  body : request.body.length ≤ config.bodyMaxLength

/-- What else the decoder has checked on the way: the sums it took of its limits, and the
    length of the body. -/
structure Parts.Checked (URIError : Type) (p : Parts) (config : Config) (request : Request URI) :
    Prop where
  method : config.methodMaxLength + 1 ≤ usizeMax
  uri : config.uriMaxLength + 1 ≤ usizeMax
  headers : p.fields ≠ [] → config.toLimits.Ample
  length : ∃ l, bodyLength config.toLimits (headerErrors : HeaderErrors (DecodeError URIError))
    request.headers = .ok l ∧ l.val = request.body.length

/-! ## Every stage reads within its limit -/

variable {d d' : RequestDecoder URI URIError} {p : Parts} {b : Bytes} {n : Nat}

def ReadMethod (d : RequestDecoder URI URIError) (p : Parts) : Prop :=
  d.config.methodMaxLength + 1 ≤ usizeMax ∧ p.method.length ≤ d.config.methodMaxLength ∧
    ∃ method, Method.tryFrom p.method = .ok method ∧ d.builder.method = some method

def ReadURI (d : RequestDecoder URI URIError) (p : Parts) : Prop :=
  d.config.uriMaxLength + 1 ≤ usizeMax ∧ p.uri.length ≤ d.config.uriMaxLength ∧
    ∃ uri, RequestURI.tryFrom p.uri = .ok uri ∧ d.builder.uri = some uri

def ReadHeaders (d : RequestDecoder URI URIError) (p : Parts) : Prop :=
  p.version.length = 8 ∧ Spelled p.fields d.builder.headers ∧
    FieldsWithin d.config.toLimits p.fields d.builder.headers ∧
    (p.fields ≠ [] → d.config.toLimits.Ample)

/-- The length of the body is the one that the headers give. -/
def ReadLength (d : RequestDecoder URI URIError) (length : Nat) : Prop :=
  ∃ l, bodyLength d.config.toLimits (headerErrors : HeaderErrors (DecodeError URIError))
    d.builder.headers = .ok l ∧ l.val = length

/-- The parts that the decoder has read in each state. -/
def Reads (d : RequestDecoder URI URIError) (p : Parts) : Prop :=
  match d.state with
  | .method => d.builder.headers = .empty
  | .uri => ReadMethod d p ∧ d.builder.headers = .empty
  | .version => ReadMethod d p ∧ ReadURI d p ∧ d.builder.headers = .empty
  | .header => ReadMethod d p ∧ ReadURI d p ∧ ReadHeaders d p
  | .body => ReadMethod d p ∧ ReadURI d p ∧ ReadHeaders d p ∧ ReadLength d d.contentLength.val
  | .end => ReadMethod d p ∧ ReadURI d p ∧ ReadHeaders d p ∧ d.builder.body = some p.body ∧
      ReadLength d p.body.length
  | .error _ => True

/-- **A complete turn reads one part more**, and takes its bytes off the buffer. -/
theorem Completes.reads (h : Completes d b d' n) (hreads : Reads d p) :
    ∃ p', Reads d' p' ∧ p'.taken d'.state ++ b.drop n = p.taken d.state ++ b := by
  unfold Reads at hreads
  cases h with
  | @method text rest method hstate hb _ hmax hlen hmethod =>
    rw [hstate] at hreads ⊢
    refine ⟨{ p with method := text }, ⟨⟨hmax, hlen, method, hmethod, rfl⟩, hreads⟩, ?_⟩
    simp [Parts.taken, hb]
  | @uri text rest uri hstate hb _ hmax hlen huri =>
    rw [hstate] at hreads ⊢
    refine ⟨{ p with uri := text }, ⟨hreads.1, ⟨hmax, hlen, uri, huri, rfl⟩, hreads.2⟩, ?_⟩
    simp [Parts.taken, hb]
  | @version text rest hstate hb hlen =>
    rw [hstate] at hreads ⊢
    obtain ⟨hmethod, huri, hheaders⟩ := hreads
    refine ⟨{ p with version := text, fields := [] },
      ⟨hmethod, huri, hlen, hheaders ▸ .nil, hheaders ▸ .empty _, fun h => absurd rfl h⟩, ?_⟩
    have hdrop : b.drop 10 = rest := by simp [hb, List.drop_append, hlen]
    rw [hdrop]
    simp [Parts.taken, Parts.line, hb, CRLF]
  | @header name value rest headerName headerValue hstate hread =>
    rw [hstate] at hreads ⊢
    obtain ⟨hmethod, huri, hversion, hspelled, hwithin, -⟩ := hreads
    refine ⟨{ p with fields := p.fields ++ [(name, value)] }, ?_, ?_⟩
    · exact ⟨hmethod, huri, hversion, hspelled.snoc hread.tryName hread.tryValue,
        hwithin.snoc _ _ hread.nameLength hread.valueLength hread.count, fun _ => hread.ample⟩
    · have hdrop : b.drop (name.length + 1 + (value.length + 2)) = rest := by
        rw [← List.drop_drop, hread.split, drop_field]
        simp [List.drop_append]
      rw [hdrop]
      simp [Parts.taken, Parts.line, fieldLine, hread.split, CRLF]
  | @headersEnd rest contentLength hstate hb hbody =>
    rw [hstate] at hreads ⊢
    refine ⟨p, ⟨hreads.1, hreads.2.1, hreads.2.2, contentLength, hbody, rfl⟩, ?_⟩
    simp [Parts.taken, Parts.line, hb, CRLF]
  | @body body rest hstate hb hlen =>
    rw [hstate] at hreads ⊢
    obtain ⟨hmethod, huri, hheaders, hlength⟩ := hreads
    refine ⟨{ p with body }, ⟨hmethod, huri, hheaders, rfl, hlen ▸ hlength⟩, ?_⟩
    simp [Parts.taken, Parts.line, Parts.bytes, hb]

/-- The request that is built from the parts read. -/
theorem Reads.build {request : Request URI} (hreads : Reads d p) (hstate : d.state = .end)
    (hbuild : d.builder.build = .ok request) :
    p.Spell request ∧ p.Within d.config request ∧ p.Checked URIError d.config request := by
  unfold Reads at hreads
  rw [hstate] at hreads
  obtain ⟨⟨hmmax, hmlen, method, hmethod, hm⟩, ⟨humax, hulen, uri, huri, hu⟩,
    ⟨hversion, hspelled, hwithin, hample⟩, hbody, l, hl, hlen⟩ := hreads
  rw [RequestBuilder.build, hm, hu, hbody] at hbuild
  dsimp only at hbuild
  split at hbuild
  · cases hbuild
    exact ⟨⟨hmethod, huri, hversion, hspelled, rfl⟩,
      ⟨hmlen, hulen, hwithin, hlen ▸ bodyLength_le hl⟩, ⟨hmmax, humax, hample, l, hl, hlen⟩⟩
  · cases hbuild

/-! ## What is left in the buffer -/

/-- The most that is left in the buffer when the decoder asks for more. -/
def Config.bound (config : Config) : Nat :=
  max config.methodMaxLength (max config.uriMaxLength (max 9
    (max (config.headerNameMaxLength + config.headerValueMaxLength + 3) config.bodyMaxLength)))

section Incomplete

variable {δ μ ε : Type}

theorem readUntil_incomplete {separator : Byte} {max : Nat} {tooLong : ε}
    (h : readUntil separator max tooLong b = .ok .incomplete) : b.length ≤ max := by
  by_cases hmax : max + 1 ≤ usizeMax
  · rw [readUntil_eq hmax] at h
    split at h
    · cases h
    · split at h
      · cases h
      · omega
  · rw [readUntil_overflow hmax] at h
    cases h

theorem readField_incomplete {separator : Byte} {max : Nat} {tooLong : ε}
    {next : Bytes → Rust (Decoder.Turn δ μ ε)} (hnext : ∀ field, next field ≠ .ok .incomplete)
    (h : readField separator max tooLong b next = .ok .incomplete) : b.length ≤ max := by
  obtain ⟨r, hread, h⟩ := bind_eq_ok h
  cases r with
  | complete field => exact absurd h (hnext field)
  | error e => cases h
  | incomplete => exact readUntil_incomplete hread

/-- Of a value that has not ended there is at most its line break, of which the next byte
    is still to come. -/
theorem decodeHeaderValue_incomplete {max : Nat} {tooLong : ε}
    (h : decodeHeaderValue max tooLong b = .ok .incomplete) : b.length ≤ max + 2 := by
  by_cases hmax : max + 1 ≤ usizeMax
  · rw [decodeHeaderValue_eq hmax] at h
    split at h
    · next i hi =>
      split at h
      · cases h
      · have := (mem_lineBreaks.mp (List.mem_of_find?_eq_some hi)).1
        omega
    · split at h
      · cases h
      · omega
  · rw [decodeHeaderValue_overflow hmax] at h
    cases h

theorem decodeHeader_incomplete {limits : Limits} {errors : HeaderErrors ε} {headers : HeaderMap}
    (h : Decoder.decodeHeader limits errors headers b = .ok .incomplete) :
    b.length ≤ limits.headerNameMaxLength + limits.headerValueMaxLength + 3 := by
  obtain ⟨r, hname, h⟩ := bind_eq_ok h
  cases r with
  | error e => cases h
  | incomplete =>
    rw [decodeHeaderName] at hname
    split at hname
    · cases hname
    · obtain ⟨r, hread, hname⟩ := bind_eq_ok hname
      cases r with
      | complete => cases hname
      | error => cases hname
      | incomplete =>
        have := readUntil_incomplete hread
        omega
  | complete name =>
    rcases decodeHeaderName_complete hname with ⟨rfl, -⟩ | ⟨-, name, rest, rfl, rfl, hlen, -⟩
    · obtain ⟨_, _, h⟩ := bind_eq_ok h
      split at h <;> cases h
    · dsimp only at h
      rw [decodeHeaderField] at h
      split at h
      · cases h
      · rw [sliceFrom_field, ok_bind] at h
        obtain ⟨v, hv, h⟩ := bind_eq_ok h
        cases v with
        | incomplete =>
          have := decodeHeaderValue_incomplete hv
          simp only [List.length_append, List.length_cons]
          omega
        | error e => cases h
        | complete value =>
          dsimp only at h
          split at h
          · cases h
          · split at h
            · cases h
            · obtain ⟨_, _, h⟩ := bind_eq_ok h
              cases h

end Incomplete

/-- **What is left is bounded**, whatever the decoder waits for. -/
theorem turn_incomplete (hreads : Reads d p) (h : d.turn b = .ok .incomplete) :
    b.length ≤ d.config.bound := by
  have hconsume : ∀ {d' : RequestDecoder URI URIError} {n : Nat},
      (consume b d' n : Rust (Turn URI URIError)) ≠ .ok .incomplete := fun h => by
    cases (consume_eq_ok h).1
  unfold Config.bound
  unfold turn at h
  cases hstate : d.state with
  | method =>
    rw [hstate] at h
    have := readField_incomplete (fun field h => by
      split at h
      · exact hconsume h
      · cases h) h
    omega
  | uri =>
    rw [hstate] at h
    have := readField_incomplete (fun field h => by
      split at h
      · exact hconsume h
      · cases h) h
    omega
  | version =>
    rw [hstate] at h
    simp only [decodeVersion] at h
    split at h
    · omega
    · obtain ⟨_, _, h⟩ := bind_eq_ok h
      split at h
      · cases h
      · obtain ⟨_, _, h⟩ := bind_eq_ok h
        split at h
        · cases h
        · exact absurd h hconsume
        · cases h
  | header =>
    rw [hstate] at h
    obtain ⟨l, hl, h⟩ := bind_eq_ok h
    cases l with
    | incomplete =>
      have := decodeHeader_incomplete hl
      omega
    | _ => cases h
  | body =>
    rw [hstate] at h
    simp only [decodeBody, Decoder.decodeBody] at h
    split at h
    · next hbody =>
      split at hbody
      · unfold Reads at hreads
        rw [hstate] at hreads
        obtain ⟨-, -, -, l, hl, hlen⟩ := hreads
        have := bodyLength_le hl
        omega
      · cases hbody
    · exact absurd h hconsume
  | «end» =>
    rw [hstate] at h
    obtain ⟨_, _, h⟩ := bind_eq_ok h
    cases h
  | error e =>
    rw [hstate] at h
    cases h

/-! ## Calls -/

/-- What a call of `decode` on the buffer `b` comes to, after the bytes `taken` of the
    message under way. -/
inductive Call (config : Config) (taken b : Bytes) :
    DecodeResult (Request URI) (DecodeError URIError) → Nat → RequestDecoder URI URIError →
    Prop where
  | complete {request k d₁} (p : Parts) : p.bytes = taken ++ b.take k → p.Spell request →
      p.Within config request → p.Checked URIError config request → Reads d₁ p →
      d₁.state = .method →
      Call config taken b (.complete request) k d₁
  | incomplete {k d₁} (p : Parts) : p.taken d₁.state = taken ++ b.take k → Reads d₁ p →
      (b.drop k).length ≤ config.bound → Call config taken b .incomplete k d₁
  | error {e k d₁} (p : Parts) : p.taken d₁.state = [] → Reads d₁ p →
      Call config taken b (.error e) k d₁

/-- **What a call of `decode` comes to.** -/
theorem decode_call {result : DecodeResult (Request URI) (DecodeError URIError)}
    (hreads : Reads d p) (h : d.decode b = .ok (result, n, d')) :
    Call d.config (p.taken d.state) b result n d' := by
  obtain ⟨d₁, k, ⟨hconfig, p₁, hreads₁, htaken⟩, hlast⟩ := decodeLoop_last
    (J := fun d₁ b₁ => d₁.config = d.config ∧
      ∃ p₁, Reads d₁ p₁ ∧ p₁.taken d₁.state ++ b₁ = p.taken d.state ++ b)
    (fun d₁ b₁ d₂ n₂ hd₁ hturn => by
      obtain ⟨hconfig, p₁, hreads₁, htaken⟩ := hd₁
      obtain ⟨p₂, hreads₂, htaken₂⟩ := (turn_complete hturn).reads hreads₁
      cases turn_moves hturn with
      | complete _ hconfig₂ =>
        exact ⟨hconfig₂.trans hconfig, p₂, hreads₂, htaken₂.trans htaken⟩)
    ⟨rfl, p, hreads, rfl⟩ h
  have htaken : p₁.taken d₁.state = p.taken d.state ++ b.take k := by
    refine List.append_cancel_right (htaken.trans ?_)
    rw [List.append_assoc, List.take_append_drop]
  rw [Nat.zero_add] at hlast
  rw [← hconfig]
  cases hlast with
  | incomplete hturn => exact .incomplete p₁ htaken hreads₁ (turn_incomplete hreads₁ hturn)
  | message hturn =>
    cases turn_came hturn with
    | message hstate hbuild =>
      obtain ⟨hspell, hwithin, hchecked⟩ := hreads₁.build hstate hbuild
      rw [hstate] at htaken
      exact .complete p₁ htaken hspell hwithin hchecked rfl rfl
  | error hturn => exact .error p₁ rfl trivial
  | failed hturn =>
    cases turn_came hturn with
    | failed hstate => exact .error p₁ (by rw [hstate]; rfl) hreads₁

theorem decode_config {result : DecodeResult (Request URI) (DecodeError URIError)}
    (h : d.decode b = .ok (result, n, d')) : d'.config = d.config := by
  obtain ⟨d₁, k, hconfig, hlast⟩ := decodeLoop_last (J := fun d₁ _ => d₁.config = d.config)
    (fun d₁ b₁ d₂ n₂ hd₁ hturn => by
      cases turn_moves hturn with
      | complete _ hconfig₂ => exact hconfig₂.trans hd₁)
    rfl h
  cases hlast with
  | incomplete => exact hconfig
  | message hturn =>
    cases turn_moves hturn with
    | message hconfig₂ => exact hconfig₂.trans hconfig
  | error => exact hconfig
  | failed => exact hconfig

/-! ## A growing buffer -/

/-- A request decoder at its buffer, and the bytes that it has taken of the message under
    way. -/
structure Intake (URI URIError : Type) where
  decoder : RequestDecoder URI URIError
  taken : Bytes
  buffer : Bytes

namespace Intake

inductive Op (URI URIError : Type) where
  /-- The buffer grows. -/
  | chunk (bytes : Bytes)
  /-- A call of `decode` returned. -/
  | decode (result : DecodeResult (Request URI) (DecodeError URIError))

inductive Step : Intake URI URIError → Op URI URIError → Intake URI URIError → Prop where
  | chunk {s} (bytes : Bytes) : Step s (.chunk bytes) { s with buffer := s.buffer ++ bytes }
  | incomplete {s n d} : s.decoder.decode s.buffer = .ok (.incomplete, n, d) →
      Step s (.decode .incomplete) ⟨d, s.taken ++ s.buffer.take n, s.buffer.drop n⟩
  | complete {s request n d} : s.decoder.decode s.buffer = .ok (.complete request, n, d) →
      Step s (.decode (.complete request)) ⟨d, [], s.buffer.drop n⟩
  | error {s e n d} : s.decoder.decode s.buffer = .ok (.error e, n, d) →
      Step s (.decode (.error e)) ⟨d, [], s.buffer.drop n⟩

/-- A fresh decoder before the first byte. -/
def start (config : Config) : Intake URI URIError := ⟨withConfig config, [], []⟩

/-- What the steps keep. -/
structure Kept (config : Config) (s : Intake URI URIError) : Prop where
  config : s.decoder.config = config
  resting : s.decoder.Resting
  reads : ∃ p : Parts, Reads s.decoder p ∧ p.taken s.decoder.state = s.taken

theorem kept_start {config : Config} (h : config.Ample) :
    Kept config (start config : Intake URI URIError) :=
  ⟨rfl, resting_withConfig h, ⟨[], [], [], [], []⟩, rfl, rfl⟩

variable {config : Config} {s s' : Intake URI URIError} {op : Op URI URIError}

/-- What a call of `decode` comes to, and what it leaves. -/
theorem Kept.decode (h : Kept config s) : ∃ result n d,
    s.decoder.decode s.buffer = .ok (result, n, d) ∧ d.config = config ∧ d.Resting ∧
      Call config s.taken s.buffer result n d := by
  obtain ⟨result, n, d, hdecode, hresting, -⟩ := h.resting.decode s.buffer
  obtain ⟨p, hreads, htaken⟩ := h.reads
  have hcall := decode_call hreads hdecode
  rw [h.config, htaken] at hcall
  exact ⟨result, n, d, hdecode, (decode_config hdecode).trans h.config, hresting, hcall⟩

theorem Kept.step (h : Kept config s) (hstep : Step s op s') : Kept config s' := by
  obtain ⟨result, n, d, hdecode, hconfig, hresting, hcall⟩ := h.decode
  cases hstep with
  | chunk bytes => exact ⟨h.config, h.resting, h.reads⟩
  | incomplete hdecode' =>
    rw [hdecode'] at hdecode
    cases hdecode
    cases hcall with
    | incomplete p htaken hreads _ => exact ⟨hconfig, hresting, p, hreads, htaken⟩
  | complete hdecode' =>
    rw [hdecode'] at hdecode
    cases hdecode
    cases hcall with
    | complete p _ _ _ _ hreads hstate => exact ⟨hconfig, hresting, p, hreads, by rw [hstate]; rfl⟩
  | error hdecode' =>
    rw [hdecode'] at hdecode
    cases hdecode
    cases hcall with
    | error p htaken hreads => exact ⟨hconfig, hresting, p, hreads, htaken⟩

/-- **The limits bound what is accepted and what is buffered.** -/
theorem decode_within (hconfig : config.Ample) {ops : List (Op URI URIError)}
    (hrun : Run Step (start config) ops s) :
    ∃ result n d, s.decoder.decode s.buffer = .ok (result, n, d) ∧
      (∀ request, result = .complete request → ∃ p : Parts,
        p.bytes = s.taken ++ s.buffer.take n ∧ p.Spell request ∧ p.Within config request) ∧
      (result = .incomplete → (s.buffer.drop n).length ≤ config.bound) := by
  have hkept : Kept config s :=
    hrun.invariant (kept_start hconfig) fun _ _ _ hs hstep => hs.step hstep
  obtain ⟨result, n, d, hdecode, -, -, hcall⟩ := hkept.decode
  refine ⟨result, n, d, hdecode, ?_, ?_⟩
  · rintro request rfl
    cases hcall with
    | complete p hbytes hspell hwithin => exact ⟨p, hbytes, hspell, hwithin⟩
  · rintro rfl
    cases hcall with
    | incomplete _ _ _ hbound => exact hbound

/-- The narrowest limits for a request with one short header. -/
def narrow : Config where
  bodyMaxLength := 0
  headerMaxCount := 1
  headerNameMaxLength := 4
  headerValueMaxLength := 2
  methodMaxLength := 5
  uriMaxLength := 1

/-- A request that fills its limits to the last byte. -/
theorem decode_within_narrow :
    let b := ascii "SETUP * RTSP/2.0\r\nCSeq: 1\r\n\r\n"
    ∃ result n d, (withConfig narrow : RequestDecoder AsteriskURI Unit).decode b =
        .ok (result, n, d) ∧
      (∀ request, result = .complete request → ∃ p : Parts,
        p.bytes = b.take n ∧ p.Spell request ∧ p.Within narrow request) ∧
      (result = .incomplete → (b.drop n).length ≤ 9) :=
  decode_within (show narrow.Ample from ⟨⟨by decide, by decide⟩, by decide, by decide⟩)
    (s := (⟨withConfig narrow, [], ascii "SETUP * RTSP/2.0\r\nCSeq: 1\r\n\r\n"⟩ :
      Intake AsteriskURI Unit))
    (.snoc .start (.chunk (ascii "SETUP * RTSP/2.0\r\nCSeq: 1\r\n\r\n")))

end Intake
end RequestDecoder
end Rtsp
