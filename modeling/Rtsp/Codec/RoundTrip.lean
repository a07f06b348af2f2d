import Rtsp.Codec.RoundTrip.Response

/-!
# Pipelined messages

Messages encoded one after the other into one stream, cut anywhere, come out of a fresh
codec as they were sent (`feed_encodeAll`). What changes on the way is the
`Content-Length`: the encoder leaves the sender's out and puts its own first
(`HeaderMap.received`).

The proof drains the whole stream, message by message and field by field, and shows on
the way that no field is torn; the cuts then do not matter, by what `Codec.Chunks` says
of streams that are never torn. So there is no induction over chunks here, and a message
is never half read.

Which decoder a message is for is decided by its first bytes. That a request does not
look like a response is a fact about methods: they are tokens, and `RTSP/` has a slash
(`isPrefixOf_RTSP_token`).
-/

namespace Rtsp

open Syntax Lib Decoder Encoder

variable {URI URIError : Type}

namespace Codec

variable [RequestURI URI URIError]

/-- What `Codec::encode` writes. -/
def encoded : Message URI → Bytes
  | .request request => request.encode
  | .response response => response.encode

/-- `Codec::encode` for one message after the other, into one buffer. -/
def encodeAll : Codec URI URIError → Bytes → List (Message URI) → Codec URI URIError × Bytes
  | c, buffer, [] => (c, buffer)
  | c, buffer, message :: messages =>
    let (c, buffer) := c.encode message buffer
    encodeAll c buffer messages

theorem encodeAll_eq (c : Codec URI URIError) (buffer : Bytes) (messages : List (Message URI)) :
    (encodeAll c buffer messages).2 = buffer ++ messages.flatMap encoded := by
  induction messages generalizing c buffer with
  | nil => simp [encodeAll]
  | cons message messages ih =>
    rw [encodeAll, ih, List.flatMap_cons, ← List.append_assoc]
    cases message <;> rfl

/-- Both decoders wait for a message to start. -/
structure Decoders.Ready (d : Decoders URI URIError) : Prop where
  request : ∃ l, d.request = ⟨.new, .default, l, .method⟩
  response : ∃ l, d.response = ⟨.new, .default, l, .version⟩

/-- No part of the buffer that may arrive first is torn. -/
def Decoders.Whole (d : Decoders URI URIError) (buffer : Bytes) : Prop :=
  ∀ b t, buffer = b ++ t → ¬ Torn d b t

variable {d : Decoders URI URIError}

omit [RequestURI URI URIError] in
theorem Decoders.Ready.isInitial (h : d.Ready) :
    d.request.isInitial = true ∧ d.response.isInitial = true := by
  obtain ⟨⟨_, hrequest⟩, ⟨_, hresponse⟩⟩ := h
  simp [RequestDecoder.isInitial, ResponseDecoder.isInitial, hrequest, hresponse]

omit [RequestURI URI URIError] in
theorem Decoders.Ready.default (h : d.Ready) : d.Default := by
  obtain ⟨⟨_, hrequest⟩, ⟨_, hresponse⟩⟩ := h
  simp [Decoders.Default, hrequest, hresponse]

theorem Decoders.Ready.need (h : d.Ready) : d.step [] = .need := by
  obtain ⟨hreq, hresp⟩ := h.isInitial
  simp [Decoders.step, hreq, hresp, CRLF, MINIMUM_INFO_LINE_SIZE]

omit [RequestURI URI URIError] in
theorem Decoders.Ready.whole (h : d.Ready) (b : Bytes) : d.Whole b := by
  obtain ⟨⟨_, hrequest⟩, ⟨_, hresponse⟩⟩ := h
  rintro b t - (⟨hs, -⟩ | ⟨-, hs, -⟩ | ⟨-, hs, -⟩)
  · simp [hrequest] at hs
  · simp [hresponse] at hs
  · simp [hresponse] at hs

/-- A method does not start a response: it has no slash. -/
theorem isPrefixOf_RTSP_token {name rest : Bytes} (h : isToken name = true) :
    (ascii "RTSP/").isPrefixOf (name ++ SP :: rest) = false := by
  refine eq_false_of_ne_true fun hprefix => ?_
  obtain ⟨rest', hsplit⟩ := List.isPrefixOf_iff_prefix.mp hprefix
  have hget : ∀ i < 5, (name ++ SP :: rest)[i]? = (ascii "RTSP/")[i]? := fun i hi => by
    rw [← hsplit, List.getElem?_append_left hi]
  rcases Nat.lt_or_ge name.length 5 with hlen | hlen
  · -- The space behind a short name would be part of the prefix.
    have hspace := hget name.length hlen
    rw [List.getElem?_append_right (Nat.le_refl _), Nat.sub_self] at hspace
    exact absurd (List.mem_of_getElem? hspace.symm) (by decide)
  · have hslash := hget 4 (by decide)
    rw [List.getElem?_append_left hlen] at hslash
    exact isToken_not_mem h (by decide : isTokenChar 47 = false)
      (List.mem_of_getElem? hslash)

/-- What one message takes the codec through: steps of which none is torn, the message,
    and waiting for the next one. -/
def Passes (d : Decoders URI URIError) (buffer : Bytes) (message : Message URI) (t : Bytes) :
    Prop :=
  ∃ d₁ d' : Decoders URI URIError, Skips Decoders.step Decoders.Whole d buffer d₁ t ∧
    d₁.step t = .emit d' 0 message ∧ d₁.Whole t ∧ d'.Ready

theorem request_passes (hlawful : RequestURI.Lawful URI) (hd : d.Ready) {request : Request URI}
    (hr : request.Sendable) (t : Bytes) :
    Passes d (request.encode ++ t) (.request request.received) t := by
  obtain ⟨hreq, hresp⟩ := hd.isInitial
  obtain ⟨⟨l, hrequest⟩, ⟨l', hresponse⟩⟩ := hd
  obtain ⟨r, hskips, hend, hconfig, hbuild⟩ : ∃ r : RequestDecoder URI URIError, _ :=
    RequestDecoder.skips_encode hlawful hr l t
  rw [← hrequest] at hskips
  -- The codec turns to the request decoder.
  have hturn : d.step (request.encode ++ t) = d.requestStep (request.encode ++ t) := by
    have htoken := request.method.isToken_asStr
    obtain ⟨rest, hrest⟩ : ∃ rest, request.encode ++ t = request.method.asStr ++ SP :: rest :=
      ⟨_, by simp [Request.encode]; rfl⟩
    have hlen : ¬ (request.encode ++ t).length < MINIMUM_INFO_LINE_SIZE := by
      have hversion : request.version.asEncoded.length = 8 := by
        cases request.version <;> rfl
      simp only [Request.encode, List.length_append, hversion, MINIMUM_INFO_LINE_SIZE]
      omega
    rw [hrest] at hlen ⊢
    simp only [Decoders.step, hreq, hresp, isPrefixOf_CRLF_token htoken,
      isPrefixOf_RTSP_token htoken, if_neg hlen, Bool.not_true, Bool.false_eq_true, if_false]
  have hwhole : ∀ (r : RequestDecoder URI URIError) b, r.Whole b →
      Decoders.Whole { d with request := r } b := by
    rintro r b hwhole b₁ t hb (⟨hs, htorn⟩ | ⟨-, hs, -⟩ | ⟨-, hs, -⟩)
    · exact hwhole hs b₁ t hb htorn
    · simp [hresponse] at hs
    · simp [hresponse] at hs
  obtain ⟨hcodec, hlast⟩ := Decoders.requestSkips hskips hwhole hturn
  refine ⟨_, { d with request := { r with builder := .new, state := .method } }, hcodec,
    ?_, ?_, ?_⟩
  · have hmessage : r.turn t = .ok (.message request.received
        { r with builder := .new, state := .method }) := by
      rw [RequestDecoder.turn, hend, hbuild]
      rfl
    rw [hlast, Decoders.requestStep, stepOf, hmessage]
    rfl
  · rintro b t - (⟨hs, -⟩ | ⟨hs, -⟩ | ⟨hs, -⟩)
    · simp [hend] at hs
    · simp [RequestDecoder.isInitial, hend] at hs
    · simp [RequestDecoder.isInitial, hend] at hs
  · refine ⟨⟨r.contentLength, ?_⟩, l', hresponse⟩
    rw [← hconfig]

theorem response_passes (hd : d.Ready) {response : Response} (hr : response.Sendable)
    (t : Bytes) : Passes d (response.encode ++ t) (.response response.received) t := by
  obtain ⟨hreq, hresp⟩ := hd.isInitial
  obtain ⟨⟨l, hrequest⟩, ⟨l', hresponse⟩⟩ := hd
  obtain ⟨r, hskips, hend, hconfig, hbuild⟩ := ResponseDecoder.skips_encode hr l' t
  rw [← hresponse] at hskips
  -- The codec turns to the response decoder.
  have hturn : d.step (response.encode ++ t) = d.responseStep (response.encode ++ t) := by
    obtain ⟨rest, hrest⟩ : ∃ rest, response.encode ++ t = ascii "RTSP/2.0" ++ rest :=
      ⟨_, by simp only [Response.encode, response.supported, Version.asEncoded,
        List.append_assoc]; rfl⟩
    rw [hrest]
    have hprefix : (ascii "RTSP/").isPrefixOf (ascii "RTSP/2.0" ++ rest) = true := rfl
    have hcrlf : CRLF.isPrefixOf (ascii "RTSP/2.0" ++ rest) = false := rfl
    have hlen : ¬ (ascii "RTSP/2.0" ++ rest).length < MINIMUM_INFO_LINE_SIZE := by
      rw [List.length_append]
      exact Nat.not_lt.mpr (Nat.le_trans (by decide) (Nat.le_add_right _ _))
    simp only [Decoders.step, hreq, hresp, hprefix, hcrlf, if_neg hlen, Bool.not_true,
      Bool.false_eq_true, if_false, if_true]
  have hwhole : ∀ r b, ResponseDecoder.Whole r b →
      Decoders.Whole { d with response := r } b := by
    rintro r b hwhole b₁ t hb (⟨hs, -⟩ | ⟨-, hs, htorn⟩ | ⟨-, hs, htorn⟩)
    · simp [hrequest] at hs
    · exact (hwhole b₁ t hb).1 hs htorn
    · exact (hwhole b₁ t hb).2 hs htorn
  obtain ⟨hcodec, hlast⟩ := Decoders.responseSkips hskips hwhole hreq hturn
  refine ⟨_, { d with response := { r with builder := .new, state := .version } }, hcodec,
    ?_, ?_, ?_⟩
  · have hmessage : r.turn t = .ok (.message response.received
        { r with builder := .new, state := .version }) := by
      rw [ResponseDecoder.turn, hend, hbuild]
      rfl
    rw [hlast, Decoders.responseStep, stepOf, hmessage]
    rfl
  · rintro b t - (⟨hs, -⟩ | ⟨-, hs, -⟩ | ⟨-, hs, -⟩)
    · simp [hrequest] at hs
    · simp [hend] at hs
    · simp [hend] at hs
  · refine ⟨⟨l, hrequest⟩, r.contentLength, ?_⟩
    rw [← hconfig]

/-- **One message comes out of a codec that waits for one**, and leaves it waiting. -/
theorem message_passes (hlawful : RequestURI.Lawful URI) (hd : d.Ready) {message : Message URI}
    (hm : message.Sendable) (t : Bytes) :
    Passes d (encoded message ++ t) message.received t := by
  cases message with
  | request request => exact request_passes hlawful hd hm t
  | response response => exact response_passes hd hm t

/-- **The messages come out of the whole stream in order**, and no step on the way is torn. -/
theorem messages_drain (hlawful : RequestURI.Lawful URI) (hd : d.Ready)
    {messages : List (Message URI)} (hm : ∀ m ∈ messages, m.Sendable) :
    ∃ d' : Decoders URI URIError, d'.Ready ∧
      Drain Decoders.step d (messages.flatMap encoded) (messages.map Message.received)
        (.ok (d', [])) ∧
      ∀ d₁ b₁, Visits Decoders.step d (messages.flatMap encoded) d₁ b₁ → d₁.Whole b₁ := by
  induction messages generalizing d with
  | nil =>
    refine ⟨d, hd, .need hd.need, fun d₁ b₁ hv => ?_⟩
    obtain ⟨rfl, rfl⟩ := hv.of_need hd.need
    exact hd.whole _
  | cons message messages ih =>
    obtain ⟨d₁, d₂, hskips, hemit, hwhole, hready⟩ :=
      message_passes hlawful hd (hm message (.head _)) (messages.flatMap encoded)
    obtain ⟨d', hready', hdrain, hvisits⟩ := ih hready fun m hmem => hm m (.tail _ hmem)
    refine ⟨d', hready', hskips.drain (.emit hemit hdrain), fun d₃ b₃ hv => ?_⟩
    rcases hskips.visits_cases hv with h | hv
    · exact h
    · rcases hv.of_emit hemit with ⟨rfl, rfl⟩ | hv
      · exact hwhole
      · exact hvisits d₃ b₃ hv

/-- **Pipelined round trip**: messages encoded one after the other and cut anywhere are
    decoded to what was sent, in order, and nothing is left over. -/
theorem feed_encodeAll (hlawful : RequestURI.Lawful URI) {messages : List (Message URI)}
    (hm : ∀ m ∈ messages, m.Sendable) (sender : Codec URI URIError) (tx : Option EventSender)
    {cs : List Bytes} (hcs : cs.flatten = (encodeAll sender [] messages).2) :
    ∃ c : Codec URI URIError,
      feed ⟨.new, .new, tx⟩ [] cs = .ok (messages.map Message.received, .ok (c, [])) ∧
        c.decoders.Ready := by
  have hnew : (⟨.new, .new⟩ : Decoders URI URIError).Ready := ⟨⟨_, rfl⟩, _, rfl⟩
  rw [encodeAll_eq, List.nil_append] at hcs
  obtain ⟨d', hready, hdrain, hvisits⟩ := messages_drain hlawful hnew hm
  obtain ⟨ms, o, hfeeds, hreturned⟩ := feed_feeds (⟨.new, .new, tx⟩ : Codec URI URIError) [] cs
  have hsteady : ∀ d₁ b₁ t, Visits Decoders.step (⟨.new, .new⟩ : Decoders URI URIError)
      ([] ++ cs.flatten) d₁ (b₁ ++ t) → Steady Decoders.step d₁ b₁ t := by
    intro d₁ b₁ t hv
    have hdefault := hv.invariant (fun _ _ _ _ => default_of_step) hnew.default
    rw [List.nil_append, hcs] at hv
    exact step_steady hdefault.regular (hvisits _ _ hv b₁ t rfl)
  obtain ⟨rfl, rfl⟩ := hfeeds.eq_of_drain Decoders.bounded
    (by rw [List.nil_append, hcs]; exact hdrain) hnew.need hsteady
  obtain ⟨c, hfeed, rfl⟩ := hreturned
  exact ⟨c, hfeed, hready⟩

theorem lawful_asterisk : RequestURI.Lawful AsteriskURI :=
  ⟨fun _ => (by decide : SP ∉ ascii "*"), fun _ => rfl⟩

/-- A request with a body and a `Content-Length` of its own, and the response to it. -/
def exchange : List (Message AsteriskURI) :=
  [.request {
      body := ascii "hello"
      headers := (HeaderMap.empty.append (.standard .contentLength) (.ofNumber 3)).append
        (.standard .cSeq) (.ofNumber 1)
      method := .standard .options
      uri := .asterisk
      version := .rtsp2_0
      supported := rfl },
    .response {
      body := []
      reasonPhrase := ⟨ascii "OK", rfl⟩
      headers := HeaderMap.empty.append (.standard .cSeq) (.ofNumber 1)
      statusCode := .standard .ok
      version := .rtsp2_0
      supported := rfl }]

theorem exchange_sendable : ∀ m ∈ exchange, m.Sendable := by
  simp only [exchange, List.forall_mem_cons]
  refine ⟨⟨by decide, by decide, ⟨?_, ?_, ?_, by decide, by decide⟩⟩,
    ⟨by decide, fun p hp => (Option.some.inj hp), ⟨?_, ?_, ?_, by decide, by decide⟩⟩,
    List.forall_mem_nil _⟩
  all_goals decide +kernel

/-- The two messages, cut in the middle of the request's body. -/
theorem feed_encodeAll_exchange : ∃ c : Codec AsteriskURI Unit,
    feed ⟨.new, .new, none⟩ [] [(encodeAll (new : Codec AsteriskURI Unit) [] exchange).2.take 55,
      (encodeAll (new : Codec AsteriskURI Unit) [] exchange).2.drop 55] =
        .ok (exchange.map Message.received, .ok (c, [])) ∧ c.decoders.Ready :=
  feed_encodeAll lawful_asterisk exchange_sendable new none (by simp)

end Codec
end Rtsp
