import Rtsp.Codec.Chunks
import Rtsp.Codec.Reading

/-!
# What may be sent, and what arrives

A message does not arrive quite as it was sent. The encoder leaves out every
`Content-Length` the sender has set and writes its own in front of the other headers, if
there is a body. `HeaderMap.received` is what comes of that, computed from the sent
headers alone, so that a statement about the wire need not mention the encoder.

`Sendable` is within the default limits of a decoder, and asks for three more things
that are easily forgotten. A value must begin with text, since the decoder strips blanks
in front of it and would give back another value. A response has the canonical phrase of
its status code if there is one, as `ResponseBuilder` sees to; the decoder replaces any
other. And of a URI that it prints without a space and is parsed back (`Lawful`): URIs
come from a library, and this much is taken of it.

Configurations other than the default ones are not treated. Nothing depends on the
numbers, but a statement with all limits free would be about limits mostly.
-/

namespace Rtsp

open Syntax Lib Decoder Encoder

theorem toDecimal_length_le {n k : Nat} (hk : 0 < k) (h : n < 10 ^ k) :
    (toDecimal n).length ≤ k := by
  induction n using toDecimal_induction generalizing k with
  | one n hn => exact hk
  | more n bs hn ih =>
    obtain ⟨k, rfl⟩ : ∃ k', k = k' + 1 := ⟨k - 1, by omega⟩
    have hk' : 0 < k := by
      rcases Nat.eq_zero_or_pos k with rfl | hpos
      · simp only [Nat.zero_add, Nat.pow_one] at h
        omega
      · exact hpos
    have := ih hk' (by rw [Nat.pow_succ] at h; omega)
    simpa using this

/-! ## What arrives -/

/-- The headers a message arrives with: the sender's own `Content-Length`s are left out,
    and a body that is not empty has one in front. -/
def HeaderMap.received (headers : HeaderMap) (body : Bytes) : HeaderMap where
  entries := (if 0 < body.length then [(.standard .contentLength, .ofNumber body.length)] else [])
    ++ (headers.remove (.standard .contentLength)).entries
  keyed := by
    have hother : ∀ e ∈ (headers.remove (.standard .contentLength)).entries,
        e.1.eqv (.standard .contentLength) = false := fun e he => by
      simpa using (List.mem_filter.mp he).2
    have hfirst : ∀ e ∈ (if 0 < body.length then
        [(HeaderName.standard .contentLength, HeaderValue.ofNumber body.length)] else []),
        e.1 = .standard .contentLength := fun e he => by
      split at he
      · rw [List.mem_singleton.mp he]
      · cases he
    intro e he e' he' heqv
    rcases List.mem_append.mp he with he | he <;> rcases List.mem_append.mp he' with he' | he'
    · rw [hfirst e he, hfirst e' he']
    · rw [hfirst e he, HeaderName.eqv_comm, hother e' he'] at heqv
      cases heqv
    · rw [hfirst e' he', hother e he] at heqv
      cases heqv
    · exact (headers.remove _).keyed e he e' he' heqv

variable {URI URIError : Type}

def Request.received (request : Request URI) : Request URI :=
  { request with headers := request.headers.received request.body }

def Response.received (response : Response) : Response :=
  { response with headers := response.headers.received response.body }

def Message.received : Message URI → Message URI
  | .request r => .request r.received
  | .response r => .response r.received

/-! ## What may be sent -/

/-- Headers and a body within the default limits of a decoder. -/
structure Sendable (headers : HeaderMap) (body : Bytes) : Prop where
  names : ∀ e ∈ headers.entries, e.1.canonicalName.length ≤ 100
  values : ∀ e ∈ headers.entries, e.2.text.length ≤ 1998
  starts : ∀ e ∈ headers.entries, StartsWithText e.2.text
  count : (headers.remove (.standard .contentLength)).valuesLen ≤ 63
  body : body.length ≤ 65536

structure Request.Sendable [RequestURI URI URIError] (request : Request URI) : Prop where
  method : request.method.asStr.length ≤ 50
  uri : (RequestURI.toBytes request.uri).length ≤ 2000
  rest : Rtsp.Sendable request.headers request.body

structure Response.Sendable (response : Response) : Prop where
  phrase : response.reasonPhrase.text.length ≤ 50
  canonical : ∀ p, response.statusCode.canonicalReason = some p → response.reasonPhrase = p
  rest : Rtsp.Sendable response.headers response.body

def Message.Sendable [RequestURI URI URIError] : Message URI → Prop
  | .request r => r.Sendable
  | .response r => r.Sendable

/-- The printed form of a URI has no space and is parsed back to it. -/
structure RequestURI.Lawful (URI : Type) {URIError : Type} [RequestURI URI URIError] : Prop where
  space : ∀ uri : URI, SP ∉ RequestURI.toBytes uri
  tryFrom : ∀ uri : URI, RequestURI.tryFrom (RequestURI.toBytes uri) = .ok uri

namespace Decoder

/-- The limits on headers and bodies in both default configurations. -/
def Limits.default : Limits := RequestDecoder.Config.default.toLimits

theorem Limits.default_ample : Limits.default.Ample := ⟨by decide, by decide⟩

/-! ## Headers and body -/

variable {headers : HeaderMap} {body : Bytes}

theorem encodeHeaders_eq (headers : HeaderMap) : encodeHeaders headers =
    (headers.remove (.standard .contentLength)).entries.flatMap encodeEntry := by
  unfold encodeHeaders HeaderMap.remove
  dsimp only
  induction headers.entries with
  | nil => rfl
  | cons e entries ih =>
    rw [List.flatMap_cons, ih, List.filter_cons]
    cases he : e.1.eqv (.standard .contentLength) <;> simp [encodeEntry]

/-- The encoder writes the headers that arrive. -/
theorem encodeRest_eq (headers : HeaderMap) (body : Bytes) : encodeRest headers body =
    (headers.received body).entries.flatMap encodeEntry ++ (CRLF ++ body) := by
  rw [encodeRest, encodeHeaders_eq, HeaderMap.received, List.flatMap_append, List.append_assoc]
  congr 2
  split
  · simp [encodeEntry, HeaderValue.ofNumber, HeaderName.canonicalName,
      StandardHeader.canonicalName]
  · rfl

theorem received_fits (h : Sendable headers body) :
    ∀ e ∈ (headers.received body).entries, Fits Limits.default e := by
  intro e he
  rcases List.mem_append.mp he with he | he
  · split at he
    · rw [List.mem_singleton.mp he]
      have hlen : (toDecimal body.length).length ≤ 5 :=
        toDecimal_length_le (by decide) (Nat.lt_of_le_of_lt h.body (by decide))
      refine ⟨Nat.le_of_ble_eq_true rfl, Nat.lt_of_le_of_lt (Nat.succ_le_succ hlen) (by decide),
        fun b hb => ?_⟩
      have hdigit := isDigit_of_mem_toDecimal _ b (List.mem_of_mem_head? hb)
      have htoken : isToken [b] = true := by simp [isToken, isTokenChar, hdigit]
      exact isSpaceOrTab_of_isToken htoken b (.head _)
    · cases he
  · have he := (List.mem_filter.mp he).1
    exact ⟨h.names e he, Nat.lt_of_le_of_lt (Nat.succ_le_succ (h.values e he)) (by decide),
      h.starts e he⟩

theorem received_count (h : Sendable headers body) :
    (headers.received body).valuesLen ≤ Limits.default.headerMaxCount := by
  have hcount := h.count
  have hfirst : (if 0 < body.length then
      [(HeaderName.standard .contentLength, HeaderValue.ofNumber body.length)] else []).length
        ≤ 1 := by
    split <;> simp
  simp only [HeaderMap.valuesLen, HeaderMap.received, List.length_append] at hcount ⊢
  exact Nat.le_trans (Nat.add_le_add hfirst hcount) (by decide)

/-- The headers that arrive give the length of the body, if the decoder takes one as long. -/
theorem bodyLength_own {ε : Type} (limits : Limits) (errors : HeaderErrors ε)
    (headers : HeaderMap) (hmax : body.length ≤ MAX_CONTENT_LENGTH)
    (hbody : body.length ≤ limits.bodyMaxLength) :
    ∃ l, bodyLength limits errors (headers.received body) = .ok l ∧ l.val = body.length := by
  have hother : ((headers.remove (.standard .contentLength)).entries.filter fun e =>
      e.1.eqv (.standard .contentLength)) = [] := by
    rw [List.filter_eq_nil_iff]
    intro e he
    simpa using (List.mem_filter.mp he).2
  have hall : (headers.received body).getAll (.standard .contentLength) =
      if 0 < body.length then [.ofNumber body.length] else [] := by
    rw [HeaderMap.getAll, HeaderMap.received, List.filter_append, hother, List.append_nil]
    split <;> rfl
  have htyped : (headers.received body).typedTryGet ContentLength =
      .ok (if 0 < body.length then some ⟨body.length, hmax⟩ else none) := by
    show decodeNumber usizeMax ContentLength.tryFrom
      ((headers.received body).getAll (.standard .contentLength)) = _
    rw [hall]
    split
    · have hparse : parseUnsigned usizeMax (HeaderValue.ofNumber body.length).text =
          .ok body.length := parseUnsigned_toDecimal (Nat.le_trans hmax (by decide))
      simp [decodeNumber, hparse, ContentLength.tryFrom, hmax, Except.map]
    · rfl
  rw [bodyLength, htyped]
  split
  · next l hl =>
    split at hl
    · cases hl
      exact ⟨⟨body.length, hmax⟩, if_neg (Nat.not_lt.mpr hbody), rfl⟩
    · cases hl
  · next hl =>
    split at hl
    · cases hl
    · next hzero => exact ⟨.zero, rfl, (Nat.eq_zero_of_not_pos hzero).symm⟩
  · next hl => cases hl

/-- The headers that arrive give the length of the body. -/
theorem bodyLength_received {ε : Type} (errors : HeaderErrors ε) (h : Sendable headers body) :
    ∃ l, bodyLength Limits.default errors (headers.received body) = .ok l ∧
      l.val = body.length :=
  bodyLength_own _ errors headers (Nat.le_trans h.body (by decide)) h.body

/-- The body is what was sent, once all of it is there. -/
theorem decodeBody_received {l : ContentLength} (hl : l.val = body.length) (t : Bytes) :
    decodeBody l (body ++ t) = some body := by
  rw [decodeBody, if_neg (by simp [hl]), hl]
  simp

end Decoder

end Rtsp
