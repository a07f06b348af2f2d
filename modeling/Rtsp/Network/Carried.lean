import Rtsp.Codec.RoundTrip
import Rtsp.Connection.Delivery
import Rtsp.Connection.Handle
import Rtsp.Connection.Serving

/-!
# What a message carries

On its way to the peer a message is given a number, a date and the length of its body.
Everything else arrives as it was sent (`Request.Carried`, `Response.Carried`), and the
number, once given, is left alone by all that is written after it
(`typedGet_of_others`).

Encoder and decoder do more to a message than to copy it: blanks in front of a value go,
and `Content-Length` is taken out and put in front. So "arrives as it was sent" needs a
definition. `Carried` compares what a receiver can see of a message, its start line, its
body, and its headers but for the ones that are written on the way (`isWritten`), in
order.

It is a relation and not a function of the message sent, for the date is not known
before it is sent.
-/

namespace Rtsp

namespace HeaderMap

/-- The headers that the library writes by itself. -/
def isWritten (name : HeaderName) : Bool :=
  name.eqv (.standard .cSeq) || name.eqv (.standard .date) || name.eqv (.standard .contentLength)

/-- The entries under all other headers. -/
def own (m : HeaderMap) : List (HeaderName × HeaderValue) :=
  m.entries.filter fun e => !isWritten e.1

variable {m m' : HeaderMap}

/-- Entries that differ under one written header only. -/
theorem own_of_others {h : StandardHeader} (hwritten : isWritten (.standard h) = true)
    (hothers : (m'.entries.filter fun e => !e.1.eqv (.standard h)) =
      m.entries.filter fun e => !e.1.eqv (.standard h)) : m'.own = m.own := by
  have hfilter : ∀ m : HeaderMap, m.own =
      (m.entries.filter fun e => !e.1.eqv (.standard h)).filter fun e => !isWritten e.1 := by
    intro m
    rw [List.filter_filter]
    refine List.filter_congr fun e _ => ?_
    cases he : e.1.eqv (.standard h) with
    | false => simp
    | true =>
      rw [HeaderName.eqv_standard.mp he, hwritten]
      rfl
  rw [hfilter m', hfilter m, hothers]

theorem getAll_of_others {h h' : StandardHeader}
    (hothers : (m'.entries.filter fun e => !e.1.eqv (.standard h)) =
      m.entries.filter fun e => !e.1.eqv (.standard h)) (hne : h' ≠ h) :
    m'.getAll (.standard h') = m.getAll (.standard h') := by
  have hfilter : ∀ m : HeaderMap, (m.entries.filter fun e => e.1.eqv (.standard h')) =
      (m.entries.filter fun e => !e.1.eqv (.standard h)).filter fun e =>
        e.1.eqv (.standard h') := by
    intro m
    rw [List.filter_filter]
    refine List.filter_congr fun e _ => ?_
    cases he : e.1.eqv (.standard h') with
    | false => simp
    | true =>
      rw [HeaderName.eqv_standard.mp he]
      simp [HeaderName.eqv, hne]
  rw [getAll, getAll, hfilter m', hfilter m, hothers]

/-- The other entries of a map in which one value has taken the place of others. -/
theorem others_replace (m : HeaderMap) (h : StandardHeader) (value : HeaderValue) :
    (((m.remove (.standard h)).append (.standard h) value).entries.filter fun e =>
      !e.1.eqv (.standard h)) = m.entries.filter fun e => !e.1.eqv (.standard h) := by
  simp [append_entries, remove, key_eqv, List.filter_append, List.filter_filter]

theorem others_received (m : HeaderMap) (body : Bytes) :
    ((m.received body).entries.filter fun e => !e.1.eqv (.standard .contentLength)) =
      m.entries.filter fun e => !e.1.eqv (.standard .contentLength) := by
  unfold received
  rw [List.filter_append]
  split
  · simp [remove, List.filter_filter]
  · simp [remove, List.filter_filter]

/-- The number of a message is the one it arrives with. -/
theorem typedGet_of_others {h : StandardHeader}
    (hothers : (m'.entries.filter fun e => !e.1.eqv (.standard h)) =
      m.entries.filter fun e => !e.1.eqv (.standard h)) (hne : .cSeq ≠ h) :
    m'.typedGet CSeq = m.typedGet CSeq := by
  have hall := getAll_of_others hothers hne
  unfold typedGet typedTryGet
  rw [show m'.getAll (TypedHeader.headerName CSeq) = m.getAll (TypedHeader.headerName CSeq) from
    hall]

/-- The values under a header that is not written. -/
theorem getAll_of_own (hown : m'.own = m.own) {h : StandardHeader}
    (hnot : isWritten (.standard h) = false) :
    m'.getAll (.standard h) = m.getAll (.standard h) := by
  have hfilter : ∀ m : HeaderMap, (m.entries.filter fun e => e.1.eqv (.standard h)) =
      m.own.filter fun e => e.1.eqv (.standard h) := by
    intro m
    rw [own, List.filter_filter]
    refine List.filter_congr fun e _ => ?_
    cases he : e.1.eqv (.standard h) with
    | false => rfl
    | true =>
      rw [HeaderName.eqv_standard.mp he, hnot]
      rfl
  rw [getAll, getAll, hfilter m', hfilter m, hown]

theorem containsKey_of_own (hown : m'.own = m.own) {h : StandardHeader}
    (hnot : isWritten (.standard h) = false) :
    m'.containsKey (.standard h) = m.containsKey (.standard h) := by
  have hall : ∀ m : HeaderMap, m.containsKey (.standard h) = !(m.getAll (.standard h)).isEmpty := by
    intro m
    rw [containsKey, getAll, Bool.eq_iff_iff]
    simp
  rw [hall, hall, getAll_of_own hown hnot]

theorem typedTryGet_of_own {α ε : Type} [TypedHeader α ε] (hown : m'.own = m.own)
    {h : StandardHeader} (hname : TypedHeader.headerName α = .standard h)
    (hnot : isWritten (.standard h) = false) : m'.typedTryGet α = m.typedTryGet α := by
  rw [typedTryGet, typedTryGet, hname, getAll_of_own hown hnot]

/-- The length that arrives is that of the body. -/
theorem received_hasBody (m : HeaderMap) {body : Bytes} (hbody : body.length ≤ 65536) :
    ((m.received body).typedGet ContentLength).any (0 < ·.val) = decide (body ≠ []) := by
  obtain ⟨l, hlength, hl⟩ := Decoder.bodyLength_own .default ResponseDecoder.headerErrors m
    (Nat.le_trans hbody (by decide)) hbody
  have hempty : (0 < l.val) ↔ body ≠ [] := by
    rw [hl]
    exact List.length_pos_iff
  unfold Decoder.bodyLength at hlength
  unfold typedGet
  split at hlength
  · next heq =>
    split at hlength
    · cases hlength
    · cases hlength
      rw [heq, Option.any_some]
      exact decide_eq_decide.mpr hempty
  · next heq =>
    cases hlength
    rw [heq]
    have hnone : body = [] := by simpa [ContentLength.zero] using hempty
    simp [hnone]
  · cases hlength

end HeaderMap

variable {URI : Type}

/-- A request that arrives, but for what the library writes. -/
structure Request.Carried (sent arrived : Request URI) : Prop where
  method : arrived.method = sent.method
  uri : arrived.uri = sent.uri
  body : arrived.body = sent.body
  headers : arrived.headers.own = sent.headers.own

/-- A response that arrives, but for what the library writes. -/
structure Response.Carried (sent arrived : Response) : Prop where
  statusCode : arrived.statusCode = sent.statusCode
  reasonPhrase : arrived.reasonPhrase = sent.reasonPhrase
  body : arrived.body = sent.body
  headers : arrived.headers.own = sent.headers.own

theorem Request.carried_withCSeq (request : Request URI) (c : CSeq) :
    request.Carried (request.withCSeq c) :=
  ⟨rfl, rfl, rfl, HeaderMap.own_of_others rfl (request.headers.others_replace .cSeq _)⟩

theorem Response.carried_withCSeq (response : Response) (c : CSeq) :
    response.Carried (response.withCSeq c) :=
  ⟨rfl, rfl, rfl, HeaderMap.own_of_others rfl (response.headers.others_replace .cSeq _)⟩

theorem Request.Carried.trans {r₁ r₂ r₃ : Request URI} (h : r₁.Carried r₂) (h' : r₂.Carried r₃) :
    r₁.Carried r₃ :=
  ⟨h'.method.trans h.method, h'.uri.trans h.uri, h'.body.trans h.body,
    h'.headers.trans h.headers⟩

theorem Response.Carried.trans {r₁ r₂ r₃ : Response} (h : r₁.Carried r₂) (h' : r₂.Carried r₃) :
    r₁.Carried r₃ :=
  ⟨h'.statusCode.trans h.statusCode, h'.reasonPhrase.trans h.reasonPhrase, h'.body.trans h.body,
    h'.headers.trans h.headers⟩

/-- The same number. -/
def SameCSeq (m m' : HeaderMap) : Prop := m'.typedGet CSeq = m.typedGet CSeq

/-- **A request is dated, encoded and decoded**: it carries what was given to the sender, and
    has its number. -/
theorem Request.carried_dated {request : Request URI} {sent : Message URI}
    (h : Sender.Dated (.request request) sent) : ∃ arrived : Request URI,
    sent.received = .request arrived ∧ request.Carried arrived ∧
      SameCSeq request.headers arrived.headers := by
  obtain ⟨date, rfl⟩ := h
  have hdated := request.headers.others_replace .date date
  refine ⟨_, rfl, ⟨rfl, rfl, rfl, ?_⟩, ?_⟩
  · exact (HeaderMap.own_of_others rfl (HeaderMap.others_received _ _)).trans
      (HeaderMap.own_of_others rfl hdated)
  · exact (HeaderMap.typedGet_of_others (HeaderMap.others_received _ _) nofun).trans
      (HeaderMap.typedGet_of_others hdated nofun)

/-- What is within the limits arrives with the length of its body. -/
theorem Request.hasBody_received {URIError : Type} [RequestURI URI URIError]
    {sent : Message URI} {arrived : Request URI} (h : sent.received = .request arrived)
    (hsendable : sent.Sendable) :
    (arrived.headers.typedGet ContentLength).any (0 < ·.val) = decide (arrived.body ≠ []) := by
  cases sent with
  | request request =>
    cases h
    exact request.headers.received_hasBody hsendable.rest.body
  | response => cases h

theorem Response.carried_dated {response : Response} {sent : Message URI}
    (h : Sender.Dated (.response response) sent) : ∃ arrived : Response,
    sent.received = .response arrived ∧ response.Carried arrived ∧
      SameCSeq response.headers arrived.headers := by
  obtain ⟨date, rfl⟩ := h
  have hdated := response.headers.others_replace .date date
  refine ⟨_, rfl, ⟨rfl, rfl, rfl, ?_⟩, ?_⟩
  · exact (HeaderMap.own_of_others rfl (HeaderMap.others_received _ _)).trans
      (HeaderMap.own_of_others rfl hdated)
  · exact (HeaderMap.typedGet_of_others (HeaderMap.others_received _ _) nofun).trans
      (HeaderMap.typedGet_of_others hdated nofun)

end Rtsp
