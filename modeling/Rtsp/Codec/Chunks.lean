import Rtsp.Codec.Run

/-!
# Chunks

What a stream decodes to must not depend on where it was cut. It does depend on
it, at the two places where a field is torn (`Torn`): everywhere else the codec's
step stands (`step_steady`), so feeds that are never torn agree
(`feed_eq_of_neverTorn`). At a torn place the step's answer does change
(`Torn.not_steady`), and two cuts of one stream decode differently
(`torn_phrase_differs`).

The condition is on feeds and not on bytes. Whether a field is torn depends on what the
decoder is in the middle of, and so on everything before it; `Meets` walks through the
feed and names the decoder, what it has in its buffer and what is still to come, each
time it is asked. A stream can be torn by one cut and not by another, and it is these
two cuts that disagree.

The step in question is the one that `Lib.Resume` is about: a step stands on a buffer if
it gives the same answer when more comes behind, unless it asks for more. All that is
special to this protocol is which steps stand. They do so for limits that leave room for
a header name (`Decoders.Regular`), without which the search for a name could itself be
cut short; the codec has no other limits than the defaults, which do.

Errors are compared as well as messages, but only the first: after an error the codec of
the source is not called again.
-/

namespace Rtsp

open Syntax Lib Decoder

namespace Codec

variable {URI URIError : Type}

/-- The decoder under way has buffered all of a field that may be longest, and the `CR`
    behind it, but not the `LF`; `t` is still to come. -/
inductive Torn (d : Decoders URI URIError) (b t : Bytes) : Prop where
  | requestHeader : d.request.state = .header →
      TornHeader d.request.config.toLimits d.request.builder.headers b t → Torn d b t
  | responseHeader : d.request.isInitial = true → d.response.state = .header →
      TornHeader d.response.config.toLimits d.response.builder.headers b t → Torn d b t
  | reasonPhrase : d.request.isInitial = true → d.response.state = .reasonPhrase →
      ResponseDecoder.TornPhrase d.response.config.reasonPhraseMaxLength b t → Torn d b t

/-- The configurations of both decoders leave room for a header name. -/
def Decoders.Regular (d : Decoders URI URIError) : Prop :=
  d.request.config.Regular ∧ d.response.config.Regular

variable [RequestURI URI URIError]

theorem isPrefixOf_append_of_le {p b t : Bytes} (h : p.length ≤ b.length) :
    p.isPrefixOf (b ++ t) = p.isPrefixOf b := by
  rw [Bool.eq_iff_iff, List.isPrefixOf_iff_prefix, List.isPrefixOf_iff_prefix]
  exact ⟨fun hp => List.prefix_of_prefix_length_le hp (List.prefix_append b t) h,
    fun hp => hp.trans (List.prefix_append b t)⟩

/-- **The codec's step stands**, but for torn fields. -/
theorem step_steady {d : Decoders URI URIError} {b t : Bytes} (hd : d.Regular)
    (h : ¬ Torn d b t) : Steady Decoders.step d b t := by
  have hrequest : Steady Decoders.requestStep d b t :=
    (RequestDecoder.turn_stands hd.1 fun hstate htorn =>
      h (.requestHeader hstate htorn)).steady.map fun _ => rfl
  have hresponse : d.request.isInitial = true → Steady Decoders.responseStep d b t := fun hreq =>
    (ResponseDecoder.turn_stands hd.2
      (fun hstate htorn => h (.responseHeader hreq hstate htorn))
      (fun hstate htorn => h (.reasonPhrase hreq hstate htorn))).steady.map fun _ => rfl
  cases hreq : d.request.isInitial with
  | false => exact hrequest.congr (by simp [Decoders.step, hreq]) (by simp [Decoders.step, hreq])
  | true =>
    cases hresp : d.response.isInitial with
    | false =>
      exact (hresponse hreq).congr (by simp [Decoders.step, hreq, hresp])
        (by simp [Decoders.step, hreq, hresp])
    | true =>
      by_cases hlen : b.length < MINIMUM_INFO_LINE_SIZE
      · rcases isPrefixOf_CRLF_append b t with hcrlf | hshort
        · cases hc : CRLF.isPrefixOf b with
          | true => exact .inr (by simp only [Decoders.step, hreq, hresp, hcrlf, hc]; rfl)
          | false => exact .inl (by simp [Decoders.step, hreq, hresp, hc, hlen])
        · -- Not yet enough for a line break.
          left
          rcases hshort with rfl | rfl <;> simp only [Decoders.step, hreq, hresp] <;> rfl
      · have hlen' : ¬ (b ++ t).length < MINIMUM_INFO_LINE_SIZE := by
          simp only [List.length_append]; omega
        have hcrlf := isPrefixOf_append_of_le (p := CRLF) (t := t)
          (Nat.le_trans (by decide) (Nat.not_lt.mp hlen))
        have hrtsp := isPrefixOf_append_of_le (p := ascii "RTSP/") (t := t) (Nat.not_lt.mp hlen)
        cases hc : CRLF.isPrefixOf b with
        | true => exact .inr (by simp only [Decoders.step, hreq, hresp, hcrlf, hc]; rfl)
        | false =>
          cases hr : (ascii "RTSP/").isPrefixOf b with
          | true =>
            rw [hr] at hrtsp
            rw [hc] at hcrlf
            exact (hresponse hreq).congr (by simp [Decoders.step, hreq, hresp, hc, hr, hlen])
              (by simp only [Decoders.step, hreq, hresp, hcrlf, hrtsp, hlen']; rfl)
          | false =>
            rw [hr] at hrtsp
            rw [hc] at hcrlf
            exact hrequest.congr (by simp [Decoders.step, hreq, hresp, hc, hr, hlen])
              (by simp only [Decoders.step, hreq, hresp, hcrlf, hrtsp, hlen']; rfl)

/-- The codec's decoders before the first byte. -/
def Decoders.new : Decoders URI URIError := ⟨.new, .new⟩

/-- Both decoders have their default configurations. -/
def Decoders.Default (d : Decoders URI URIError) : Prop :=
  d.request.config = .default ∧ d.response.config = .default

omit [RequestURI URI URIError] in
theorem Decoders.Default.regular {d : Decoders URI URIError} (h : d.Default) : d.Regular := by
  unfold Decoders.Regular
  rw [h.1, h.2]
  exact ⟨⟨by decide, by decide⟩, ⟨by decide, by decide⟩⟩

/-- No step changes a configuration. -/
theorem default_of_step {d d' : Decoders URI URIError} {b : Bytes} {n : Nat}
    (h : d.step b = .skip d' n ∨ ∃ m, d.step b = .emit d' n m) (hd : d.Default) : d'.Default :=
  ⟨(Decoders.step_moved h).request.trans hd.1, (Decoders.step_moved h).response.trans hd.2⟩

/-- A step that fails, and not so on the longer buffer, is not steady. -/
theorem not_steady_of_fail {d : Decoders URI URIError} {b t : Bytes}
    {f : Failure (ProtocolError URIError)} (hb : d.step b = .fail f)
    (ht : d.step (b ++ t) ≠ .fail f) : ¬ Steady Decoders.step d b t := by
  rintro (hs | hs)
  · rw [hb] at hs
    cases hs
  · exact ht (hs.trans hb)

/-- **A torn field changes the answer**: the step fails on the buffer, and not so on the
    longer one. -/
theorem Torn.not_steady {d : Decoders URI URIError} {b t : Bytes} (hd : d.Default)
    (h : Torn d b t) : ¬ Steady Decoders.step d b t := by
  obtain ⟨hrequest, hresponse⟩ := hd
  cases h with
  | requestHeader hstate htorn =>
    obtain ⟨hb, ht, ht'⟩ := decodeHeader_torn RequestDecoder.headerErrors
      (by rw [hrequest]; decide)
      (by rw [hrequest]; decide) (fun _ => by simp [RequestDecoder.headerErrors])
      (fun _ => by simp [RequestDecoder.headerErrors]) htorn
    have hstep : ∀ b, d.step b = d.requestStep b := fun b => by
      simp [Decoders.step, RequestDecoder.isInitial, hstate]
    have hturn : ∀ b, d.request.turn b = d.request.decodeHeader b := fun b => by
      rw [RequestDecoder.turn, hstate]
    refine not_steady_of_fail (f := .error (.decodeError (.request .headerValueTooLong))) ?_ ?_
    · rw [hstep, Decoders.requestStep, stepOf, hturn, RequestDecoder.decodeHeader, hb]
      rfl
    · rw [hstep]
      intro he
      rcases Decoders.requestStep_eq_fail he with ⟨n, he⟩ | he <;> rw [hturn] at he <;>
        obtain ⟨l, hl, he⟩ := bind_eq_ok he <;> cases l <;> cases he
      · exact ht' _ hl
      · exact ht hl
  | responseHeader hreq hstate htorn =>
    obtain ⟨hb, ht, ht'⟩ := decodeHeader_torn ResponseDecoder.headerErrors
      (by rw [hresponse]; decide) (by rw [hresponse]; decide)
      (fun _ => by simp [ResponseDecoder.headerErrors])
      (fun _ => by simp [ResponseDecoder.headerErrors]) htorn
    have hstep : ∀ b, d.step b = d.responseStep b := fun b => by
      simp [Decoders.step, hreq, ResponseDecoder.isInitial, hstate]
    have hturn : ∀ b, d.response.turn b = d.response.decodeHeader b := fun b => by
      rw [ResponseDecoder.turn, hstate]
    refine not_steady_of_fail (f := .error (.decodeError (.response .headerValueTooLong))) ?_ ?_
    · rw [hstep, Decoders.responseStep, stepOf, hturn, ResponseDecoder.decodeHeader, hb]
      rfl
    · rw [hstep]
      intro he
      rcases Decoders.responseStep_eq_fail he with ⟨n, he⟩ | he <;> rw [hturn] at he <;>
        obtain ⟨l, hl, he⟩ := bind_eq_ok he <;> cases l <;> cases he
      · exact ht' _ hl
      · exact ht hl
  | reasonPhrase hreq hstate htorn =>
    have hmax : d.response.config.reasonPhraseMaxLength + 2 ≤ usizeMax := by
      rw [hresponse]; decide
    obtain ⟨hb, i, hi⟩ := ResponseDecoder.decodeReasonPhrase_torn hmax htorn
    have hstep : ∀ b, d.step b = d.responseStep b := fun b => by
      simp [Decoders.step, hreq, ResponseDecoder.isInitial, hstate]
    have hturn : ∀ b, d.response.turn b = d.response.decodeReasonPhrase b := fun b => by
      rw [ResponseDecoder.turn, hstate]
    refine not_steady_of_fail (f := .error (.decodeError (.response .reasonPhraseTooLong))) ?_ ?_
    · rw [hstep, Decoders.responseStep, stepOf, hturn, hb]
      rfl
    · rw [hstep]
      intro he
      rcases Decoders.responseStep_eq_fail he with ⟨n, he⟩ | he <;> rw [hturn] at he <;>
        rcases ResponseDecoder.decodeReasonPhrase_of_firstLineBreak hi hmax he with
          ⟨_, _, h⟩ | ⟨_, h⟩ <;> cases h

/-- The torn places are the only ones where the answer changes. -/
theorem steady_iff_not_torn {d : Decoders URI URIError} {b t : Bytes} (hd : d.Default) :
    Steady Decoders.step d b t ↔ ¬ Torn d b t :=
  ⟨fun hs htorn => htorn.not_steady hd hs, step_steady hd.regular⟩

/-! ## Whole streams -/

omit [RequestURI URI URIError] in
/-- The driver returns what the feed comes to. -/
theorem Returned.outcome_eq {messages : List (Message URI)}
    {o : Except (Failure (ProtocolError URIError)) (Decoders URI URIError × Bytes)}
    {r r' : Rust (Fed URI URIError)} (h : Returned messages o r) (h' : Returned messages o r') :
    r.map outcome = r'.map outcome := by
  unfold Returned at h h'
  split at h
  · obtain ⟨c, rfl, -⟩ := h
    obtain ⟨c', rfl, -⟩ := h'
    rfl
  · rw [h, h']
  · rw [h, h']

/-- A feed of the chunks from the start never stops at a torn place. -/
def NeverTorn (URI : Type) {URIError : Type} [RequestURI URI URIError] (chunks : List Bytes) :
    Prop :=
  ∀ d b t, Meets Decoders.step (.new : Decoders URI URIError) [] chunks d b t →
    ¬ Torn d b t

omit [RequestURI URI URIError] in
/-- A field is torn only once more bytes are buffered than the longest one has. -/
theorem Torn.lt_length {d : Decoders URI URIError} {b t : Bytes} (hd : d.Default)
    (h : Torn d b t) : 51 < b.length := by
  have hheader : ∀ {limits headers}, limits.headerValueMaxLength = 2000 →
      TornHeader limits headers b t → 51 < b.length := by
    rintro limits headers hmax ⟨name, rest, rfl, -, -, -, -, -, -, -, -, hlen, -⟩
    rw [hmax] at hlen
    simp only [List.length_append, List.length_cons, hlen]
    omega
  cases h with
  | requestHeader _ h => exact hheader (by rw [hd.1]; rfl) h
  | responseHeader _ _ h => exact hheader (by rw [hd.2]; rfl) h
  | reasonPhrase _ _ h =>
    obtain ⟨_, _, -, -, hlen, -⟩ := h
    rw [hlen, hd.2]
    decide

theorem neverTorn_of_length {chunks : List Bytes} (h : chunks.flatten.length ≤ 51) :
    NeverTorn URI chunks := by
  intro d b t hm htorn
  have hd : d.Default := hm.invariant (fun _ _ _ _ => default_of_step) ⟨rfl, rfl⟩
  have hlt := htorn.lt_length hd
  have hle := hm.length_le
  simp only [List.length_nil] at hle
  omega

/-- **Chunk invariance**, away from torn fields: two cuts of one stream decode to the same
    messages and end with the same error, or with none. -/
theorem feed_eq_of_neverTorn (tx tx' : Option EventSender) {cs ds : List Bytes}
    (hcut : cs.flatten = ds.flatten) (hcs : NeverTorn URI cs) (hds : NeverTorn URI ds) :
    (feed (⟨.new, .new, tx⟩ : Codec URI URIError) [] cs).map outcome =
      (feed (⟨.new, .new, tx'⟩ : Codec URI URIError) [] ds).map outcome := by
  have hnew : (Decoders.new : Decoders URI URIError).Default := ⟨rfl, rfl⟩
  have hsteady : ∀ {chunks}, NeverTorn URI chunks → ∀ d b t,
      Meets Decoders.step (.new : Decoders URI URIError) [] chunks d b t →
      Steady Decoders.step d b t := fun h d b t hm =>
    step_steady (hm.invariant (fun _ _ _ _ => default_of_step) hnew).regular (h d b t hm)
  obtain ⟨ms, o, hfeeds, hreturned⟩ := feed_feeds (⟨.new, .new, tx⟩ : Codec URI URIError) [] cs
  obtain ⟨ms', o', hfeeds', hreturned'⟩ := feed_feeds (⟨.new, .new, tx'⟩ : Codec URI URIError) [] ds
  obtain ⟨rfl, rfl⟩ := hfeeds.unique Decoders.bounded hfeeds' hcut rfl (hsteady hcs) (hsteady hds)
  exact hreturned.outcome_eq hreturned'

/-- A response in one piece, and cut in the middle of its information line. -/
theorem feed_eq_of_neverTorn_response :
    (feed (new : Codec AsteriskURI _) []
        [ascii "RTSP/2.0 200 OK\r\nCSeq: 1\r\n\r\n"]).map outcome =
      (feed (new : Codec AsteriskURI _) []
        [ascii "RTSP/2.0 20", ascii "0 OK\r\nCSeq: 1\r", ascii "\n\r\n"]).map outcome :=
  feed_eq_of_neverTorn none none (by decide +kernel)
    (neverTorn_of_length (by decide +kernel)) (neverTorn_of_length (by decide +kernel))

/-- The information line of a response with a reason phrase of 51 bytes, up to its `CR`. -/
def tornLine : Bytes := ascii "RTSP/2.0 200 " ++ List.replicate 51 97 ++ [CR]

/-- **One cut changes the outcome**: a response that decodes in one piece is refused when
    the `LF` of its information line arrives later. -/
theorem torn_phrase_differs :
    ¬ ∀ cs ds : List Bytes, cs.flatten = ds.flatten →
      (feed (new : Codec AsteriskURI _) [] cs).map outcome =
        (feed (new : Codec AsteriskURI _) [] ds).map outcome := by
  intro h
  have := h [tornLine ++ [LF, CR, LF]] [tornLine, [LF, CR, LF]] (by simp)
  revert this
  decide +kernel

end Codec
end Rtsp
