import Rtsp.Codec.Limits
import Rtsp.Codec.RoundTrip

/-!
# Forwarding an accepted request

A request that a decoder has accepted is encoded and decoded again with the same
limits. What the first decoder read, in whatever spelling, is within the limits
(`Parts.Within`), and the encoder's spelling is no longer than any other, with
one exception: it puts a space before each header value. So a request is read
again, up to its `Content-Length`, as long as the values fit with that space
(`decode_encode`).

`Codec.RoundTrip` starts from a message that somebody has put together, and asks it to
fit the limits. Here the message comes from a decoder. What is known of it is what the
decoder has checked, and that is about the bytes as they were spelled: with blanks round
a name, with a value that was folded, in small letters. So the proof goes from the parts
to the message and from the message to the encoder's text, and compares lengths.

`Content-Length` is an exception on both sides. The encoder writes its own in place of
the one that announced the body, which may have been spelled with zeros in front; for a
body that is empty it writes none. `SameButLength` is all that is promised for that
header.

The number of headers cannot grow, and names cannot get longer: a canonical name is as
long as any other spelling of it. Only values can.
-/

namespace Rtsp

open Syntax Lib Decoder Encoder

namespace Decoder

/-! ## What is left after trimming -/

theorem trimHeaderName_length_le (name : Bytes) : (trimHeaderName name).length ≤ name.length := by
  rw [trimHeaderName, List.length_reverse]
  have := (List.dropWhile_suffix (l := name.reverse) isSpaceOrTab).length_le
  rwa [List.length_reverse] at this

/-- A trimmed value does not start with a space or a tab. -/
theorem startsWithText_trimHeaderValue (value : Bytes) :
    StartsWithText (trimHeaderValue value) := by
  have hdrop : ∀ bs : Bytes, StartsWithText (bs.drop (bs.takeWhile isSpaceOrTab).length) := by
    intro bs
    induction bs with
    | nil => exact fun b hb => by cases hb
    | cons c bs ih =>
      cases hc : isSpaceOrTab c with
      | true => simpa [hc] using ih
      | false =>
        rw [List.takeWhile_cons_of_neg (by simp [hc])]
        exact fun b hb => by
          cases hb
          exact hc
  unfold trimHeaderValue
  cases hcrlf : CRLF.isPrefixOf value with
  | false =>
    simp only [Bool.false_eq_true, if_false, Bool.false_and, Nat.zero_add, List.drop_zero]
    exact hdrop value
  | true =>
    simp only [if_true, Bool.true_and, beq_iff_eq]
    split
    · -- The line break itself is left.
      obtain ⟨rest, rfl⟩ := List.isPrefixOf_iff_prefix.mp hcrlf
      intro b hb
      cases hb
      rfl
    · rw [← List.drop_drop]
      exact hdrop _

end Decoder

namespace RequestDecoder

/-! ## The headers of an accepted request -/

theorem Spelled.readable {fields : List (Bytes × Bytes)} {headers : HeaderMap} {max : Nat}
    (h : Spelled fields headers) (hnames : ∀ field ∈ fields, field.1.length ≤ max) :
    ∀ e ∈ headers.entries, e.1.canonicalName.length ≤ max ∧ StartsWithText e.2.text := by
  induction h with
  | nil => exact fun e he => by cases he
  | @snoc fields headers name value headerName headerValue _ hname hvalue ih =>
    have ih := ih fun field hfield => hnames field (List.mem_append_left _ hfield)
    intro e he
    rw [HeaderMap.append_entries] at he
    rcases List.mem_append.mp he with he | he
    · exact ih e he
    · rw [List.mem_singleton.mp he]
      refine ⟨?_, HeaderValue.tryFrom_eq_ok hvalue ▸ startsWithText_trimHeaderValue value⟩
      -- The value stands under the first spelling of its name.
      unfold HeaderMap.key
      split
      · next e' he' => exact (ih e' (List.mem_of_find?_eq_some he')).1
      · rw [HeaderName.length_of_tryFrom hname]
        exact Nat.le_trans (trimHeaderName_length_le name)
          (hnames (name, value) (List.mem_append_right _ (.head _)))

theorem Spelled.fields_ne_nil {fields : List (Bytes × Bytes)} {headers : HeaderMap}
    {e : HeaderName × HeaderValue} (h : Spelled fields headers) (he : e ∈ headers.entries) :
    fields ≠ [] := by
  cases h with
  | nil => cases he
  | snoc => simp

/-- A body that is not empty was announced. -/
theorem contentLength_mem {ε : Type} {limits : Limits} {errors : HeaderErrors ε}
    {headers : HeaderMap} {l : ContentLength} (h : bodyLength limits errors headers = .ok l)
    (hl : 0 < l.val) : ∃ e ∈ headers.entries, e.1.eqv (.standard .contentLength) = true := by
  cases hfilter : headers.entries.filter (fun e => e.1.eqv (.standard .contentLength)) with
  | cons e rest =>
    have he : e ∈ headers.entries.filter (fun e => e.1.eqv (.standard .contentLength)) :=
      hfilter ▸ .head _
    exact ⟨e, List.mem_filter.mp he⟩
  | nil =>
    have htyped : headers.typedTryGet ContentLength = .ok none := by
      show decodeNumber usizeMax ContentLength.tryFrom
        (headers.getAll (.standard .contentLength)) = _
      rw [HeaderMap.getAll, hfilter]
      rfl
    rw [bodyLength, htyped] at h
    cases h
    exact absurd hl (Nat.lt_irrefl 0)

variable {URI URIError : Type} [RequestURI URI URIError] {config : Config} {request : Request URI}
  {p : Parts}

/-- Every header value that the encoder writes fits with the space before it. -/
def Writable (config : Config) (request : Request URI) : Prop :=
  ∀ e ∈ (request.headers.received request.body).entries,
    e.2.text.length + 1 ≤ config.headerValueMaxLength

instance (config : Config) (request : Request URI) : Decidable (Writable config request) :=
  inferInstanceAs (Decidable (∀ e ∈ (request.headers.received request.body).entries,
    e.2.text.length + 1 ≤ config.headerValueMaxLength))

omit [RequestURI URI URIError] in
/-- The encoder's own header has the name of the one that announced the body. -/
theorem received_name (hchecked : p.Checked URIError config request) :
    ∀ e ∈ (request.headers.received request.body).entries,
      ∃ e' ∈ request.headers.entries, e'.1 = e.1 := by
  intro e he
  rcases List.mem_append.mp he with he | he
  · split at he
    · next hpos =>
      obtain ⟨l, hl, hlen⟩ := hchecked.length
      obtain ⟨e', he', heqv⟩ := contentLength_mem hl (hlen ▸ hpos)
      rw [List.mem_singleton.mp he]
      exact ⟨e', he', HeaderName.eqv_standard.mp heqv⟩
    · cases he
  · exact ⟨e, (List.mem_filter.mp he).1, rfl⟩

theorem received_readable (hspell : p.Spell request) (hwithin : p.Within config request)
    (hchecked : p.Checked URIError config request) (hvalues : Writable config request) :
    ∀ e ∈ (request.headers.received request.body).entries, Readable config.toLimits e := by
  intro e he
  have hentries := hspell.headers.readable hwithin.fields.names
  obtain ⟨e', he', hname⟩ := received_name hchecked e he
  refine ⟨hname ▸ (hentries e' he').1, hvalues e he, ?_⟩
  rcases List.mem_append.mp he with he | he
  · split at he
    · rw [List.mem_singleton.mp he]
      intro b hb
      have hdigit := isDigit_of_mem_toDecimal _ b (List.mem_of_mem_head? hb)
      have htoken : isToken [b] = true := by simp [isToken, isTokenChar, hdigit]
      exact isSpaceOrTab_of_isToken htoken b (.head _)
    · cases he
  · exact (hentries e (List.mem_filter.mp he).1).2

omit [RequestURI URI URIError] in
/-- The encoder writes no more headers than there were. -/
theorem received_valuesLen_le (hwithin : p.Within config request)
    (hchecked : p.Checked URIError config request) :
    (request.headers.received request.body).valuesLen ≤ config.headerMaxCount := by
  refine Nat.le_trans ?_ hwithin.fields.count
  simp only [HeaderMap.valuesLen, HeaderMap.received, List.length_append]
  split
  · next hpos =>
    obtain ⟨l, hl, hlen⟩ := hchecked.length
    obtain ⟨e, he, heqv⟩ := contentLength_mem hl (hlen ▸ hpos)
    have hless : ((request.headers.remove (.standard .contentLength)).entries).length <
        request.headers.entries.length :=
      List.length_filter_lt_length_iff_exists.mpr ⟨e, he, by simp [heqv]⟩
    rw [List.length_singleton]
    omega
  · rw [List.length_nil, Nat.zero_add]
    exact List.length_filter_le _ _

/-- **The encoded request is read step by step.** -/
theorem encode_skips (hspell : p.Spell request) (hwithin : p.Within config request)
    (hchecked : p.Checked URIError config request)
    (hlawful : RequestURI.Lawful URI)
    (huri : (RequestURI.toBytes request.uri).length ≤ config.uriMaxLength)
    (hvalues : Writable config request) :
    ∃ d' : RequestDecoder URI URIError,
      Skips (stepOf turn) Always (withConfig config) request.encode d' [] ∧
        d'.state = .end ∧ d'.builder.build = .ok request.received := by
  have hreadable := received_readable hspell hwithin hchecked hvalues
  have hcount := received_valuesLen_le hwithin hchecked
  have hname := received_name hchecked
  have hmethod : request.method.asStr.length ≤ config.methodMaxLength := by
    rw [Method.asStr_of_tryFrom hspell.method, List.length_map]
    exact hwithin.method
  have hample : (request.headers.received request.body).entries ≠ [] → config.toLimits.Ample := by
    intro hne
    obtain ⟨e, he⟩ := List.exists_mem_of_ne_nil _ hne
    obtain ⟨e', he', -⟩ := hname e he
    exact hchecked.headers (hspell.headers.fields_ne_nil he')
  obtain ⟨body, headers, method, uri, version, hversion⟩ := request
  subst hversion
  obtain ⟨l, hl, hlen⟩ := hchecked.length
  obtain ⟨l', hbody, hl'⟩ := bodyLength_own config.toLimits
    (headerErrors : HeaderErrors (DecodeError URIError)) headers (hlen ▸ l.le_max) hwithin.body
  have hline : Request.encode ⟨body, headers, method, uri, .rtsp2_0, rfl⟩ =
      method.asStr ++ SP :: (RequestURI.toBytes uri ++ SP :: (ascii "RTSP/2.0" ++ CRLF ++
        ((headers.received body).entries.flatMap encodeEntry ++ (CRLF ++ (body ++ []))))) := by
    simp [Request.encode, encodeRest_eq, Version.asEncoded]
  let place : HeaderMap → RequestDecoder URI URIError := fun headers =>
    ⟨⟨none, headers, some method, some uri, .rtsp2_0⟩, config, .zero, .header⟩
  have hskip : ∀ {d d' : RequestDecoder URI URIError} {b b' : Bytes} {n : Nat},
      d.turn b = .ok (.complete d' n) → b.drop n = b' → Skips (stepOf turn) Always d b d' b' :=
    fun hturn hb => .single trivial (stepOf_complete hturn) hb
  have hheaders : Skips (stepOf turn) Always (place .empty)
      ((headers.received body).entries.flatMap encodeEntry ++ (CRLF ++ (body ++ [])))
      (place (headers.received body)) (CRLF ++ (body ++ [])) :=
    readable_skips turn place (headerErrors : HeaderErrors (DecodeError URIError))
      (fun m b name value n h => decodeHeader_line h) (body ++ []) hample
      (fun _ _ _ _ _ _ => trivial) (List.nil_append _).symm hreadable hcount
  rw [hline]
  refine ⟨_, .trans (hskip (decodeMethod_asStr _ hchecked.method hmethod) (drop_field _ _ _)) <|
    .trans (hskip (decodeURI_toBytes hlawful _ hchecked.uri huri) (drop_field _ _ _)) <|
    .trans (hskip (decodeVersion_encoded _) rfl) <| .trans hheaders <|
    .trans (hskip (decodeHeader_ended (decodeHeader_empty _ _ hbody)) rfl) <|
    hskip (decodeBody_sent [] hl') (List.drop_left' rfl), rfl, rfl⟩

/-- A decoder whose run of turns ends in the end state returns the message. -/
theorem decode_of_skips {d d₁ : RequestDecoder URI URIError} {b : Bytes}
    (h : Skips (stepOf turn) Always d b d₁ []) (hstate : d₁.state = .end)
    (hbuild : d₁.builder.build = .ok request) :
    ∃ d', d.decode b = .ok (.complete request, b.length, d') := by
  have hturn : stepOf turn d₁ [] =
      .emit { d₁ with builder := .new, state := .method } 0 request := by
    rw [stepOf, turn, hstate]
    simp only [hbuild]
    rfl
  have hrank := d.rank_le
  obtain ⟨d₂, n, hle, hskips, hstop⟩ := decodeLoop_stopped setError
    (fun _ _ _ h => turn_moves h) (turns b) d b 0 (by unfold turns; omega)
  unfold Decoder.Stopped at hstop
  obtain ⟨rfl, hdrop⟩ := h.unique hskips (fun _ _ hs => by simp [hturn] at hs) fun _ _ hs => by
    rw [hs] at hstop
    exact hstop
  have hn : n = b.length := Nat.le_antisymm hle (List.drop_eq_nil_iff.mp hdrop.symm)
  rw [← hdrop, hturn, Nat.zero_add, hn] at hstop
  exact ⟨_, hstop⟩

/-- The second request is the first up to its `Content-Length`: how it is spelled, where it
    stands, and whether it is there when the body is empty. -/
structure SameButLength (request request' : Request URI) : Prop where
  method : request'.method = request.method
  uri : request'.uri = request.uri
  body : request'.body = request.body
  headers : request'.headers.remove (.standard .contentLength) =
    request.headers.remove (.standard .contentLength)
  length : 0 < request.body.length → request'.headers.typedTryGet ContentLength =
    request.headers.typedTryGet ContentLength

theorem typedTryGet_of_bodyLength {ε : Type} {limits : Limits} {errors : HeaderErrors ε}
    {headers : HeaderMap} {l : ContentLength} (h : bodyLength limits errors headers = .ok l)
    (hl : 0 < l.val) : headers.typedTryGet ContentLength = .ok (some l) := by
  unfold bodyLength at h
  split at h
  · next l' hl' =>
    split at h
    · cases h
    · cases h
      exact hl'
  · cases h
    exact absurd hl (Nat.lt_irrefl 0)
  · cases h

omit [RequestURI URI URIError] in
theorem received_sameButLength (hwithin : p.Within config request)
    (hchecked : p.Checked URIError config request) :
    SameButLength request request.received where
  method := rfl
  uri := rfl
  body := rfl
  headers := by
    refine HeaderMap.ext ?_
    show ((request.headers.received request.body).entries.filter _) = _
    rw [HeaderMap.received, List.filter_append]
    have hown : (if 0 < request.body.length then
        [(HeaderName.standard .contentLength, HeaderValue.ofNumber request.body.length)]
        else []).filter (fun e => !e.1.eqv (.standard .contentLength)) = [] := by
      split <;> simp
    rw [hown, List.nil_append]
    simp [HeaderMap.remove, List.filter_filter]
  length hpos := by
    obtain ⟨l, hl, hlen⟩ := hchecked.length
    obtain ⟨l', hl', hlen'⟩ := bodyLength_own config.toLimits
      (headerErrors : HeaderErrors (DecodeError URIError)) request.headers (hlen ▸ l.le_max)
      hwithin.body
    have heq : l' = l := by
      cases l
      cases l'
      simp only at hlen hlen'
      simp [hlen, hlen']
    rw [typedTryGet_of_bodyLength hl (hlen ▸ hpos), ← heq]
    exact typedTryGet_of_bodyLength hl' (hlen' ▸ hpos)

/-- **An accepted request can be forwarded**, if the values it is written with still fit. -/
theorem decode_encode (hlawful : RequestURI.Lawful URI) {s : Bytes} {n : Nat}
    {d : RequestDecoder URI URIError}
    (h : (withConfig config : RequestDecoder URI URIError).decode s = .ok (.complete request, n, d))
    (huri : (RequestURI.toBytes request.uri).length ≤ config.uriMaxLength)
    (hvalues : Writable config request) :
    ∃ request' n' d', (withConfig config : RequestDecoder URI URIError).decode request.encode =
      .ok (.complete request', n', d') ∧ SameButLength request request' := by
  cases decode_call (d := withConfig config) (p := ⟨[], [], [], [], []⟩) rfl h with
  | complete p _ hspell hwithin hchecked =>
    obtain ⟨d₁, hskips, hstate, hbuild⟩ :=
      encode_skips hspell hwithin hchecked hlawful huri hvalues
    obtain ⟨d', hdecode⟩ := decode_of_skips hskips hstate hbuild
    exact ⟨_, _, d', hdecode, received_sameButLength hwithin hchecked⟩

/-- A request in a spelling that no encoder uses. -/
def respelled : Bytes :=
  ascii "setup * rtsp/2.0\r\ncseq :1\r\nx:a\r\n b\r\nX: c\r\ncontent-length:\t004\r\n\r\nBody"

theorem decode_encode_respelled :
    let d : RequestDecoder AsteriskURI Unit := withConfig .default
    ∃ request n d₁, d.decode respelled = .ok (.complete request, n, d₁) ∧
      ∃ request' n' d', d.decode request.encode = .ok (.complete request', n', d') ∧
        SameButLength request request' := by
  intro d
  let request := (completed (d.decode respelled)).get (by decide +kernel)
  obtain ⟨n, d₁, hdecode⟩ := completed_eq_some (r := d.decode respelled) (m := request)
    (Option.some_get _).symm
  refine ⟨request, n, d₁, hdecode,
    decode_encode Codec.lawful_asterisk hdecode ?_ (by decide +kernel)⟩
  show 1 ≤ 2000
  decide

/-- A header value that is as long as the limit allows, with no space before it. -/
def unspaced : Bytes := ascii "SETUP * RTSP/2.0\r\nCSeq:10\r\n\r\n"

/-- The space that the encoder puts there makes the value too long. -/
theorem not_decode_encode : ¬ ∀ (config : Config) (s : Bytes) (request : Request AsteriskURI)
    (n : Nat) (d : RequestDecoder AsteriskURI Unit),
    (withConfig config).decode s = .ok (.complete request, n, d) →
      ∃ request' n' d', (withConfig config : RequestDecoder AsteriskURI Unit).decode
        request.encode = .ok (.complete request', n', d') := by
  intro h
  let d : RequestDecoder AsteriskURI Unit := withConfig Intake.narrow
  let request := (completed (d.decode unspaced)).get (by decide +kernel)
  obtain ⟨n, d₁, hdecode⟩ := completed_eq_some (r := d.decode unspaced) (m := request)
    (Option.some_get _).symm
  obtain ⟨request', n', d', hdecode'⟩ := h Intake.narrow unspaced request n d₁ hdecode
  have hnone : completed (d.decode request.encode) = none := by decide +kernel
  rw [hdecode'] at hnone
  cases hnone

end RequestDecoder
end Rtsp
