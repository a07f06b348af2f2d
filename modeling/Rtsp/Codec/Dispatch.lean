import Rtsp.Codec.Limits
import Rtsp.Codec.RoundTrip

/-!
# Which decoder a message goes to

Between messages the codec tells responses from requests by their first five
bytes, `RTSP/` in capitals. The decoders have grammars of their own: no request
starts so, but the response decoder takes the version in small letters too. So a
request always reaches its decoder, and a response only when its version is
spelled in capitals (`dispatch_iff`).

The messages are compared through the results of the two decoders. Whatever a fresh
decoder makes of an input, as the whole of its first call, the fresh codec should make
of it too, with the same bytes taken; that the decoder is the right one for the input is
not presupposed but shown, in that it accepts.

It is the response decoder that is lenient. Version names are read in any case, since
`Version.tryDecode` turns them into capitals, and the code's own test in the codec is
for the bytes as they stand. For requests there is nothing to confuse: a method is a
token, and `/` is no character of a token.
-/

namespace Rtsp

open Syntax Lib Decoder

namespace Version

/-- The bytes of a version: `RTSP/` in any case, and a digit or more. -/
theorem tryDecode_prefix {text : Bytes} {v : Version} (h : tryDecode text = .ok v) :
    (text.take 5).map toAsciiUppercase = ascii "RTSP/" := by
  unfold tryDecode at h
  split at h
  · split at h
    · cases h
    · next hprefix => exact Classical.not_not.mp (not_or.mp hprefix).1
  · cases h

end Version

namespace ResponseDecoder

/-- A response starts with a version and a space. -/
theorem decode_version {s : Bytes} {response : Response} {n : Nat} {d' : ResponseDecoder}
    (h : (new : ResponseDecoder).decode s = .ok (.complete response, n, d')) :
    ∃ text rest, s = text ++ SP :: rest ∧ text.length = 8 ∧
      (text.take 5).map toAsciiUppercase = ascii "RTSP/" := by
  obtain ⟨d₁, k, hkept, hlast⟩ := decodeLoop_last
    (J := fun d b => (d.state = .version ∧ b = s) ∨ ∃ text rest, s = text ++ SP :: rest ∧
      text.length = 8 ∧ (text.take 5).map toAsciiUppercase = ascii "RTSP/")
    (fun d b d' n hd hturn => by
      rcases hd with ⟨hstate, rfl⟩ | hd
      · cases turn_complete hturn with
        | version _ hb hlen hversion =>
          exact .inr ⟨_, _, hb, hlen, Version.tryDecode_prefix hversion⟩
        | statusCode h | reasonPhrase h | header h | headersEnd h | body h =>
          rw [hstate] at h
          cases h
      · exact .inr hd)
    (.inl ⟨rfl, rfl⟩) h
  cases hlast with
  | message hturn =>
    rcases hkept with ⟨hstate, -⟩ | hkept
    · cases turn_came hturn with
      | message hend =>
        rw [hstate] at hend
        cases hend
    · exact hkept

end ResponseDecoder

namespace Codec

variable {URI URIError : Type}

theorem skipNewlines_eq_self {b : Bytes} (h : CRLF.isPrefixOf b = false) : skipNewlines b = b := by
  unfold skipNewlines
  split
  · cases h
  · rfl

variable [RequestURI URI URIError]

/-- Between messages, with the first bytes of the next one in the buffer. -/
theorem decode_first {c : Codec URI URIError} {b : Bytes} (hc : c.Initial)
    (hcrlf : CRLF.isPrefixOf b = false) (hlen : 5 ≤ b.length) :
    c.decode b = if (ascii "RTSP/").isPrefixOf b
      then (c.sendCodecEvent .decodingStarted).decodeResponse b
      else (c.sendCodecEvent .decodingStarted).decodeRequest b := by
  have hempty : b.isEmpty = false := by
    cases b with
    | nil => cases hlen
    | cons => rfl
  have hsize : ¬ b.length < MINIMUM_INFO_LINE_SIZE := Nat.not_lt.mpr hlen
  simp only [decode, hc.1, hc.2, skipNewlines_eq_self hcrlf, hempty, hsize, Bool.not_true,
    Bool.false_eq_true, if_false]

/-- `decode` returns the message and takes `n` bytes off the buffer. -/
def Dispatches (c : Codec URI URIError) (s : Bytes) (message : Message URI) (n : Nat) : Prop :=
  ∃ c', c.decode s = .ok (.ok (some message), c', s.drop n)

/-- A fresh codec. -/
def fresh (txEvent : Option EventSender) : Codec URI URIError := ⟨.new, .new, txEvent⟩

theorem decodeRequest_ne_response {c c' : Codec URI URIError} {b b' : Bytes} {r : Response} :
    c.decodeRequest b ≠ .ok (.ok (some (.response r)), c', b') := by
  intro h
  obtain ⟨⟨result, n, d⟩, -, h⟩ := bind_eq_ok h
  obtain ⟨_, -, h⟩ := bind_eq_ok h
  cases result <;> cases h

/-- **A request reaches the request decoder.** -/
theorem dispatches_request (txEvent : Option EventSender) {s : Bytes} {request : Request URI}
    {n : Nat} {d : RequestDecoder URI URIError}
    (h : (RequestDecoder.new : RequestDecoder URI URIError).decode s =
      .ok (.complete request, n, d)) :
    Dispatches (fresh txEvent) s (.request request) n := by
  have hresting := (Stream.resting_start txEvent : (Stream.start txEvent :
    Stream URI URIError).codec.Resting).request
  have hle : n ≤ s.length := by
    obtain ⟨_, _, _, hdecode, -, hle, -⟩ := hresting.decode s
    change RequestDecoder.new.decode s = _ at hdecode
    rw [h] at hdecode
    cases hdecode
    exact hle
  obtain ⟨p, hbytes, hspell⟩ : ∃ p : RequestDecoder.Parts, p.bytes = s.take n ∧
      p.Spell request := by
    cases RequestDecoder.decode_call (d := .new) (p := ⟨[], [], [], [], []⟩) rfl h with
    | complete p hbytes hspell => exact ⟨p, hbytes, hspell⟩
  have htoken := Method.isToken_of_tryFrom hspell.method
  have hs : s = p.method ++ SP :: (p.uri ++ [SP] ++ (p.version ++ CRLF) ++
      p.fields.flatMap RequestDecoder.fieldLine ++ CRLF ++ p.body ++ s.drop n) :=
    calc s = p.bytes ++ s.drop n := by rw [hbytes, List.take_append_drop]
      _ = _ := by simp [RequestDecoder.Parts.bytes, RequestDecoder.Parts.line]
  have hlen : 5 ≤ s.length := by
    have hversion := hspell.version
    have := congrArg List.length hbytes
    simp only [RequestDecoder.Parts.bytes, RequestDecoder.Parts.line, List.length_append,
      List.length_take] at this
    omega
  have hcrlf : CRLF.isPrefixOf s = false := by
    rw [hs]
    exact isPrefixOf_CRLF_token htoken
  have hrtsp : (ascii "RTSP/").isPrefixOf s = false := by
    rw [hs]
    exact isPrefixOf_RTSP_token htoken
  unfold Dispatches
  rw [decode_first ⟨rfl, rfl⟩ hcrlf hlen, hrtsp, if_neg (by simp), decodeRequest,
    requestDecoder_sendCodecEvent]
  change ∃ c', (RequestDecoder.new.decode s >>= _) = _
  rw [h, ok_bind]
  dsimp only
  rw [sliceFrom_of_le hle, ok_bind]
  exact ⟨_, rfl⟩

/-- **A response reaches the response decoder when it is spelled in capitals.** -/
theorem dispatches_response_iff (txEvent : Option EventSender) {s : Bytes} {response : Response}
    {n : Nat} {d : ResponseDecoder}
    (h : ResponseDecoder.new.decode s = .ok (.complete response, n, d)) :
    Dispatches (fresh txEvent : Codec URI URIError) s (.response response) n ↔
      ascii "RTSP/" <+: s := by
  have hresting := (Stream.resting_start txEvent : (Stream.start txEvent :
    Stream URI URIError).codec.Resting).response
  have hle : n ≤ s.length := by
    obtain ⟨_, _, _, hdecode, -, hle, -⟩ := hresting.decode s
    change ResponseDecoder.new.decode s = _ at hdecode
    rw [h] at hdecode
    cases hdecode
    exact hle
  obtain ⟨text, rest, hs, htext, hprefix⟩ := ResponseDecoder.decode_version h
  have hlen : 5 ≤ s.length := by
    rw [hs, List.length_append]
    omega
  have hcrlf : CRLF.isPrefixOf s = false := by
    rw [hs]
    cases text with
    | nil => cases htext
    | cons c text =>
      have hc : toAsciiUppercase c = 82 := (List.cons.inj hprefix).1
      have hne : (CR == c) = false := by
        rw [beq_eq_false_iff_ne]
        rintro rfl
        cases hc
      simp [CRLF, List.isPrefixOf, hne]
  unfold Dispatches
  rw [decode_first ⟨rfl, rfl⟩ hcrlf hlen]
  cases hrtsp : (ascii "RTSP/").isPrefixOf s with
  | true =>
    refine iff_of_true ?_ (List.isPrefixOf_iff_prefix.mp hrtsp)
    rw [if_pos rfl, decodeResponse, responseDecoder_sendCodecEvent]
    change ∃ c', (ResponseDecoder.new.decode s >>= _) = _
    rw [h, ok_bind]
    dsimp only
    rw [sliceFrom_of_le hle, ok_bind]
    exact ⟨_, rfl⟩
  | false =>
    refine iff_of_false ?_ fun hp => ?_
    · rintro ⟨c', hdecode⟩
      rw [if_neg (by simp)] at hdecode
      exact decodeRequest_ne_response hdecode
    · rw [List.isPrefixOf_iff_prefix.mpr hp] at hrtsp
      cases hrtsp

/-- **Dispatch agrees with the decoders** on every request, and on a response exactly when
    its version is spelled in capitals. -/
theorem dispatch_iff (txEvent : Option EventSender) (s : Bytes) :
    (∀ response n d, ResponseDecoder.new.decode s = .ok (.complete response, n, d) →
      (Dispatches (fresh txEvent : Codec URI URIError) s (.response response) n ↔
        ascii "RTSP/" <+: s)) ∧
      ∀ request n d, (RequestDecoder.new : RequestDecoder URI URIError).decode s =
        .ok (.complete request, n, d) → Dispatches (fresh txEvent) s (.request request) n :=
  ⟨fun _ _ _ h => dispatches_response_iff txEvent h, fun _ _ _ h => dispatches_request txEvent h⟩

/-- A request, and the response to it in capitals. -/
def optionsBytes : Bytes := ascii "OPTIONS * RTSP/2.0\r\nCSeq: 1\r\n\r\n"

def capitals : Bytes := ascii "RTSP/2.0 200 OK\r\nCSeq: 1\r\n\r\n"

/-- Both come out of the codec, with all their bytes taken off. -/
theorem dispatch_iff_capitals :
    (∃ response, Dispatches (fresh none : Codec AsteriskURI Unit) capitals (.response response)
      capitals.length) ∧
    ∃ request, Dispatches (fresh none : Codec AsteriskURI Unit) optionsBytes (.request request)
      optionsBytes.length := by
  have hdispatch := @dispatch_iff AsteriskURI Unit _ none
  obtain ⟨response, n, d, hresponse⟩ := exists_of_completed
    (show (completed (ResponseDecoder.new.decode capitals)).isSome = true by decide +kernel)
  obtain ⟨request, m, e, hrequest⟩ := exists_of_completed
    (show (completed ((RequestDecoder.new : RequestDecoder AsteriskURI Unit).decode
      optionsBytes)).isSome = true by decide +kernel)
  have hn : (ResponseDecoder.new.decode capitals).toOption.map (·.2.1) = some capitals.length := by
    decide +kernel
  have hm : ((RequestDecoder.new : RequestDecoder AsteriskURI Unit).decode
      optionsBytes).toOption.map (·.2.1) = some optionsBytes.length := by
    decide +kernel
  rw [hresponse] at hn
  rw [hrequest] at hm
  obtain rfl : n = capitals.length := Option.some.inj hn
  obtain rfl : m = optionsBytes.length := Option.some.inj hm
  refine ⟨⟨response, ((hdispatch capitals).1 response _ d hresponse).mpr ?_⟩,
    ⟨request, (hdispatch optionsBytes).2 request _ e hrequest⟩⟩
  exact List.isPrefixOf_iff_prefix.mp (by decide +kernel)

/-- A response whose version is spelled in small letters. -/
def smallLetters : Bytes := ascii "rtsp/2.0 200 OK\r\nCSeq: 1\r\n\r\n"

/-- The response decoder takes it, and the codec does not bring it there. -/
theorem not_dispatches_smallLetters : ¬ ∀ (s : Bytes) (response : Response) (n : Nat)
    (d : ResponseDecoder), ResponseDecoder.new.decode s = .ok (.complete response, n, d) →
      Dispatches (fresh none : Codec AsteriskURI Unit) s (.response response) n := by
  intro h
  have hsome : (completed (ResponseDecoder.new.decode smallLetters)).isSome = true := by
    decide +kernel
  obtain ⟨response, n, d, hdecode⟩ := exists_of_completed hsome
  have hprefix := (dispatches_response_iff none hdecode).mp (h _ _ _ _ hdecode)
  exact absurd (List.isPrefixOf_iff_prefix.mpr hprefix) (by decide)

end Codec
end Rtsp
