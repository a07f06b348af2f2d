import Rtsp.Codec.RoundTrip.Sendable

/-!
# A request is read back

An encoded request with anything behind it is read field by field, each field by the
turn that is for it (`skips_line`, `decodeHeader_line`, `decodeHeader_ended`), and the
decoder then has the request as it arrives (`skips_encode`).

On the way it is shown that no step is torn (`Whole`), which is a condition on every
cutting of what is in the buffer and not on the one that happened. It is needed at the
headers only. A header value that is too long with its `CR` and not with its `LF` is
longer than a sendable one.
-/

namespace Rtsp

open Syntax Lib Decoder Encoder

variable {URI URIError : Type}

namespace RequestDecoder

/-- No part of the buffer that may arrive first is torn. -/
def Whole (d : RequestDecoder URI URIError) (buffer : Bytes) : Prop :=
  d.state = .header →
    ∀ b t, buffer = b ++ t → ¬ TornHeader d.config.toLimits d.builder.headers b t

variable {d : RequestDecoder URI URIError}

theorem decodeMethod_asStr {method : Method} (rest : Bytes)
    (hmax : d.config.methodMaxLength + 1 ≤ usizeMax)
    (hlen : method.asStr.length ≤ d.config.methodMaxLength) :
    d.decodeMethod (method.asStr ++ SP :: rest) =
      .ok (.complete { d with builder := { d.builder with method := some method }, state := .uri }
        (method.asStr.length + 1)) := by
  rw [decodeMethod, readField_field _ _ _ hmax
    (isToken_not_mem method.isToken_asStr (by decide)) hlen, method.tryFrom_asStr]
  exact consume_of_le _ (by simp)

theorem decodeURI_toBytes [RequestURI URI URIError] (hlawful : RequestURI.Lawful URI) {uri : URI}
    (rest : Bytes) (hmax : d.config.uriMaxLength + 1 ≤ usizeMax)
    (hlen : (RequestURI.toBytes uri).length ≤ d.config.uriMaxLength) :
    d.decodeURI (RequestURI.toBytes uri ++ SP :: rest) =
      .ok (.complete { d with builder := { d.builder with uri := some uri }, state := .version }
        ((RequestURI.toBytes uri).length + 1)) := by
  rw [decodeURI, readField_field _ _ _ hmax (hlawful.space uri) hlen,
    hlawful.tryFrom uri]
  exact consume_of_le _ (by simp)

theorem decodeVersion_encoded (rest : Bytes) :
    d.decodeVersion (ascii "RTSP/2.0" ++ CRLF ++ rest) =
      .ok (.complete { d with builder := { d.builder with version := .rtsp2_0 }, state := .header }
        10) := by
  have hlen : ¬ (ascii "RTSP/2.0" ++ CRLF ++ rest).length < 10 := by
    rw [List.length_append]
    exact Nat.not_lt.mpr (Nat.le_add_right _ _)
  have hcrlf : slice (ascii "RTSP/2.0" ++ CRLF ++ rest) 8 10 = .ok CRLF :=
    slice_append (b := ascii "RTSP/2.0" ++ CRLF) (by decide)
  have hversion : slice (ascii "RTSP/2.0" ++ CRLF ++ rest) 0 8 = .ok (ascii "RTSP/2.0") :=
    slice_append (b := ascii "RTSP/2.0" ++ CRLF) (by decide)
  rw [decodeVersion, if_neg hlen, hcrlf, ok_bind, if_neg (fun h => h rfl), hversion, ok_bind]
  exact consume_of_le _ (Nat.not_lt.mp hlen)

theorem decodeHeader_line {name : HeaderName} {value : HeaderValue} {b : Bytes} {n : Nat}
    (h : Decoder.decodeHeader d.config.toLimits (headerErrors : HeaderErrors (DecodeError URIError))
      d.builder.headers b = .ok (.header name value n)) :
    d.decodeHeader b = .ok (.complete { d with builder := d.builder.header name value } n) := by
  rw [decodeHeader, h, ok_bind]

theorem decodeHeader_ended {l : ContentLength} {b : Bytes}
    (h : Decoder.decodeHeader d.config.toLimits (headerErrors : HeaderErrors (DecodeError URIError))
      d.builder.headers b = .ok (.ended l)) :
    d.decodeHeader b = .ok (.complete { d with state := .body, contentLength := l } 2) := by
  rw [decodeHeader, h, ok_bind]

theorem decodeBody_sent {body : Bytes} (t : Bytes) (h : d.contentLength.val = body.length) :
    d.decodeBody (body ++ t) =
      .ok (.complete { d with state := .end, builder := { d.builder with body := some body } }
        body.length) := by
  rw [decodeBody, decodeBody_received h, h]
  exact consume_of_le _ (by simp)

/-- The decoder behind the request line, with the headers it has so far. -/
def behindLine (l : ContentLength) (method : Method) (uri : URI) (headers : HeaderMap) :
    RequestDecoder URI URIError where
  builder := { body := none, headers, method := some method, uri := some uri, version := .rtsp2_0 }
  config := .default
  contentLength := l
  state := .header

variable [RequestURI URI URIError]

/-- One turn, in a state where nothing can be torn. -/
theorem skip_turn {d' : RequestDecoder URI URIError} {b b' : Bytes} {n : Nat}
    (hstate : d.state ≠ .header) (h : d.turn b = .ok (.complete d' n)) (hb : b.drop n = b') :
    Skips (stepOf turn) Whole d b d' b' :=
  .single (fun hheader => absurd hheader hstate) (stepOf_complete h) hb

theorem skips_line (hlawful : RequestURI.Lawful URI) {method : Method} {uri : URI}
    (hmethod : method.asStr.length ≤ 50) (huri : (RequestURI.toBytes uri).length ≤ 2000)
    (l : ContentLength) (rest : Bytes) :
    Skips (stepOf turn) Whole (⟨.new, .default, l, .method⟩ : RequestDecoder URI URIError)
      (method.asStr ++ SP :: (RequestURI.toBytes uri ++ SP :: (ascii "RTSP/2.0" ++ CRLF ++ rest)))
      (behindLine l method uri .empty) rest := by
  refine .trans (skip_turn nofun (decodeMethod_asStr _ ?_ hmethod) (drop_field _ _ _)) ?_
  · show 50 + 1 ≤ usizeMax
    decide
  refine .trans (skip_turn nofun (decodeURI_toBytes hlawful _ ?_ huri) (drop_field _ _ _)) ?_
  · show 2000 + 1 ≤ usizeMax
    decide
  exact skip_turn nofun (decodeVersion_encoded rest) rfl

/-- **A request is read step by step**, whatever follows it. -/
theorem skips_encode (hlawful : RequestURI.Lawful URI) {request : Request URI}
    (hr : request.Sendable) (l : ContentLength) (t : Bytes) :
    ∃ d' : RequestDecoder URI URIError,
      Skips (stepOf turn) Whole ⟨.new, .default, l, .method⟩ (request.encode ++ t) d' t ∧
        d'.state = .end ∧ d'.config = .default ∧ d'.builder.build = .ok request.received := by
  obtain ⟨body, headers, method, uri, version, hversion⟩ := request
  subst hversion
  obtain ⟨l', hbody, hl'⟩ :=
    bodyLength_received (headerErrors : HeaderErrors (DecodeError URIError)) hr.rest
  have hline : Request.encode ⟨body, headers, method, uri, .rtsp2_0, rfl⟩ ++ t =
      method.asStr ++ SP :: (RequestURI.toBytes uri ++ SP :: (ascii "RTSP/2.0" ++ CRLF ++
        ((headers.received body).entries.flatMap encodeEntry ++ (CRLF ++ (body ++ t))))) := by
    simp [Request.encode, encodeRest_eq, Version.asEncoded]
  have hheaders :=
    headers_skips (P := Whole) turn (behindLine l method uri)
      (headerErrors : HeaderErrors (DecodeError URIError)) Limits.default_ample
      (fun m b name value n h => decodeHeader_line h) (fun m b h _ => h) (m := .empty) (body ++ t)
      (List.nil_append _).symm (received_fits hr.rest) (received_count hr.rest)
  let d : RequestDecoder URI URIError := behindLine l method uri (headers.received body)
  have hended : Skips (stepOf turn) Whole d (CRLF ++ (body ++ t))
      { d with state := .body, contentLength := l' } (body ++ t) :=
    .single (fun _ _ _ => empty_whole)
      (stepOf_complete (decodeHeader_ended (decodeHeader_empty _ _ hbody))) rfl
  rw [hline]
  refine ⟨_, .trans (skips_line hlawful hr.method hr.uri l _) <| .trans hheaders <|
    .trans hended (skip_turn nofun (decodeBody_sent t hl') (List.drop_left' rfl)), ?_⟩
  exact ⟨rfl, rfl, rfl⟩

end RequestDecoder

end Rtsp
