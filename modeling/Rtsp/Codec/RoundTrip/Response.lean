import Rtsp.Codec.RoundTrip.Request

/-!
# A response is read back

As for a request, with two differences. The status line ends with a reason phrase that
is searched for its line break, so it can be torn, and a phrase that is not too long is
not (`phrase_whole`). And the phrase that was read is looked at once more when the
message is built: that of a standard status code is replaced by the canonical one, for
which reason the two have to agree to begin with.

The decoder starts with any content length left over, since the codec uses one decoder
for all responses and does not clear that field.
-/

namespace Rtsp

open Syntax Lib Decoder Encoder

namespace ResponseDecoder

/-- No part of the buffer that may arrive first is torn. -/
def Whole (d : ResponseDecoder) (buffer : Bytes) : Prop :=
  ∀ b t, buffer = b ++ t →
    (d.state = .header → ¬ TornHeader d.config.toLimits d.builder.headers b t) ∧
      (d.state = .reasonPhrase → ¬ TornPhrase d.config.reasonPhraseMaxLength b t)

variable {d : ResponseDecoder}

theorem decodeVersion_encoded (rest : Bytes) :
    d.decodeVersion (ascii "RTSP/2.0" ++ [SP] ++ rest) =
      .ok (.complete
        { d with builder := { d.builder with version := .rtsp2_0 }, state := .statusCode } 9) := by
  have hlen : ¬ (ascii "RTSP/2.0" ++ [SP] ++ rest).length < 9 := by
    rw [List.length_append]
    exact Nat.not_lt.mpr (Nat.le_add_right _ _)
  have hspace : index (ascii "RTSP/2.0" ++ [SP] ++ rest) 8 = .ok SP :=
    index_append (b := ascii "RTSP/2.0" ++ [SP]) (by decide)
  have hversion : slice (ascii "RTSP/2.0" ++ [SP] ++ rest) 0 8 = .ok (ascii "RTSP/2.0") :=
    slice_append (b := ascii "RTSP/2.0" ++ [SP]) (by decide)
  rw [decodeVersion, if_neg hlen, hspace, ok_bind, if_neg (fun h => h rfl), hversion, ok_bind]
  exact consume_of_le _ (Nat.not_lt.mp hlen)

theorem decodeStatusCode_toBytes {code : StatusCode} (rest : Bytes) :
    d.decodeStatusCode (code.toBytes ++ SP :: rest) =
      .ok (.complete
        { d with builder := { d.builder with statusCode := code }, state := .reasonPhrase } 4) := by
  obtain ⟨hdigits, hread⟩ := code.tryFrom_toBytes
  have hlen : ¬ (code.toBytes ++ SP :: rest).length < 4 := by
    simp only [List.length_append, List.length_cons, hdigits]
    omega
  have hspace : index (code.toBytes ++ SP :: rest) 3 = .ok SP := by
    rw [index, List.getElem?_append_right (Nat.le_of_eq hdigits), hdigits]
    rfl
  have hcode : slice (code.toBytes ++ SP :: rest) 0 3 = .ok code.toBytes := by
    rw [slice_append (Nat.le_of_eq hdigits.symm), slice_zero (Nat.le_of_eq hdigits.symm),
      ← hdigits, List.take_length]
  rw [decodeStatusCode, if_neg hlen, hspace, ok_bind, if_neg (fun h => h rfl), hcode, ok_bind,
    hread]
  exact consume_of_le _ (Nat.not_lt.mp hlen)

/-- The line break behind a phrase is the first one. -/
theorem firstLineBreak_phrase {phrase : Bytes} {n : Nat} (rest : Bytes) (hcr : CR ∉ phrase)
    (hlen : phrase.length < n) :
    firstLineBreak (phrase ++ CR :: LF :: rest) n = some phrase.length := by
  have hbefore : ∀ w ∈ windows2 (phrase ++ [CR]), (w == (CR, LF)) = false := by
    rintro ⟨x, y⟩ hw
    rw [beq_eq_false_iff_ne]
    rintro ⟨⟩
    obtain ⟨i, hi⟩ := List.mem_iff_getElem?.mp hw
    obtain ⟨hx, hy⟩ := windows2_getElem?.mp hi
    have hlt := (List.getElem?_eq_some_iff.mp hy).1
    rw [List.getElem?_append_left (by simpa using hlt)] at hx
    exact hcr (List.mem_of_getElem? hx)
  have hwindows : (windows2 (phrase ++ [CR])).length = phrase.length := by simp
  rw [firstLineBreak, windows2_append, windows2_cons_cons, ← hwindows]
  exact findIdx?_append_cons hbefore (by simp) (by rwa [hwindows])

theorem decodeReasonPhrase_text {phrase : ReasonPhrase} (rest : Bytes)
    (hmax : d.config.reasonPhraseMaxLength + 2 ≤ usizeMax)
    (hlen : phrase.text.length ≤ d.config.reasonPhraseMaxLength) :
    d.decodeReasonPhrase (phrase.text ++ CR :: LF :: rest) =
      .ok (.complete { d with
        builder := { d.builder with customReasonPhrase := some phrase }
        state := .header } (phrase.text.length + 2)) := by
  rw [decodeReasonPhrase, usizeAdd_of_le hmax, ok_bind,
    firstLineBreak_phrase rest phrase.cr_not_mem (by omega)]
  dsimp only
  rw [slice_append (Nat.le_refl _), slice_zero (Nat.le_refl _), List.take_length, ok_bind,
    phrase.tryFrom_text]
  exact consume_of_le _ (by simp)

/-- A phrase that is not too long is not torn. -/
theorem phrase_whole {phrase rest b t : Bytes} {max : Nat} (hlen : phrase.length ≤ max)
    (hsplit : phrase ++ CR :: LF :: rest = b ++ t) : ¬ TornPhrase max b t := by
  rintro ⟨b', t', -, -, hb, hnone⟩
  have hget : ∀ i, i < b.length → b[i]? = (phrase ++ CR :: LF :: rest)[i]? := fun i hi => by
    rw [hsplit, List.getElem?_append_left hi]
  refine hnone (List.mem_iff_getElem?.mpr ⟨phrase.length, windows2_getElem?.mpr ⟨?_, ?_⟩⟩)
  · rw [hget _ (by omega)]
    simp
  · rw [hget _ (by omega)]
    simp

theorem decodeHeader_line {name : HeaderName} {value : HeaderValue} {b : Bytes} {n : Nat}
    (h : Decoder.decodeHeader d.config.toLimits headerErrors d.builder.headers b =
      .ok (.header name value n)) :
    d.decodeHeader b = .ok (.complete { d with builder := d.builder.header name value } n) := by
  rw [decodeHeader, h, ok_bind]

theorem decodeHeader_ended {l : ContentLength} {b : Bytes}
    (h : Decoder.decodeHeader d.config.toLimits headerErrors d.builder.headers b =
      .ok (.ended l)) :
    d.decodeHeader b = .ok (.complete { d with state := .body, contentLength := l } 2) := by
  rw [decodeHeader, h, ok_bind]

theorem decodeBody_sent {body : Bytes} (t : Bytes) (h : d.contentLength.val = body.length) :
    d.decodeBody (body ++ t) =
      .ok (.complete { d with state := .end, builder := { d.builder with body := some body } }
        body.length) := by
  rw [decodeBody, decodeBody_received h, h]
  exact consume_of_le _ (by simp)

/-- The decoder behind the status line, with the headers it has so far. -/
def behindLine (l : ContentLength) (code : StatusCode) (phrase : ReasonPhrase)
    (headers : HeaderMap) : ResponseDecoder where
  builder := { body := none, customReasonPhrase := some phrase, headers, statusCode := code,
               version := .rtsp2_0 }
  config := .default
  contentLength := l
  state := .header

/-- One turn, in a state where nothing can be torn. -/
theorem skip_turn {d' : ResponseDecoder} {b b' : Bytes} {n : Nat} (hheader : d.state ≠ .header)
    (hphrase : d.state ≠ .reasonPhrase) (h : d.turn b = .ok (.complete d' n))
    (hb : b.drop n = b') : Skips (stepOf turn) Whole d b d' b' :=
  .single (fun _ _ _ => ⟨fun hs => absurd hs hheader, fun hs => absurd hs hphrase⟩)
    (stepOf_complete h) hb

theorem skips_line {code : StatusCode} {phrase : ReasonPhrase} (hphrase : phrase.text.length ≤ 50)
    (l : ContentLength) (rest : Bytes) :
    Skips (stepOf turn) Whole ⟨.new, .default, l, .version⟩
      (ascii "RTSP/2.0" ++ [SP] ++ (code.toBytes ++ SP :: (phrase.text ++ CR :: LF :: rest)))
      (behindLine l code phrase .empty) rest := by
  have hdrop : (code.toBytes ++ SP :: (phrase.text ++ CR :: LF :: rest)).drop 4 =
      phrase.text ++ CR :: LF :: rest := by
    have hlen : code.toBytes.length + 1 = 4 := congrArg (· + 1) code.tryFrom_toBytes.1
    rw [← hlen]
    exact drop_field _ _ _
  refine .trans (skip_turn nofun nofun (decodeVersion_encoded _) rfl) ?_
  refine .trans (skip_turn nofun nofun (decodeStatusCode_toBytes _) hdrop) ?_
  refine .single (fun b t hsplit => ⟨nofun, fun _ => phrase_whole hphrase hsplit⟩)
    (stepOf_complete (decodeReasonPhrase_text rest ?_ hphrase)) ?_
  · show 50 + 2 ≤ usizeMax
    decide
  · simp [List.drop_append]

/-- **A response is read step by step**, whatever follows it. -/
theorem skips_encode {response : Response} (hr : response.Sendable) (l : ContentLength)
    (t : Bytes) :
    ∃ d', Skips (stepOf turn) Whole ⟨.new, .default, l, .version⟩ (response.encode ++ t) d' t ∧
      d'.state = .end ∧ d'.config = .default ∧ d'.builder.build = .ok response.received := by
  obtain ⟨body, phrase, headers, code, version, hversion⟩ := response
  subst hversion
  obtain ⟨l', hbody, hl'⟩ := bodyLength_received headerErrors hr.rest
  have hline : Response.encode ⟨body, phrase, headers, code, .rtsp2_0, rfl⟩ ++ t =
      ascii "RTSP/2.0" ++ [SP] ++ (code.toBytes ++ SP :: (phrase.text ++ CR :: LF ::
        ((headers.received body).entries.flatMap encodeEntry ++ (CRLF ++ (body ++ t))))) := by
    simp [Response.encode, encodeRest_eq, Version.asEncoded, CRLF]
  have hheaders :=
    headers_skips (P := Whole) turn (behindLine l code phrase) headerErrors Limits.default_ample
      (fun m b name value n h => decodeHeader_line h)
      (fun m b h b₁ t hsplit => ⟨fun _ => h b₁ t hsplit, fun h => by cases h⟩) (m := .empty)
      (body ++ t) (List.nil_append _).symm (received_fits hr.rest) (received_count hr.rest)
  let d : ResponseDecoder := behindLine l code phrase (headers.received body)
  have hended : Skips (stepOf turn) Whole d (CRLF ++ (body ++ t))
      { d with state := .body, contentLength := l' } (body ++ t) :=
    .single (fun _ _ hsplit => ⟨fun _ => empty_whole hsplit, fun h => by cases h⟩)
      (stepOf_complete (decodeHeader_ended (decodeHeader_empty _ _ hbody))) rfl
  rw [hline]
  refine ⟨_, .trans (skips_line hr.phrase l _) <| .trans hheaders <|
    .trans hended (skip_turn (fun h => by cases h) (fun h => by cases h) (decodeBody_sent t hl')
      (List.drop_left' rfl)), ?_⟩
  refine ⟨rfl, rfl, ?_⟩
  -- A standard code brings its own phrase, which is the one that was sent.
  cases code with
  | extension => rfl
  | standard s =>
    have hphrase : phrase = ⟨s.phrase, s.check_phrase⟩ := hr.canonical _ rfl
    subst hphrase
    rfl

end ResponseDecoder

end Rtsp
