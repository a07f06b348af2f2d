import Rtsp.Codec.Reading

/-!
# No header is injected

What `HeaderValue::try_from` accepts is what the decoders read as one value: a
value that has been checked ends for `decode_header_value` at the first line
break behind it that does not fold, and not before that line break is there
(`no_injection`).

It is the two sides of the same rule that are held against each other. A header value is
checked once when it is made, by a scan of its own, and later found in the stream by the
search for its end; the two are separate functions that share no code. If a value could
contain its own end, whoever sets a header could write the next one.

The rule of both is that a line break belongs to the value if and only if a blank
follows. The result says more than that nothing is injected: the decoder returns the
very bytes of the value, and with any part of what follows it missing, down to the byte
that tells a fold from an end, it asks for more and does not guess.
-/

namespace Rtsp

open Syntax Lib

namespace Decoder

variable {ε : Type} {max : Nat} {value : Bytes} {c : Byte} {rest : Bytes}

/-- What has come of a folded value and its line break does not end it. -/
theorem decodeHeaderValue_cut (tooLong : ε) (hmax : max + 1 ≤ usizeMax)
    (hvalue : HeaderValue.Folded value) (hlen : value.length + 1 ≤ max) {k : Nat}
    (hk : k ≤ value.length + 2) :
    decodeHeaderValue max tooLong ((value ++ CR :: LF :: c :: rest).take k) =
      .ok .incomplete := by
  have hlength : ((value ++ CR :: LF :: c :: rest).take k).length ≤ value.length + 2 :=
    Nat.le_trans (List.length_take_le _ _) hk
  have htake : ∀ {i b}, ((value ++ CR :: LF :: c :: rest).take k)[i]? = some b →
      (value ++ CR :: LF :: c :: rest)[i]? = some b := fun h => by
    rw [List.getElem?_take] at h
    split at h
    · exact h
    · cases h
  generalize hb : (value ++ CR :: LF :: c :: rest).take k = b at hlength htake
  rw [decodeHeaderValue_eq hmax]
  cases hfind : (lineBreaks b (max + 1)).find? fun i => !folds b i with
  | some i =>
    -- A line break with a byte behind it is one of the value's own, and so it folds.
    refine if_neg fun hi => ?_
    have hcr := htake (mem_lineBreaks.mp (List.mem_of_find?_eq_some hfind)).2.1
    have hlt : i < value.length := by omega
    rw [List.getElem?_append_left hlt] at hcr
    obtain ⟨w, hw, hws⟩ := hvalue.getElem?_cr hcr
    have hw' : b[i + 2]? = some w := by
      have hlt' := (List.getElem?_eq_some_iff.mp hw).1
      obtain ⟨w', hw'⟩ : ∃ w', b[i + 2]? = some w' := ⟨_, List.getElem?_eq_getElem hi⟩
      have hsame := htake hw'
      rw [List.getElem?_append_left hlt', hw] at hsame
      exact hw'.trans hsame.symm
    have hfolds : folds b i = true := by
      rw [folds, hw']
      exact hws
    have hnot := List.find?_some hfind
    rw [hfolds] at hnot
    cases hnot
  | none =>
    refine if_neg fun hlong => ?_
    -- The buffer is then all of the value and its line break, which does not fold in it.
    have hk' : k = value.length + 2 := by
      have hshort := List.length_take_le k (value ++ CR :: LF :: c :: rest)
      rw [hb] at hshort
      omega
    have hwhole : b = value ++ [CR, LF] := by
      rw [← hb, hk', List.take_append, List.take_of_length_le (Nat.le_add_right _ 2)]
      simp
    subst hwhole
    have hmem : value.length ∈ lineBreaks (value ++ [CR, LF]) (max + 1) :=
      mem_lineBreaks.mpr ⟨by omega, by simp, by simp⟩
    have hfolds := List.find?_eq_none.mp hfind _ hmem
    simp [folds] at hfolds

/-- **No header is injected**: the header values are the texts that consist of lines, and such
    a value is read back as it stands, up to its own line break and not before. -/
theorem no_injection (value : Bytes) :
    ((∃ v, HeaderValue.tryFrom value = .ok v) ↔
      ∃ cs, fromUtf8 value = some cs ∧ HeaderValue.Lines cs) ∧
    ∀ v, HeaderValue.tryFrom value = .ok v → ∀ (ε : Type) (tooLong : ε) max c rest,
      value.length + 2 ≤ max → max + 1 ≤ usizeMax → isSpaceOrTab c = false →
      decodeHeaderValue max tooLong (SP :: value ++ CR :: LF :: c :: rest) =
        .ok (.complete (SP :: value)) ∧
      ∀ k ≤ value.length + 3,
        decodeHeaderValue max tooLong ((SP :: value ++ CR :: LF :: c :: rest).take k) =
          .ok .incomplete := by
  refine ⟨HeaderValue.tryFrom_iff, fun v h ε tooLong max c rest hlen hmax hc => ?_⟩
  have hfolded : HeaderValue.Folded (SP :: value) := by
    rw [← HeaderValue.tryFrom_eq_ok h]
    exact .byte (by decide) v.folded
  have hlength : (SP :: value).length = value.length + 1 := rfl
  refine ⟨decodeHeaderValue_folded tooLong rest hmax hfolded (by omega) hc, fun k hk => ?_⟩
  exact decodeHeaderValue_cut tooLong hmax hfolded (by omega) (by omega)

/-- A folded value, up to the next header. -/
theorem no_injection_folded :
    decodeHeaderValue 100 ResponseDecoder.DecodeError.headerValueTooLong
        (ascii " a\r\n b\r\nCSeq: 1") = .ok (.complete (ascii " a\r\n b")) ∧
      decodeHeaderValue 100 ResponseDecoder.DecodeError.headerValueTooLong (ascii " a\r\n b\r\n") =
        .ok .incomplete := by
  obtain ⟨v, hv⟩ := (no_injection (ascii "a\r\n b")).1.mpr ⟨[97, 13, 10, 32, 98], by decide,
    .text (.inr (.inl (by decide))) (.fold (.inl rfl) (.text (.inr (.inl (by decide)))
      (.text (.inr (.inl (by decide))) .nil)))⟩
  obtain ⟨hread, hcut⟩ := (no_injection (ascii "a\r\n b")).2 v hv _
    ResponseDecoder.DecodeError.headerValueTooLong 100 67 (ascii "Seq: 1") (by decide) (by decide)
    (by decide)
  exact ⟨hread, hcut 8 (by decide)⟩

end Decoder
end Rtsp
