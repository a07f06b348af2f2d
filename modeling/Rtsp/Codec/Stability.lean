import Rtsp.Codec.Stability.Headers

/-!
# What arriving bytes change

For every step of the two decoders, when its answer on a buffer is also its answer once
more bytes have arrived: always, but at two torn places. There the buffer is as long as
a header value or a reason phrase may be with its line break, it ends in `CR`, and the
`LF` has not arrived: the step counts the field as too long, though the whole field is
not.

Only a response can be torn in its reason phrase (`TornPhrase`); the information line of
a request is read up to spaces, and a separator of one byte cannot be torn.

The statements are about one turn of a decoder (`turn_stands`) and about any buffer, not
about the buffers that a run leads to. Which cuttings of a stream are torn is worked out
from them in `Codec.Chunks`.
-/

namespace Rtsp

open Syntax Lib

namespace RequestDecoder

open Decoder

variable {URI URIError : Type} {d : RequestDecoder URI URIError} {b t : Bytes}

theorem decodeHeader_stands (hconfig : d.config.Regular)
    (h : ¬ TornHeader d.config.toLimits d.builder.headers b t) :
    Stands .incomplete d.decodeHeader b t := by
  unfold Stands decodeHeader
  rcases Decoder.decodeHeader_stands (headerErrors : HeaderErrors (DecodeError URIError)) hconfig h
    with hl | hl
  · exact .inl (by rw [hl, ok_bind])
  · exact .inr (by rw [hl])

theorem decodeMethod_stands : Stands .incomplete d.decodeMethod b t := by
  refine readField_stands fun field hlen => ?_
  split
  · exact consume_append hlen
  · rfl

theorem decodeURI_stands [RequestURI URI URIError] : Stands .incomplete d.decodeURI b t := by
  refine readField_stands fun field hlen => ?_
  split
  · exact consume_append hlen
  · rfl

theorem decodeVersion_stands : Stands .incomplete d.decodeVersion b t := by
  unfold Stands decodeVersion
  by_cases hlen : b.length < 10
  · exact .inl (if_pos hlen)
  · right
    have hlen' : ¬ (b ++ t).length < 10 := by simp; omega
    rw [if_neg hlen, if_neg hlen', slice_append (by omega), slice_append (by omega)]
    simp only [consume_append (b := b) (t := t) (by omega : 10 ≤ b.length)]

theorem decodeBody_stands : Stands .incomplete d.decodeBody b t := by
  unfold Stands decodeBody
  cases hbody : Decoder.decodeBody d.contentLength b with
  | none => exact .inl rfl
  | some body =>
    obtain ⟨hlen, happ⟩ := decodeBody_append (t := t) hbody
    right
    rw [happ]
    exact consume_append hlen

/-- **The request decoder's answers stand**, but for a torn header value. -/
theorem turn_stands [RequestURI URI URIError] (hconfig : d.config.Regular)
    (h : d.state = .header → ¬ TornHeader d.config.toLimits d.builder.headers b t) :
    Stands .incomplete d.turn b t := by
  unfold turn
  cases hstate : d.state with
  | header => exact decodeHeader_stands hconfig (h hstate)
  | method => exact decodeMethod_stands
  | uri => exact decodeURI_stands
  | version => exact decodeVersion_stands
  | body => exact decodeBody_stands
  | «end» => exact .inr rfl
  | error e => exact .inr rfl

end RequestDecoder

namespace ResponseDecoder

open Decoder

variable {d : ResponseDecoder} {b t : Bytes}

theorem decodeHeader_stands (hconfig : d.config.Regular)
    (h : ¬ TornHeader d.config.toLimits d.builder.headers b t) :
    Stands .incomplete d.decodeHeader b t := by
  unfold Stands decodeHeader
  rcases Decoder.decodeHeader_stands headerErrors hconfig h with hl | hl
  · exact .inl (by rw [hl, ok_bind])
  · exact .inr (by rw [hl])

/-- A reason phrase torn between `CR` and `LF` one byte past the longest one. -/
def TornPhrase (max : Nat) (b t : Bytes) : Prop :=
  ∃ b' t', b = b' ++ [CR] ∧ t = LF :: t' ∧ b.length = max + 2 ∧ (CR, LF) ∉ windows2 b

theorem firstLineBreak_lt {n i : Nat} (h : firstLineBreak b n = some i) : i + 2 ≤ b.length := by
  have := findIdx?_lt h
  simp only [windows2_length] at this
  omega

theorem firstLineBreak_append {n i : Nat} (h : firstLineBreak b n = some i) :
    firstLineBreak (b ++ t) n = some i := by
  obtain ⟨w, hw⟩ := windows2_prefix b t
  rw [firstLineBreak, ← hw]
  exact findIdx?_take_append h

theorem firstLineBreak_eq_none {n : Nat} :
    firstLineBreak b n = none ↔ (CR, LF) ∉ (windows2 b).take n := by
  rw [firstLineBreak, List.findIdx?_eq_none_iff]
  constructor
  · intro h hmem
    simpa using h _ hmem
  · intro h x hx
    simpa using fun he : x = (CR, LF) => h (he ▸ hx)

/-- A phrase that was too long stays so, unless its line break was torn apart. -/
theorem firstLineBreak_none_append {max : Nat} (hlen : max + 2 ≤ b.length)
    (hb : firstLineBreak b (max + 2) = none) (h : ¬ TornPhrase max b t) :
    firstLineBreak (b ++ t) (max + 2) = none := by
  rcases Nat.lt_or_eq_of_le hlen with hlt | heq
  · rw [firstLineBreak, take_windows2_of_lt hlt]
    exact hb
  · rcases List.eq_nil_or_concat b with rfl | ⟨b', a, rfl⟩
    · simp at hlen
    rw [List.concat_eq_append] at *
    have hn : max + 2 = b'.length + 1 := by simpa using heq
    cases t with
    | nil => rwa [List.append_nil]
    | cons c t' =>
      have htake : (windows2 (b' ++ [a])).take (max + 2) = windows2 (b' ++ [a]) :=
        List.take_of_length_le (by simp; omega)
      rw [firstLineBreak_eq_none, htake] at hb
      rw [firstLineBreak_eq_none, hn, take_windows2_open]
      intro hmem
      rcases List.mem_append.mp hmem with hold | hnew
      · exact hb hold
      · obtain ⟨rfl, rfl⟩ := Prod.mk.inj (List.mem_singleton.mp hnew)
        exact h ⟨b', t', rfl, rfl, heq.symm, hb⟩

/-- A buffer with a line break does not hold a phrase that is too long. -/
theorem decodeReasonPhrase_of_firstLineBreak {i : Nat} {r : Turn}
    (hi : firstLineBreak b (d.config.reasonPhraseMaxLength + 2) = some i)
    (hmax : d.config.reasonPhraseMaxLength + 2 ≤ usizeMax)
    (h : d.decodeReasonPhrase b = .ok r) :
    (∃ d' n, r = .complete d' n) ∨ ∃ e, r = .error 0 (.reasonPhrase e) := by
  rw [decodeReasonPhrase, usizeAdd_of_le hmax, ok_bind, hi] at h
  obtain ⟨_, _, h⟩ := bind_eq_ok h
  split at h
  · next e _ => cases h; exact .inr ⟨e, rfl⟩
  · exact .inl ⟨_, _, (consume_eq_ok h).1⟩

/-- A torn phrase is too long on the buffer, and has a line break on the longer one. -/
theorem decodeReasonPhrase_torn (hmax : d.config.reasonPhraseMaxLength + 2 ≤ usizeMax)
    (h : TornPhrase d.config.reasonPhraseMaxLength b t) :
    d.decodeReasonPhrase b = .ok (.error 0 .reasonPhraseTooLong) ∧
      ∃ i, firstLineBreak (b ++ t) (d.config.reasonPhraseMaxLength + 2) = some i := by
  obtain ⟨b', t', rfl, rfl, hlen, hnone⟩ := h
  have hn : d.config.reasonPhraseMaxLength + 2 = b'.length + 1 := by simpa using hlen.symm
  constructor
  · have htake : (windows2 (b' ++ [CR])).take (b'.length + 1) = windows2 (b' ++ [CR]) :=
      List.take_of_length_le (by simp)
    rw [decodeReasonPhrase, usizeAdd_of_le hmax, ok_bind, hn,
      firstLineBreak_eq_none.mpr (by rwa [htake])]
    simp
  · rw [← Option.ne_none_iff_exists', Ne, hn, firstLineBreak_eq_none, take_windows2_open]
    simp

theorem decodeReasonPhrase_stands (h : ¬ TornPhrase d.config.reasonPhraseMaxLength b t) :
    Stands .incomplete d.decodeReasonPhrase b t := by
  unfold Stands decodeReasonPhrase
  cases hmax : usizeAdd d.config.reasonPhraseMaxLength 2 with
  | error p => exact .inr rfl
  | ok max =>
    have hmax : max = d.config.reasonPhraseMaxLength + 2 := by
      unfold usizeAdd at hmax
      split at hmax
      · cases hmax; rfl
      · cases hmax
    subst hmax
    simp only [ok_bind]
    cases hi : firstLineBreak b (d.config.reasonPhraseMaxLength + 2) with
    | some i =>
      have hlt := firstLineBreak_lt hi
      right
      rw [firstLineBreak_append hi]
      simp only [slice_append (by omega : i ≤ b.length), consume_append hlt]
    | none =>
      by_cases hlen : d.config.reasonPhraseMaxLength + 2 ≤ b.length
      · have hlen' : d.config.reasonPhraseMaxLength + 2 ≤ (b ++ t).length := by simp; omega
        right
        rw [firstLineBreak_none_append hlen hi h]
        simp only [hlen, hlen', if_true]
      · exact .inl (if_neg hlen)

theorem decodeStatusCode_stands : Stands .incomplete d.decodeStatusCode b t := by
  unfold Stands decodeStatusCode
  by_cases hlen : b.length < 4
  · exact .inl (if_pos hlen)
  · right
    have hlen' : ¬ (b ++ t).length < 4 := by simp; omega
    rw [if_neg hlen, if_neg hlen', index_append (by omega), slice_append (by omega)]
    simp only [consume_append (b := b) (t := t) (by omega : 4 ≤ b.length)]

theorem decodeVersion_stands : Stands .incomplete d.decodeVersion b t := by
  unfold Stands decodeVersion
  by_cases hlen : b.length < 9
  · exact .inl (if_pos hlen)
  · right
    have hlen' : ¬ (b ++ t).length < 9 := by simp; omega
    rw [if_neg hlen, if_neg hlen', index_append (by omega), slice_append (by omega)]
    simp only [consume_append (b := b) (t := t) (by omega : 9 ≤ b.length)]

theorem decodeBody_stands : Stands .incomplete d.decodeBody b t := by
  unfold Stands decodeBody
  cases hbody : Decoder.decodeBody d.contentLength b with
  | none => exact .inl rfl
  | some body =>
    obtain ⟨hlen, happ⟩ := decodeBody_append (t := t) hbody
    right
    rw [happ]
    exact consume_append hlen

/-- **The response decoder's answers stand**, but for a torn header value and a torn
    reason phrase. -/
theorem turn_stands (hconfig : d.config.Regular)
    (hheader : d.state = .header → ¬ TornHeader d.config.toLimits d.builder.headers b t)
    (hphrase : d.state = .reasonPhrase → ¬ TornPhrase d.config.reasonPhraseMaxLength b t) :
    Stands .incomplete d.turn b t := by
  unfold turn
  cases hstate : d.state with
  | header => exact decodeHeader_stands hconfig (hheader hstate)
  | statusCode => exact decodeStatusCode_stands
  | reasonPhrase => exact decodeReasonPhrase_stands (hphrase hstate)
  | version => exact decodeVersion_stands
  | body => exact decodeBody_stands
  | «end» => exact .inr rfl
  | error e => exact .inr rfl

end ResponseDecoder
end Rtsp
