import Rtsp.Codec.Raising.Request

/-!
# Raising the limits on a response

As for requests. The one sum in front of the headers is that for the reason phrase, and
since it is taken for the whole line break it is `max + 2`. Where the headers begin
depends on how long the phrase is, which `reasonPhraseText` takes from the input.

A line break that was found among the first pairs is found among more pairs too, at the
same place. So a larger limit does not change where the phrase ends, which is the step
that the request decoder has no counterpart of.
-/

namespace Rtsp

open Syntax Lib Decoder

namespace ResponseDecoder

/-- What stands behind the status line. -/
def headerPart (s : Bytes) : Bytes := (s.drop 13).drop ((reasonPhraseText s).length + 2)

/-- Whether the headers of an input do not end at once. -/
def hasHeader (s : Bytes) : Bool := !CRLF.isPrefixOf (headerPart s)

/-- The sums that a decoder takes of its limits to read an input. -/
structure Config.Computes (config : Config) (headers : Bool) : Prop where
  reasonPhrase : config.reasonPhraseMaxLength + 2 ≤ usizeMax
  headers : headers = true → config.toLimits.Ample

structure Config.RaisedTo (config config' : Config) : Prop where
  limits : config.toLimits.RaisedTo config'.toLimits
  reasonPhrase : config.reasonPhraseMaxLength ≤ config'.reasonPhraseMaxLength

/-- Where a decoder is in an input, and the sums it has taken on the way. -/
def At (s : Bytes) (d : ResponseDecoder) (b : Bytes) : Prop :=
  match d.state with
  | .version => b = s
  | .statusCode => b = s.drop 9
  | .reasonPhrase => b = s.drop 13
  | .header => d.config.reasonPhraseMaxLength + 2 ≤ usizeMax ∧
      (b = headerPart s ∨ hasHeader s = true ∧ d.config.toLimits.Ample)
  | .body | .end => d.config.Computes (hasHeader s)
  | .error _ => True

variable {d d' : ResponseDecoder} {s b : Bytes} {n : Nat}

/-- A header line is read only where there are headers. -/
theorem At.hasHeader (hd : At s d b) (hstate : d.state = .header)
    (hline : CRLF.isPrefixOf b = false) : hasHeader s = true := by
  unfold At at hd
  rw [hstate] at hd
  rcases hd.2 with rfl | ⟨hheader, -⟩
  · rw [ResponseDecoder.hasHeader, hline]
    rfl
  · exact hheader

/-- Each turn takes the decoder on in the input. -/
theorem Completes.at (h : Completes d b d' n) (hd : At s d b) : At s d' (b.drop n) := by
  have hheader := fun hstate hline => hd.hasHeader hstate hline
  unfold At at hd ⊢
  cases h with
  | version hstate =>
    rw [hstate] at hd
    exact congrArg (List.drop 9) hd
  | statusCode hstate =>
    rw [hstate] at hd
    dsimp only at hd ⊢
    rw [hd, List.drop_drop]
  | @reasonPhrase text rest phrase hstate hb hmax hlen hphrase =>
    rw [hstate] at hd
    have hcr : CR ∉ text := ReasonPhrase.tryFrom_eq_ok hphrase ▸ phrase.cr_not_mem
    refine ⟨hmax, .inl ?_⟩
    rw [headerPart, reasonPhraseText_eq (hd.symm.trans hb) hcr, hd]
  | header hstate hread =>
    rw [hstate] at hd
    dsimp only
    rw [hstate]
    exact ⟨hd.1, .inr ⟨hheader hstate hread.notEmpty, hread.ample⟩⟩
  | @headersEnd rest contentLength hstate hb =>
    rw [hstate] at hd
    refine ⟨hd.1, fun hhas => ?_⟩
    rcases hd.2 with heq | ⟨-, hample⟩
    · -- The headers of the input end here, at once.
      rw [ResponseDecoder.hasHeader, ← heq, hb] at hhas
      cases hhas
    · exact hample
  | body hstate =>
    rw [hstate] at hd
    exact hd

/-- The line break behind the phrase is found among more pairs as well. -/
theorem firstLineBreak_mono {n n' i : Nat} (hle : n ≤ n') (h : firstLineBreak b n = some i) :
    firstLineBreak b n' = some i :=
  (List.take_prefix_take_left (l := windows2 b) hle).findIdx?_eq_some h

/-- **The decoder with larger limits takes the same turn.** -/
theorem turn_raised {config' : Config} (hle : d.config.RaisedTo config')
    (hsums : config'.Computes (hasHeader s)) (hd : At s d b)
    (h : d.turn b = .ok (.complete d' n)) :
    { d with config := config' }.turn b = .ok (.complete { d' with config := config' } n) := by
  have hheader := fun hstate hline => hd.hasHeader hstate hline
  unfold turn at h ⊢
  dsimp only
  cases hstate : d.state with
  | version =>
    rw [hstate] at h
    simp only [decodeVersion] at h ⊢
    split at h
    · cases h
    · next hlen =>
      rw [if_neg hlen]
      obtain ⟨x, hx, h⟩ := bind_eq_ok h
      rw [hx, ok_bind]
      split at h
      · cases h
      · next hspace =>
        rw [if_neg hspace]
        obtain ⟨text, htext, h⟩ := bind_eq_ok h
        rw [htext, ok_bind]
        split at h
        · cases h
        · exact consume_map (fun d => { d with config := config' }) h
        · cases h
  | statusCode =>
    rw [hstate] at h
    simp only [decodeStatusCode] at h ⊢
    split at h
    · cases h
    · next hlen =>
      rw [if_neg hlen]
      obtain ⟨x, hx, h⟩ := bind_eq_ok h
      rw [hx, ok_bind]
      split at h
      · cases h
      · next hspace =>
        rw [if_neg hspace]
        obtain ⟨text, htext, h⟩ := bind_eq_ok h
        rw [htext, ok_bind]
        split at h
        · cases h
        · exact consume_map (fun d => { d with config := config' }) h
  | reasonPhrase =>
    rw [hstate] at h
    obtain ⟨max, hadd, h⟩ := bind_eq_ok h
    obtain ⟨-, rfl⟩ := usizeAdd_eq_ok hadd
    simp only [decodeReasonPhrase]
    rw [usizeAdd_of_le hsums.reasonPhrase, ok_bind]
    split at h
    · next i hi =>
      rw [firstLineBreak_mono (Nat.add_le_add_right hle.reasonPhrase 2) hi]
      dsimp only
      obtain ⟨text, htext, h⟩ := bind_eq_ok h
      rw [htext, ok_bind]
      split at h
      · cases h
      · exact consume_map (fun d => { d with config := config' }) h
    · split at h <;> cases h
  | header =>
    rw [hstate] at h
    obtain ⟨l, hl, h⟩ := bind_eq_ok h
    cases l with
    | header headerName headerValue m =>
      cases h
      obtain ⟨name, value, rest, hread, -⟩ := decodeHeader_header hl
      have hample := hsums.headers (hheader hstate hread.notEmpty)
      simp only [decodeHeader]
      rw [decodeHeader_raised hle.limits hample hl, ok_bind, hstate]
    | ended contentLength =>
      cases h
      simp only [decodeHeader]
      rw [decodeHeader_ended_raised hle.limits hl, ok_bind]
    | endedWithError e => cases h
    | error e => cases h
    | incomplete => cases h
  | body =>
    rw [hstate] at h
    simp only [decodeBody] at h ⊢
    split at h
    · cases h
    · exact consume_map (fun d => { d with config := config' }) h
  | «end» =>
    rw [hstate] at h
    obtain ⟨_, _, h⟩ := bind_eq_ok h
    cases h
  | error e =>
    rw [hstate] at h
    cases h

/-- A message does not depend on the limits once its parts are there. -/
theorem message_raised {config' : Config} {response : Response}
    (h : d.turn b = .ok (.message response d')) :
    { d with config := config' }.turn b =
      .ok (.message response { d' with config := config' }) := by
  cases turn_came h with
  | message hstate hbuild =>
    unfold turn
    dsimp only
    rw [hstate]
    dsimp only
    rw [hbuild]
    rfl

/-- Where a decoder with these limits is. -/
def Located (config : Config) (s : Bytes) (d : ResponseDecoder) (b : Bytes) : Prop :=
  d.config = config ∧ At s d b

theorem located_withConfig (config : Config) (s : Bytes) :
    Located config s (withConfig config) s := ⟨rfl, rfl⟩

theorem Located.turn {config : Config} (hd : Located config s d b)
    (hturn : d.turn b = .ok (.complete d' n)) : Located config s d' (b.drop n) := by
  refine ⟨?_, (turn_complete hturn).at hd.2⟩
  cases turn_moves hturn with
  | complete _ hconfig => exact hconfig.trans hd.1

/-- **A decoder with larger limits accepts what was accepted exactly if it can take the sums.** -/
theorem raising_iff {config config' : Config} {response : Response}
    (hle : config.RaisedTo config')
    (h : (withConfig config).decode s = .ok (.complete response, n, d)) :
    (∃ n' d', (withConfig config').decode s = .ok (.complete response, n', d')) ↔
      config'.Computes (hasHeader s) := by
  constructor
  · rintro ⟨n', d', h'⟩
    obtain ⟨d₁, k, ⟨hconfig, hat⟩, hlast⟩ := decodeLoop_last (J := Located config' s)
      (fun _ _ _ _ hd₁ hturn => hd₁.turn hturn) (located_withConfig config' s) h'
    cases hlast with
    | message hturn =>
      cases turn_came hturn with
      | message hstate =>
        unfold At at hat
        rw [hstate] at hat
        exact hconfig ▸ hat
  · intro hsums
    have hsimulates := decodeLoop_simulates
      (f := fun d : ResponseDecoder => { d with config := config' })
      (J := Located config s)
      (fun _ _ _ _ hd₁ hturn => ⟨hd₁.turn hturn, turn_raised (hd₁.1 ▸ hle) hsums hd₁.2 hturn⟩)
      (fun _ _ _ _ _ hturn => message_raised hturn) (located_withConfig config s) h
    exact ⟨n, _, hsimulates⟩

end ResponseDecoder

end Rtsp
