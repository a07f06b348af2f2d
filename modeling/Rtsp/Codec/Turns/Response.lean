import Rtsp.Codec.Turns.Request

/-!
# What a turn of the response decoder did

As for requests. A response has its status code at fixed places and its reason phrase up
to a line break, so its turns look at single bytes of the buffer; `split_of_index` makes
a statement about a front part of the buffer of each such look.

A reason phrase that is custom makes the builder check the status code once more, so
`Formed` has to say of the phrase that it was read, and nothing about which one it is.

No turn is said to be the only one. `Completes` is a relation, and that there is at most
one way on is clear from `turn`, which is a function; what the proofs want is the way
back, from what a turn returned to what was in the buffer.
-/

namespace Rtsp

open Syntax Lib

namespace ResponseDecoder

open Decoder

variable {d d' : ResponseDecoder} {b : Bytes} {n : Nat}

/-- Limits with which a line break more than each fits a `usize`. -/
structure Config.Ample (config : Config) : Prop where
  limits : config.toLimits.Ample
  reasonPhrase : config.reasonPhraseMaxLength + 2 ≤ usizeMax

/-- A complete turn on the buffer `b`. -/
inductive Completes (d : ResponseDecoder) (b : Bytes) : ResponseDecoder → Nat → Prop where
  | version {text rest} : d.state = .version → b = text ++ SP :: rest → text.length = 8 →
      Version.tryDecode text = .ok .rtsp2_0 →
      Completes d b
        { d with builder := { d.builder with version := .rtsp2_0 }, state := .statusCode } 9
  | statusCode {text rest statusCode} : d.state = .statusCode → b = text ++ SP :: rest →
      text.length = 3 → StatusCode.tryFrom text = .ok statusCode →
      Completes d b { d with builder := { d.builder with statusCode }, state := .reasonPhrase } 4
  | reasonPhrase {text rest phrase} : d.state = .reasonPhrase →
      b = text ++ CR :: LF :: rest → d.config.reasonPhraseMaxLength + 2 ≤ usizeMax →
      text.length < d.config.reasonPhraseMaxLength + 2 → ReasonPhrase.tryFrom text = .ok phrase →
      Completes d b
        { d with builder := { d.builder with customReasonPhrase := some phrase }, state := .header }
        (text.length + 2)
  | header {name value rest headerName headerValue} : d.state = .header →
      HeaderRead d.config.toLimits d.builder.headers b name value rest headerName headerValue →
      Completes d b { d with builder := d.builder.header headerName headerValue }
        (name.length + 1 + (value.length + 2))
  | headersEnd {rest contentLength} : d.state = .header → b = CR :: LF :: rest →
      bodyLength d.config.toLimits headerErrors d.builder.headers = .ok contentLength →
      Completes d b { d with state := .body, contentLength } 2
  | body {body rest} : d.state = .body → b = body ++ rest → body.length = d.contentLength.val →
      Completes d b { d with state := .end, builder := { d.builder with body := some body } }
        body.length

/-- The line break that was found lies among the first `n` pairs. -/
theorem firstLineBreak_eq_some {i : Nat} (h : firstLineBreak b n = some i) :
    i < n ∧ b = b.take i ++ CR :: LF :: b.drop (i + 2) := by
  obtain ⟨hlt, hpair, -⟩ := List.findIdx?_eq_some_iff_getElem.mp h
  have hi : i < n := by
    rw [List.length_take] at hlt
    omega
  rw [beq_iff_eq, List.getElem_take] at hpair
  obtain ⟨hcr, hlf⟩ := windows2_getElem?.mp (List.getElem?_eq_some_iff.mpr ⟨_, hpair⟩)
  obtain ⟨hcrlt, hcr⟩ := List.getElem?_eq_some_iff.mp hcr
  obtain ⟨hlflt, hlf⟩ := List.getElem?_eq_some_iff.mp hlf
  have hdrop : b.drop i = CR :: LF :: b.drop (i + 2) := by
    rw [List.drop_eq_getElem_cons hcrlt, List.drop_eq_getElem_cons hlflt, hcr, hlf]
  exact ⟨hi, by rw [← hdrop, List.take_append_drop]⟩

/-- A byte in the buffer has those before it in front, and those behind it. -/
theorem split_of_index {i : Nat} {x : Byte} (hlen : i < b.length) (h : index b i = .ok x) :
    b = b.take i ++ x :: b.drop (i + 1) := by
  rw [index_of_lt hlen] at h
  rw [← Except.ok.inj h, List.getElem_cons_drop, List.take_append_drop]

/-- **What a complete turn did.** -/
theorem turn_complete (h : d.turn b = .ok (.complete d' n)) : Completes d b d' n := by
  unfold turn at h
  cases hstate : d.state with
  | version =>
    rw [hstate] at h
    simp only [decodeVersion] at h
    split at h
    · cases h
    · next hlen =>
      have hlen := Nat.not_lt.mp hlen
      obtain ⟨x, hx, h⟩ := bind_eq_ok h
      have hsplit := split_of_index (by omega) hx
      split at h
      · cases h
      · next hspace =>
        rw [Classical.not_not.mp hspace] at hsplit
        rw [slice_zero (by omega), ok_bind] at h
        split at h
        · cases h
        · next hversion =>
          obtain ⟨heq, -⟩ := consume_eq_ok h
          cases heq
          exact .version hstate hsplit (by simp only [List.length_take]; omega) hversion
        · cases h
  | statusCode =>
    rw [hstate] at h
    simp only [decodeStatusCode] at h
    split at h
    · cases h
    · next hlen =>
      have hlen := Nat.not_lt.mp hlen
      obtain ⟨x, hx, h⟩ := bind_eq_ok h
      have hsplit := split_of_index (by omega) hx
      split at h
      · cases h
      · next hspace =>
        rw [Classical.not_not.mp hspace] at hsplit
        rw [slice_zero (by omega), ok_bind] at h
        split at h
        · cases h
        · next hcode =>
          obtain ⟨heq, -⟩ := consume_eq_ok h
          cases heq
          exact .statusCode hstate hsplit (by simp only [List.length_take]; omega) hcode
  | reasonPhrase =>
    rw [hstate] at h
    obtain ⟨max, hadd, h⟩ := bind_eq_ok h
    obtain ⟨hmax, rfl⟩ := usizeAdd_eq_ok hadd
    split at h
    · next i hi =>
      have hlt := firstLineBreak_lt hi
      rw [slice_zero (by omega), ok_bind] at h
      split at h
      · cases h
      · next phrase hphrase =>
        obtain ⟨heq, -⟩ := consume_eq_ok h
        cases heq
        obtain ⟨hi, hsplit⟩ := firstLineBreak_eq_some hi
        have hlen : (b.take i).length = i := by
          rw [List.length_take, Nat.min_eq_left (by omega)]
        have := Completes.reasonPhrase hstate hsplit hmax (by rwa [hlen]) hphrase
        rwa [hlen] at this
    · split at h <;> cases h
  | header =>
    rw [hstate] at h
    obtain ⟨l, hl, h⟩ := bind_eq_ok h
    cases l with
    | header headerName headerValue m =>
      cases h
      obtain ⟨name, value, rest, hread, rfl⟩ := decodeHeader_header hl
      exact .header hstate hread
    | ended contentLength =>
      cases h
      obtain ⟨⟨rest, rfl⟩, hbody⟩ := decodeHeader_ended_inv hl
      exact .headersEnd hstate rfl hbody
    | endedWithError e => cases h
    | error e => cases h
    | incomplete => cases h
  | body =>
    rw [hstate] at h
    simp only [decodeBody] at h
    split at h
    · cases h
    · next body hbody =>
      obtain ⟨heq, hle⟩ := consume_eq_ok h
      cases heq
      unfold Decoder.decodeBody at hbody
      split at hbody
      · cases hbody
      · cases hbody
        have hlen : (b.take d.contentLength.val).length = d.contentLength.val := by
          rw [List.length_take, Nat.min_eq_left hle]
        have hbody := Completes.body hstate (List.take_append_drop _ b).symm hlen
        rwa [hlen] at hbody
  | «end» =>
    rw [hstate] at h
    obtain ⟨_, _, h⟩ := bind_eq_ok h
    cases h
  | error e =>
    rw [hstate] at h
    cases h

/-- The parts of the response that each state owes to the ones before it. A reason phrase
    is there from the header state on, whether or not the status code will need it. -/
def Formed (d : ResponseDecoder) : Prop :=
  match d.state with
  | .version | .error _ => True
  | .statusCode | .reasonPhrase => d.builder.version = .rtsp2_0
  | .header | .body => d.builder.version = .rtsp2_0 ∧ d.builder.customReasonPhrase.isSome = true
  | .end => d.builder.version = .rtsp2_0 ∧ d.builder.customReasonPhrase.isSome = true ∧
      d.builder.body.isSome = true

/-- The message that a formed decoder builds. -/
theorem Formed.build (h : d.Formed) (hstate : d.state = .end) :
    ∃ response, d.builder.build = .ok response := by
  unfold Formed at h
  rw [hstate] at h
  obtain ⟨hversion, hphrase, hbody⟩ := h
  obtain ⟨body, hbody⟩ := Option.isSome_iff_exists.mp hbody
  obtain ⟨phrase, hphrase⟩ : ∃ phrase, d.builder.reasonPhrase = some phrase := by
    rw [ResponseBuilder.reasonPhrase]
    cases hcode : d.builder.statusCode with
    | extension e => exact Option.isSome_iff_exists.mp hphrase
    | standard s => exact ⟨_, rfl⟩
  rw [ResponseBuilder.build, hphrase, hbody]
  exact ⟨_, dif_pos hversion⟩

/-- Each turn leaves the decoder what the next state needs. -/
theorem Completes.formed (h : Completes d b d' n) (hd : d.Formed) : d'.Formed := by
  unfold Formed at hd ⊢
  cases h with
  | version hstate => exact rfl
  | statusCode hstate =>
    rw [hstate] at hd
    exact hd
  | reasonPhrase hstate =>
    rw [hstate] at hd
    exact ⟨hd, rfl⟩
  | header hstate =>
    rw [hstate] at hd
    dsimp only
    rw [hstate]
    exact hd
  | headersEnd hstate =>
    rw [hstate] at hd
    exact hd
  | body hstate =>
    rw [hstate] at hd
    exact ⟨hd.1, hd.2, rfl⟩

/-- **A turn returns.** -/
theorem turn_returns (hconfig : d.config.Ample) (hd : d.Formed) (b : Bytes) :
    ∃ t, d.turn b = .ok t := by
  have hconsume : ∀ (d' : ResponseDecoder) {n : Nat}, n ≤ b.length →
      ∃ t : Turn, consume b d' n = .ok t := fun d' _ hle => ⟨_, consume_of_le d' hle⟩
  unfold turn
  cases hstate : d.state with
  | version =>
    simp only [decodeVersion]
    split
    · exact ⟨_, rfl⟩
    · next hlen =>
      have hlen := Nat.not_lt.mp hlen
      rw [index_of_lt (by omega), ok_bind]
      split
      · exact ⟨_, rfl⟩
      · rw [slice_zero (by omega), ok_bind]
        split
        · exact ⟨_, rfl⟩
        · exact hconsume _ hlen
        · exact ⟨_, rfl⟩
  | statusCode =>
    simp only [decodeStatusCode]
    split
    · exact ⟨_, rfl⟩
    · next hlen =>
      have hlen := Nat.not_lt.mp hlen
      rw [index_of_lt (by omega), ok_bind]
      split
      · exact ⟨_, rfl⟩
      · rw [slice_zero (by omega), ok_bind]
        split
        · exact ⟨_, rfl⟩
        · exact hconsume _ hlen
  | reasonPhrase =>
    simp only [decodeReasonPhrase]
    rw [usizeAdd_of_le hconfig.reasonPhrase, ok_bind]
    split
    · next i hi =>
      have hlt := firstLineBreak_lt hi
      rw [slice_zero (by omega), ok_bind]
      split
      · exact ⟨_, rfl⟩
      · exact hconsume _ hlt
    · split <;> exact ⟨_, rfl⟩
  | header =>
    obtain ⟨l, hl⟩ := decodeHeader_returns headerErrors d.builder.headers hconfig.limits b
    simp only [decodeHeader, hl, ok_bind]
    cases l <;> exact ⟨_, rfl⟩
  | body =>
    simp only [decodeBody]
    cases hbody : Decoder.decodeBody d.contentLength b with
    | none => exact ⟨_, rfl⟩
    | some body => exact hconsume _ (decodeBody_append (t := []) hbody).1
  | «end» =>
    obtain ⟨response, hresponse⟩ := hd.build hstate
    exact ⟨_, by simp only [hresponse]; rfl⟩
  | error e => exact ⟨_, rfl⟩

end ResponseDecoder

end Rtsp
