import Rtsp.Codec.Turns.Common

/-!
# What a turn of the request decoder did

`Completes` has a constructor for each way in which a turn can be complete: what the
buffer began with, which decoder came of it and how many bytes were taken.
`turn_complete` goes through the code once, and whatever is to hold of a decoder in use
is then shown by cases on `Completes`, with no look at the code.

`Formed` is the first such thing. The builder of a message expects its parts to be
there, and each state owes it those of the states before it. Together with limits of a
size that can be added to (`Config.Ample`) this is why a turn returns (`turn_returns`),
and hence why the `expect`s of `decode` never fail.
-/

namespace Rtsp

open Syntax Lib

namespace RequestDecoder

open Decoder

variable {URI URIError : Type} [RequestURI URI URIError] {d d' : RequestDecoder URI URIError}
  {b : Bytes} {n : Nat}

/-- Limits with which one more than each fits a `usize`. -/
structure Config.Ample (config : Config) : Prop where
  limits : config.toLimits.Ample
  method : config.methodMaxLength + 1 ≤ usizeMax
  uri : config.uriMaxLength + 1 ≤ usizeMax

/-- A complete turn on the buffer `b`: what `b` began with, the decoder behind it, and the
    number of bytes taken. -/
inductive Completes (d : RequestDecoder URI URIError) (b : Bytes) :
    RequestDecoder URI URIError → Nat → Prop where
  | method {text rest method} : d.state = .method → b = text ++ SP :: rest → SP ∉ text →
      d.config.methodMaxLength + 1 ≤ usizeMax → text.length ≤ d.config.methodMaxLength →
      Method.tryFrom text = .ok method →
      Completes d b { d with builder := { d.builder with method := some method }, state := .uri }
        (text.length + 1)
  | uri {text rest uri} : d.state = .uri → b = text ++ SP :: rest → SP ∉ text →
      d.config.uriMaxLength + 1 ≤ usizeMax → text.length ≤ d.config.uriMaxLength →
      RequestURI.tryFrom text = .ok uri →
      Completes d b { d with builder := { d.builder with uri := some uri }, state := .version }
        (text.length + 1)
  | version {text rest} : d.state = .version → b = text ++ CR :: LF :: rest → text.length = 8 →
      Version.tryDecode text = .ok .rtsp2_0 →
      Completes d b { d with builder := { d.builder with version := .rtsp2_0 }, state := .header }
        10
  | header {name value rest headerName headerValue} : d.state = .header →
      HeaderRead d.config.toLimits d.builder.headers b name value rest headerName headerValue →
      Completes d b { d with builder := d.builder.header headerName headerValue }
        (name.length + 1 + (value.length + 2))
  | headersEnd {rest contentLength} : d.state = .header → b = CR :: LF :: rest →
      bodyLength d.config.toLimits (headerErrors : HeaderErrors (DecodeError URIError))
        d.builder.headers = .ok contentLength →
      Completes d b { d with state := .body, contentLength } 2
  | body {body rest} : d.state = .body → b = body ++ rest → body.length = d.contentLength.val →
      Completes d b { d with state := .end, builder := { d.builder with body := some body } }
        body.length

/-- **What a complete turn did.** -/
theorem turn_complete (h : d.turn b = .ok (.complete d' n)) : Completes d b d' n := by
  unfold turn at h
  cases hstate : d.state with
  | method =>
    rw [hstate] at h
    obtain ⟨r, hread, h⟩ := bind_eq_ok h
    cases r with
    | incomplete => cases h
    | error e => cases h
    | complete text =>
      obtain ⟨hmax, rest, rfl, hsep, hlen⟩ := readUntil_complete_iff.mp hread
      dsimp only at h
      split at h
      · next hmethod =>
        obtain ⟨heq, -⟩ := consume_eq_ok h
        cases heq
        exact .method hstate rfl hsep hmax hlen hmethod
      · cases h
  | uri =>
    rw [hstate] at h
    obtain ⟨r, hread, h⟩ := bind_eq_ok h
    cases r with
    | incomplete => cases h
    | error e => cases h
    | complete text =>
      obtain ⟨hmax, rest, rfl, hsep, hlen⟩ := readUntil_complete_iff.mp hread
      dsimp only at h
      split at h
      · next huri =>
        obtain ⟨heq, -⟩ := consume_eq_ok h
        cases heq
        exact .uri hstate rfl hsep hmax hlen huri
      · cases h
  | version =>
    rw [hstate] at h
    simp only [decodeVersion] at h
    split at h
    · cases h
    · next hlen =>
      have hlen := Nat.not_lt.mp hlen
      rw [slice_of_le (by decide) hlen, ok_bind] at h
      split at h
      · cases h
      · next hcrlf =>
        rw [slice_zero (by omega), ok_bind] at h
        have hcrlf : (b.take 10).drop 8 = CRLF := Classical.not_not.mp hcrlf
        have hsplit : b = b.take 8 ++ CR :: LF :: b.drop 10 := by
          have htake : b.take 10 = b.take 8 ++ CRLF := by
            rw [← hcrlf, List.drop_take, List.take_add (i := 8) (j := 2)]
          calc b = b.take 10 ++ b.drop 10 := (List.take_append_drop 10 b).symm
            _ = _ := by rw [htake]; simp [CRLF]
        split at h
        · cases h
        · next hversion =>
          obtain ⟨heq, -⟩ := consume_eq_ok h
          cases heq
          exact .version hstate hsplit (by simp only [List.length_take]; omega) hversion
        · cases h
  | header =>
    rw [hstate] at h
    obtain ⟨l, hl, h⟩ := bind_eq_ok h
    cases l with
    | header headerName headerValue m =>
      cases h
      obtain ⟨name, value, rest, hread, rfl⟩ := decodeHeader_header hl
      exact .header hstate hread
    | ended contentLength =>
      cases h
      obtain ⟨⟨rest, rfl⟩, hbody⟩ := decodeHeader_ended_inv hl
      exact .headersEnd hstate rfl hbody
    | endedWithError e => cases h
    | error e => cases h
    | incomplete => cases h
  | body =>
    rw [hstate] at h
    simp only [decodeBody] at h
    split at h
    · cases h
    · next body hbody =>
      obtain ⟨heq, hle⟩ := consume_eq_ok h
      cases heq
      unfold Decoder.decodeBody at hbody
      split at hbody
      · cases hbody
      · cases hbody
        have hlen : (b.take d.contentLength.val).length = d.contentLength.val := by
          rw [List.length_take, Nat.min_eq_left hle]
        have hbody := Completes.body hstate (List.take_append_drop _ b).symm hlen
        rwa [hlen] at hbody
  | «end» =>
    rw [hstate] at h
    obtain ⟨_, _, h⟩ := bind_eq_ok h
    cases h
  | error e =>
    rw [hstate] at h
    cases h

/-- The parts of the request that each state owes to the ones before it. -/
def Formed (d : RequestDecoder URI URIError) : Prop :=
  match d.state with
  | .method | .error _ => True
  | .uri => d.builder.method.isSome = true
  | .version => d.builder.method.isSome = true ∧ d.builder.uri.isSome = true
  | .header | .body => d.builder.method.isSome = true ∧ d.builder.uri.isSome = true ∧
      d.builder.version = .rtsp2_0
  | .end => d.builder.method.isSome = true ∧ d.builder.uri.isSome = true ∧
      d.builder.version = .rtsp2_0 ∧ d.builder.body.isSome = true

omit [RequestURI URI URIError] in
/-- The message that a formed decoder builds. -/
theorem Formed.build (h : d.Formed) (hstate : d.state = .end) :
    ∃ request, d.builder.build = .ok request := by
  unfold Formed at h
  rw [hstate] at h
  obtain ⟨hmethod, huri, hversion, hbody⟩ := h
  obtain ⟨method, hmethod⟩ := Option.isSome_iff_exists.mp hmethod
  obtain ⟨uri, huri⟩ := Option.isSome_iff_exists.mp huri
  obtain ⟨body, hbody⟩ := Option.isSome_iff_exists.mp hbody
  rw [RequestBuilder.build, hmethod, huri, hbody]
  exact ⟨_, dif_pos hversion⟩

/-- Each turn leaves the decoder what the next state needs. -/
theorem Completes.formed (h : Completes d b d' n) (hd : d.Formed) : d'.Formed := by
  unfold Formed at hd ⊢
  cases h with
  | method hstate => exact rfl
  | uri hstate =>
    rw [hstate] at hd
    exact ⟨hd, rfl⟩
  | version hstate =>
    rw [hstate] at hd
    exact ⟨hd.1, hd.2, rfl⟩
  | header hstate =>
    rw [hstate] at hd
    dsimp only
    rw [hstate]
    exact hd
  | headersEnd hstate =>
    rw [hstate] at hd
    exact hd
  | body hstate =>
    rw [hstate] at hd
    exact ⟨hd.1, hd.2.1, hd.2.2, rfl⟩

/-- **A turn returns.** -/
theorem turn_returns (hconfig : d.config.Ample) (hd : d.Formed) (b : Bytes) :
    ∃ t, d.turn b = .ok t := by
  have hconsume : ∀ (d' : RequestDecoder URI URIError) {n : Nat}, n ≤ b.length →
      ∃ t : Turn URI URIError, consume b d' n = .ok t := fun d' _ hle => ⟨_, consume_of_le d' hle⟩
  unfold turn
  cases hstate : d.state with
  | method =>
    refine readField_returns hconfig.method fun field hlen => ?_
    split
    · exact hconsume _ hlen
    · exact ⟨_, rfl⟩
  | uri =>
    refine readField_returns hconfig.uri fun field hlen => ?_
    split
    · exact hconsume _ hlen
    · exact ⟨_, rfl⟩
  | version =>
    simp only [decodeVersion]
    split
    · exact ⟨_, rfl⟩
    · next hlen =>
      have hlen := Nat.not_lt.mp hlen
      rw [slice_of_le (by decide) hlen, ok_bind]
      split
      · exact ⟨_, rfl⟩
      · rw [slice_zero (by omega), ok_bind]
        split
        · exact ⟨_, rfl⟩
        · exact hconsume _ hlen
        · exact ⟨_, rfl⟩
  | header =>
    obtain ⟨l, hl⟩ := decodeHeader_returns (headerErrors : HeaderErrors (DecodeError URIError))
      d.builder.headers hconfig.limits b
    simp only [decodeHeader, hl, ok_bind]
    cases l <;> exact ⟨_, rfl⟩
  | body =>
    simp only [decodeBody]
    cases hbody : Decoder.decodeBody d.contentLength b with
    | none => exact ⟨_, rfl⟩
    | some body => exact hconsume _ (decodeBody_append (t := []) hbody).1
  | «end» =>
    obtain ⟨request, hrequest⟩ := hd.build hstate
    exact ⟨_, by simp only [hrequest]; rfl⟩
  | error e => exact ⟨_, rfl⟩

end RequestDecoder

end Rtsp
