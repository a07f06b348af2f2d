import Rtsp.Codec.Stream.Codec
import Rtsp.Lib.Trans

/-!
# The codec on a stream

Chunks of a stream arrive, and `decode` is called on what is buffered, in any order
(`Step`). Whatever has happened, the next call returns, and a message that it returns
took at least one byte off the buffer (`decode_total`): so calling it until it asks for
more comes to an end.

The steps are looser than `tokio`'s `Framed`, which calls `decode` until it asks for
more before it reads on, and gives up after an error. Here a chunk may come between any
two calls, and a call may follow an error; what is shown holds all the more.

A stream carries whether the last call left bytes behind. No step depends on it. It is
there for statements about what a timer is told (`Codec.Events`).

The end of the stream is a case apart (`detectsTruncation_iff`). `decode_eof` is called
once and looks at the buffer, and a decoder that has taken everything that arrived
leaves nothing in it.
-/

namespace Rtsp

open Syntax Lib Decoder

/-- A codec on a stream: what has arrived and is not decoded yet, and whether the last call
    looked at bytes and left them because there were too few. -/
structure Stream (URI URIError : Type) where
  codec : Codec URI URIError
  buffer : Bytes
  left : Bool

namespace Stream

variable {URI URIError : Type}

/-- What happens to a codec on a stream. -/
inductive Op (URI URIError : Type) where
  /-- The next bytes of the stream arrive. -/
  | chunk (bytes : Bytes)
  /-- A call of `decode` returned. -/
  | decode (result : Except (ProtocolError URIError) (Option (Message URI)))

/-- A call that asked for more has looked at all there is. -/
def asksForMore : Except (ProtocolError URIError) (Option (Message URI)) → Bool
  | .ok none => true
  | _ => false

inductive Step [RequestURI URI URIError] :
    Stream URI URIError → Op URI URIError → Stream URI URIError → Prop where
  | chunk {s} (bytes : Bytes) : Step s (.chunk bytes) { s with buffer := s.buffer ++ bytes }
  | decode {s result c b} : s.codec.decode s.buffer = .ok (result, c, b) →
      Step s (.decode result) ⟨c, b, asksForMore result && !b.isEmpty⟩

/-- A fresh codec, with its default configurations, before the first byte. -/
def start (txEvent : Option EventSender) : Stream URI URIError := ⟨⟨.new, .new, txEvent⟩, [], false⟩

theorem resting_start (txEvent : Option EventSender) :
    (start txEvent : Stream URI URIError).codec.Resting :=
  ⟨RequestDecoder.resting_withConfig ⟨⟨by decide, by decide⟩, by decide, by decide⟩,
    ResponseDecoder.resting_withConfig ⟨⟨by decide, by decide⟩, by decide⟩⟩

variable [RequestURI URI URIError] {s s' : Stream URI URIError} {op : Op URI URIError}

theorem Step.resting (h : Step s op s') (hs : s.codec.Resting) : s'.codec.Resting := by
  cases h with
  | chunk bytes => exact hs
  | decode hdecode =>
    obtain ⟨_, _, _, hr, hc', -⟩ := Codec.decode_returns hs s.buffer
    rw [hdecode] at hr
    cases hr
    exact hc'

theorem resting_of_run {txEvent : Option EventSender} {ops : List (Op URI URIError)}
    (h : Run Step (start txEvent) ops s) : s.codec.Resting :=
  h.invariant (resting_start txEvent) fun _ _ _ hs hstep => hstep.resting hs

/-- **Decoding is total and makes progress.** -/
theorem decode_total {txEvent : Option EventSender} {ops : List (Op URI URIError)}
    (hrun : Run Step (start txEvent) ops s) :
    s.codec.requestDecoder.state ≠ .end ∧ s.codec.responseDecoder.state ≠ .end ∧
      (∃ result c n, s.codec.decode s.buffer = .ok (result, c, s.buffer.drop n) ∧
        n ≤ s.buffer.length ∧ ∀ message, result = .ok (some message) → 0 < n) ∧
      ∃ fed, Codec.decodeAll (s.buffer.length + 1) s.codec s.buffer = .ok fed := by
  have hs := resting_of_run hrun
  obtain ⟨result, c, n, hdecode, -, hle, hm⟩ := Codec.decode_returns hs s.buffer
  exact ⟨hs.request.state_ne_end, hs.response.state_ne_end, ⟨result, c, n, hdecode, hle, hm⟩,
    Codec.decodeAll_returns hs (Nat.lt_succ_self _)⟩

/-- A stream that was cut in its request line. -/
theorem decode_total_cut :
    ∃ result c n, (start none : Stream AsteriskURI Unit).codec.decode (ascii "OPTIONS * RT") =
      .ok (result, c, (ascii "OPTIONS * RT").drop n) ∧
        n ≤ 12 ∧ ∀ message, result = .ok (some message) → 0 < n :=
  (decode_total (s := ⟨(start none : Stream AsteriskURI Unit).codec, ascii "OPTIONS * RT", false⟩)
    (.snoc .start (.chunk (ascii "OPTIONS * RT")))).2.2.1

/-! ## The end of the stream -/

/-- At the end of the stream `decode_eof` tells a message that is cut off from none at all. -/
def DetectsTruncation (s : Stream URI URIError) : Prop :=
  ∃ result c b, s.codec.decodeEof s.buffer = .ok (result, c, b) ∧
    (result = .ok none ∧ s.codec.Initial ∧ s.buffer = [] ∨
      result = .error .unexpectedEOF ∧ ¬ (s.codec.Initial ∧ s.buffer = []))

/-- **`decode_eof` misses a message that is cut off where the decoder has taken all that
    arrived**, and no other: it looks at the buffer and not at the decoders. -/
theorem detectsTruncation_iff {txEvent : Option EventSender} {ops : List (Op URI URIError)}
    (hrun : Run Step (start txEvent) (ops ++ [.decode (.ok none)]) s) :
    DetectsTruncation s ↔ s.buffer ≠ [] ∨ s.codec.Initial := by
  obtain ⟨s₀, -, hlast⟩ := hrun.last
  obtain ⟨c₁, hagain⟩ : ∃ c₁, s.codec.decode s.buffer = .ok (.ok none, c₁, s.buffer) := by
    cases hlast with
    | decode hdecode =>
      obtain ⟨c₁, hagain, -⟩ := Codec.decode_again hdecode
      exact ⟨c₁, hagain⟩
  have heof : s.codec.decodeEof s.buffer = if s.buffer.isEmpty then .ok (.ok none, c₁, s.buffer)
      else .ok (.error .unexpectedEOF, c₁, s.buffer) := by
    rw [Codec.decodeEof, hagain, ok_bind]
  unfold DetectsTruncation
  rw [heof]
  cases hbuffer : s.buffer with
  | nil =>
    simp only [List.isEmpty_nil, if_true]
    constructor
    · rintro ⟨_, _, _, heq, ⟨-, hinitial, -⟩ | ⟨herr, -⟩⟩
      · exact .inr hinitial
      · cases heq
        cases herr
    · rintro (h | hinitial)
      · exact absurd rfl h
      · exact ⟨_, _, _, rfl, .inl ⟨rfl, hinitial, trivial⟩⟩
  | cons byte rest =>
    simp only [List.isEmpty_cons]
    exact ⟨fun _ => .inl (by simp), fun _ => ⟨_, _, _, rfl, .inr ⟨rfl, by simp⟩⟩⟩

/-- A request whose method and its space have arrived, and nothing more. -/
def cut : Stream AsteriskURI Unit :=
  let r := returned ((start none : Stream AsteriskURI Unit).codec.decode (ascii "OPTIONS "))
    (by decide +kernel)
  ⟨r.2.1, [], false⟩

theorem run_cut : Run Step (start none)
    [.chunk (ascii "OPTIONS "), .decode (.ok none)] cut := by
  have hdecode : (start none : Stream AsteriskURI Unit).codec.decode (ascii "OPTIONS ") =
      .ok (.ok none, cut.codec, []) := by decide +kernel
  exact .snoc (.snoc .start (.chunk _)) (.decode hdecode)

/-- Nothing of the cut request is in the buffer, and its end goes unnoticed. -/
theorem detectsTruncation_iff_cut : DetectsTruncation cut ↔ cut.buffer ≠ [] ∨ cut.codec.Initial :=
  detectsTruncation_iff (show Run Step (start none)
    ([.chunk (ascii "OPTIONS ")] ++ [.decode (.ok none)]) cut from run_cut)

theorem not_detectsTruncation :
    ¬ ∀ (ops : List (Op AsteriskURI Unit)) (s : Stream AsteriskURI Unit),
      Run Step (start none) (ops ++ [.decode (.ok none)]) s → DetectsTruncation s := by
  intro h
  obtain ⟨result, c, b, heof, hresult⟩ := h [.chunk (ascii "OPTIONS ")] cut run_cut
  have hnone : cut.codec.decodeEof cut.buffer = .ok (.ok none, cut.codec, []) := by decide +kernel
  rw [hnone] at heof
  cases heof
  rcases hresult with ⟨-, hinitial, -⟩ | ⟨herr, -⟩
  · exact absurd hinitial.1 (by decide +kernel)
  · cases herr

end Stream
end Rtsp
