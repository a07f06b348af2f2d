import Rtsp.Codec.Raising.Response

/-!
# Raising a limit

Whatever a decoder accepts, one with larger limits accepts as well: each stage reads the
same bytes, and the two run in step (`decodeLoop_simulates`). That is so as long as the
sums that a stage takes of its limits fit a `usize`. A stage that is reached with a sum
that does not fails, so this is also needed (`raising_iff`): of the limit on methods and
on URIs, or on reason phrases, for every message, and of those on header names and
values for a message that has headers.

`raised_accepts_iff` puts the two decoders together. It is about a fresh decoder and an
input that arrives at once; that it makes no difference how the input is cut is a matter
of `Codec.Chunks`, and not used.

The largest limits there are show that the condition is no formality
(`unlimited_loses`): a configuration of `usize::MAX` throughout, which might be meant to
say "no limit", loses what the narrowest one accepts.
-/

namespace Rtsp

open Syntax Lib Decoder

namespace Decoder

variable {URI URIError : Type} [RequestURI URI URIError]

/-- **Raising the limits keeps a message exactly if the larger ones leave room for the sums.** -/
theorem raised_accepts_iff (s : Bytes) :
    (∀ (config config' : RequestDecoder.Config) (request : Request URI) n
        (d : RequestDecoder URI URIError), config.RaisedTo config' →
      (RequestDecoder.withConfig config).decode s = .ok (.complete request, n, d) →
      ((∃ n' d', (RequestDecoder.withConfig config' : RequestDecoder URI URIError).decode s =
          .ok (.complete request, n', d')) ↔
        config'.Computes (RequestDecoder.hasHeader s))) ∧
    (∀ (config config' : ResponseDecoder.Config) response n d, config.RaisedTo config' →
      (ResponseDecoder.withConfig config).decode s = .ok (.complete response, n, d) →
      ((∃ n' d', (ResponseDecoder.withConfig config').decode s =
          .ok (.complete response, n', d')) ↔
        config'.Computes (ResponseDecoder.hasHeader s))) := by
  constructor
  · intro config config' request n d hle h
    exact RequestDecoder.raising_iff hle h
  · intro config config' response n d hle h
    exact ResponseDecoder.raising_iff hle h

/-- Limits as large as they can be. -/
def unlimited : Limits where
  bodyMaxLength := usizeMax
  headerMaxCount := usizeMax
  headerNameMaxLength := usizeMax
  headerValueMaxLength := usizeMax

end Decoder

namespace RequestDecoder

/-- Limits on a request as large as they can be. -/
def unlimited : Config := ⟨Decoder.unlimited, usizeMax, usizeMax⟩

theorem narrow_accepts : ∃ request n, ∃ d : RequestDecoder AsteriskURI Unit,
    (withConfig Intake.narrow).decode (ascii "SETUP * RTSP/2.0\r\nCSeq: 1\r\n\r\n") =
      .ok (.complete request, n, d) := by
  have hsome : (completed ((withConfig Intake.narrow : RequestDecoder AsteriskURI Unit).decode
    (ascii "SETUP * RTSP/2.0\r\nCSeq: 1\r\n\r\n"))).isSome = true := by decide +kernel
  obtain ⟨request, n, d, h⟩ := exists_of_completed hsome
  exact ⟨request, n, d, h⟩

theorem narrow_raisedTo_default : Intake.narrow.RaisedTo Config.default :=
  ⟨⟨by decide, by decide, by decide, by decide⟩, by decide, by decide⟩

theorem narrow_raisedTo_unlimited : Intake.narrow.RaisedTo unlimited :=
  ⟨⟨by decide, by decide, by decide, by decide⟩, by decide, by decide⟩

end RequestDecoder

namespace ResponseDecoder

/-- Limits on a response as large as they can be. -/
def unlimited : Config := ⟨Decoder.unlimited, usizeMax⟩

theorem narrow_accepts : ∃ response n d,
    (withConfig narrow).decode (ascii "RTSP/2.0 200 OK\r\n\r\n") =
      .ok (.complete response, n, d) := by
  have hsome : (completed ((withConfig narrow).decode
    (ascii "RTSP/2.0 200 OK\r\n\r\n"))).isSome = true := by decide +kernel
  obtain ⟨response, n, d, h⟩ := exists_of_completed hsome
  exact ⟨response, n, d, h⟩

theorem narrow_raisedTo_default : narrow.RaisedTo Config.default :=
  ⟨⟨by decide, by decide, by decide, by decide⟩, by decide⟩

theorem narrow_raisedTo_unlimited : narrow.RaisedTo unlimited :=
  ⟨⟨by decide, by decide, by decide, by decide⟩, by decide⟩

end ResponseDecoder

namespace Decoder

/-- From the narrowest limits to the default ones. -/
theorem raised_accepts_iff_default :
    (let s := ascii "SETUP * RTSP/2.0\r\nCSeq: 1\r\n\r\n"
      ∃ request n, ∃ d : RequestDecoder AsteriskURI Unit,
        (RequestDecoder.withConfig RequestDecoder.Intake.narrow).decode s =
          .ok (.complete request, n, d) ∧
        ((∃ n' d', (RequestDecoder.withConfig .default : RequestDecoder AsteriskURI Unit).decode s =
            .ok (.complete request, n', d')) ↔
          RequestDecoder.Config.default.Computes (RequestDecoder.hasHeader s))) ∧
    (let s := ascii "RTSP/2.0 200 OK\r\n\r\n"
      ∃ response n d,
        (ResponseDecoder.withConfig ResponseDecoder.narrow).decode s =
          .ok (.complete response, n, d) ∧
        ((∃ n' d', (ResponseDecoder.withConfig .default).decode s =
            .ok (.complete response, n', d')) ↔
          ResponseDecoder.Config.default.Computes (ResponseDecoder.hasHeader s))) := by
  constructor
  · obtain ⟨request, n, d, h⟩ := RequestDecoder.narrow_accepts
    exact ⟨request, n, d, h, (raised_accepts_iff _).1 _ _ request n d
      RequestDecoder.narrow_raisedTo_default h⟩
  · obtain ⟨response, n, d, h⟩ := ResponseDecoder.narrow_accepts
    exact ⟨response, n, d, h, (@raised_accepts_iff AsteriskURI Unit _ _).2 _ _
      response n d ResponseDecoder.narrow_raisedTo_default h⟩

/-- With the largest limits there are, what narrow ones accept is lost. -/
theorem unlimited_loses :
    (let s := ascii "SETUP * RTSP/2.0\r\nCSeq: 1\r\n\r\n";
      RequestDecoder.Intake.narrow.RaisedTo RequestDecoder.unlimited ∧
      ∃ request n, ∃ d : RequestDecoder AsteriskURI Unit,
        (RequestDecoder.withConfig RequestDecoder.Intake.narrow).decode s =
          .ok (.complete request, n, d) ∧
        ∀ n' d', (RequestDecoder.withConfig RequestDecoder.unlimited :
          RequestDecoder AsteriskURI Unit).decode s ≠ .ok (.complete request, n', d')) ∧
    (let s := ascii "RTSP/2.0 200 OK\r\n\r\n";
      ResponseDecoder.narrow.RaisedTo ResponseDecoder.unlimited ∧
      ∃ response n d,
        (ResponseDecoder.withConfig ResponseDecoder.narrow).decode s =
          .ok (.complete response, n, d) ∧
        ∀ n' d', (ResponseDecoder.withConfig ResponseDecoder.unlimited).decode s ≠
          .ok (.complete response, n', d')) := by
  constructor
  · obtain ⟨request, n, d, h⟩ := RequestDecoder.narrow_accepts
    refine ⟨RequestDecoder.narrow_raisedTo_unlimited, request, n, d, h, fun n' d' h' => ?_⟩
    have hsums := (RequestDecoder.raising_iff RequestDecoder.narrow_raisedTo_unlimited h).mp
      ⟨n', d', h'⟩
    exact absurd hsums.method (Nat.not_succ_le_self usizeMax)
  · obtain ⟨response, n, d, h⟩ := ResponseDecoder.narrow_accepts
    refine ⟨ResponseDecoder.narrow_raisedTo_unlimited, response, n, d, h, fun n' d' h' => ?_⟩
    have hsums := (ResponseDecoder.raising_iff ResponseDecoder.narrow_raisedTo_unlimited h).mp
      ⟨n', d', h'⟩
    exact absurd (Nat.le_of_succ_le hsums.reasonPhrase) (Nat.not_succ_le_self usizeMax)

end Decoder
end Rtsp
