import Rtsp.Codec.Limits
import Rtsp.Codec.RoundTrip

/-!
# What the response limits bound

The parts of a response as they stand in the stream, and the limits they were
checked against, in the same way as for requests (`Rtsp.Codec.Limits`). Names,
values, their number and the body are within their limits. The search for the
line break behind the reason phrase runs over one pair too many: a phrase of one
byte more than its limit is taken, and no longer one (`decode_within_iff`).

The difference of one is found by comparing the two searches. Where a single byte is
searched for, the limit and one are enough bytes to contain a field of that length and
its end. For a line break the code looks at pairs, and as many pairs as the limit and
two; the pair that ends a phrase of length `n` is the one at place `n`, so there is one
place too many.

Whether the phrase is one byte too long can be told from the input, since the status
line has its fields at fixed places: `reasonPhraseText` reads it off without a decoder.
This keeps the condition of the result apart from the thing that it is about.
-/

namespace Rtsp

open Syntax Lib Decoder

namespace ResponseDecoder

open RequestDecoder (fieldLine Spelled FieldsWithin)

/-- The parts of a response as they stand in the stream. -/
structure Parts where
  version : Bytes
  statusCode : Bytes
  reasonPhrase : Bytes
  fields : List (Bytes × Bytes)
  body : Bytes

/-- The status line. -/
def Parts.line (p : Parts) : Bytes :=
  p.version ++ [SP] ++ (p.statusCode ++ [SP]) ++ (p.reasonPhrase ++ CRLF)

/-- The bytes of the response. -/
def Parts.bytes (p : Parts) : Bytes :=
  p.line ++ p.fields.flatMap fieldLine ++ CRLF ++ p.body

/-- What of the response has been taken in each state. -/
def Parts.taken {ε : Type} (p : Parts) : DecodeState ε → Bytes
  | .version | .error _ => []
  | .statusCode => p.version ++ [SP]
  | .reasonPhrase => p.version ++ [SP] ++ (p.statusCode ++ [SP])
  | .header => p.line ++ p.fields.flatMap fieldLine
  | .body => p.line ++ p.fields.flatMap fieldLine ++ CRLF
  | .end => p.bytes

/-- The response that the parts spell. The phrase on the line is the response's own if the
    status code has no canonical one. -/
structure Parts.Spell (p : Parts) (response : Response) : Prop where
  version : p.version.length = 8
  codeLength : p.statusCode.length = 3
  statusCode : StatusCode.tryFrom p.statusCode = .ok response.statusCode
  reasonPhrase : ∃ phrase : ReasonPhrase, phrase.text = p.reasonPhrase ∧
    response.reasonPhrase = response.statusCode.canonicalReason.getD phrase
  headers : Spelled p.fields response.headers
  body : p.body = response.body

/-- Parts of a response within the limits of a configuration. -/
structure Parts.Within (p : Parts) (config : Config) (response : Response) : Prop where
  reasonPhrase : p.reasonPhrase.length ≤ config.reasonPhraseMaxLength
  fields : FieldsWithin config.toLimits p.fields response.headers
  body : response.body.length ≤ config.bodyMaxLength

/-- What the decoder has checked on the way. -/
structure Parts.Checked (p : Parts) (config : Config) (response : Response) : Prop where
  reasonPhrase : config.reasonPhraseMaxLength + 2 ≤ usizeMax
  phraseLength : p.reasonPhrase.length ≤ config.reasonPhraseMaxLength + 1
  headers : p.fields ≠ [] → config.toLimits.Ample
  fields : FieldsWithin config.toLimits p.fields response.headers
  body : response.body.length ≤ config.bodyMaxLength

/-! ## Every stage reads within its limit -/

variable {d d' : ResponseDecoder} {p : Parts} {b : Bytes} {n : Nat}

def ReadStatusCode (d : ResponseDecoder) (p : Parts) : Prop :=
  p.version.length = 8 ∧ p.statusCode.length = 3 ∧
    StatusCode.tryFrom p.statusCode = .ok d.builder.statusCode

def ReadReasonPhrase (d : ResponseDecoder) (p : Parts) : Prop :=
  d.config.reasonPhraseMaxLength + 2 ≤ usizeMax ∧
    p.reasonPhrase.length ≤ d.config.reasonPhraseMaxLength + 1 ∧
    ∃ phrase : ReasonPhrase, phrase.text = p.reasonPhrase ∧
      d.builder.customReasonPhrase = some phrase

def ReadHeaders (d : ResponseDecoder) (p : Parts) : Prop :=
  Spelled p.fields d.builder.headers ∧
    FieldsWithin d.config.toLimits p.fields d.builder.headers ∧
    (p.fields ≠ [] → d.config.toLimits.Ample)

/-- The parts that the decoder has read in each state. -/
def Reads (d : ResponseDecoder) (p : Parts) : Prop :=
  match d.state with
  | .version => d.builder.headers = .empty
  | .statusCode => p.version.length = 8 ∧ d.builder.headers = .empty
  | .reasonPhrase => ReadStatusCode d p ∧ d.builder.headers = .empty
  | .header => ReadStatusCode d p ∧ ReadReasonPhrase d p ∧ ReadHeaders d p
  | .body => ReadStatusCode d p ∧ ReadReasonPhrase d p ∧ ReadHeaders d p ∧
      d.contentLength.val ≤ d.config.bodyMaxLength
  | .end => ReadStatusCode d p ∧ ReadReasonPhrase d p ∧ ReadHeaders d p ∧
      d.builder.body = some p.body ∧ p.body.length ≤ d.config.bodyMaxLength
  | .error _ => True

/-- **A complete turn reads one part more**, and takes its bytes off the buffer. -/
theorem Completes.reads (h : Completes d b d' n) (hreads : Reads d p) :
    ∃ p', Reads d' p' ∧ p'.taken d'.state ++ b.drop n = p.taken d.state ++ b := by
  unfold Reads at hreads
  cases h with
  | @version text rest hstate hb hlen =>
    rw [hstate] at hreads ⊢
    refine ⟨{ p with version := text }, ⟨hlen, hreads⟩, ?_⟩
    have hdrop : b.drop 9 = rest := by simp [hb, List.drop_append, hlen]
    rw [hdrop]
    simp [Parts.taken, hb]
  | @statusCode text rest statusCode hstate hb hlen hcode =>
    rw [hstate] at hreads ⊢
    refine ⟨{ p with statusCode := text }, ⟨⟨hreads.1, hlen, hcode⟩, hreads.2⟩, ?_⟩
    have hdrop : b.drop 4 = rest := by simp [hb, List.drop_append, hlen]
    rw [hdrop]
    simp [Parts.taken, hb]
  | @reasonPhrase text rest phrase hstate hb hmax hlen hphrase =>
    rw [hstate] at hreads ⊢
    obtain ⟨hcode, hheaders⟩ := hreads
    refine ⟨{ p with reasonPhrase := text, fields := [] },
      ⟨hcode, ⟨hmax, Nat.lt_succ_iff.mp hlen, phrase, ReasonPhrase.tryFrom_eq_ok hphrase, rfl⟩,
        hheaders ▸ .nil, hheaders ▸ .empty _, fun h => absurd rfl h⟩, ?_⟩
    have hdrop : b.drop (text.length + 2) = rest := by simp [hb, List.drop_append]
    rw [hdrop]
    simp [Parts.taken, Parts.line, hb, CRLF]
  | @header name value rest headerName headerValue hstate hread =>
    rw [hstate] at hreads ⊢
    obtain ⟨hcode, hphrase, hspelled, hwithin, -⟩ := hreads
    refine ⟨{ p with fields := p.fields ++ [(name, value)] }, ?_, ?_⟩
    · exact ⟨hcode, hphrase, hspelled.snoc hread.tryName hread.tryValue,
        hwithin.snoc _ _ hread.nameLength hread.valueLength hread.count, fun _ => hread.ample⟩
    · have hdrop : b.drop (name.length + 1 + (value.length + 2)) = rest := by
        rw [← List.drop_drop, hread.split, drop_field]
        simp [List.drop_append]
      rw [hdrop]
      simp [Parts.taken, Parts.line, fieldLine, hread.split, CRLF]
  | @headersEnd rest contentLength hstate hb hbody =>
    rw [hstate] at hreads ⊢
    refine ⟨p, ⟨hreads.1, hreads.2.1, hreads.2.2, bodyLength_le hbody⟩, ?_⟩
    simp [Parts.taken, Parts.line, hb, CRLF]
  | @body body rest hstate hb hlen =>
    rw [hstate] at hreads ⊢
    obtain ⟨hcode, hphrase, hheaders, hlength⟩ := hreads
    refine ⟨{ p with body }, ⟨hcode, hphrase, hheaders, rfl, hlen ▸ hlength⟩, ?_⟩
    simp [Parts.taken, Parts.line, Parts.bytes, hb]

/-- The response that is built from the parts read. -/
theorem Reads.build {response : Response} (hreads : Reads d p) (hstate : d.state = .end)
    (hbuild : d.builder.build = .ok response) :
    p.Spell response ∧ p.Checked d.config response := by
  unfold Reads at hreads
  rw [hstate] at hreads
  obtain ⟨⟨hversion, hcodelen, hcode⟩, ⟨hmax, hlen, phrase, htext, hphrase⟩,
    ⟨hspelled, hwithin, hample⟩, hbody, hbodylen⟩ := hreads
  -- The phrase on the line gives way to a canonical one.
  have hreason : d.builder.reasonPhrase =
      some (d.builder.statusCode.canonicalReason.getD phrase) := by
    rw [ResponseBuilder.reasonPhrase, hphrase]
    cases d.builder.statusCode <;> rfl
  rw [ResponseBuilder.build, hreason, hbody] at hbuild
  dsimp only at hbuild
  split at hbuild
  · cases hbuild
    exact ⟨⟨hversion, hcodelen, hcode, ⟨phrase, htext, rfl⟩, hspelled, rfl⟩,
      ⟨hmax, hlen, hample, hwithin, hbodylen⟩⟩
  · cases hbuild

/-- **What a fresh decoder accepts** begins with the parts of a response, each checked. -/
theorem decode_parts {config : Config} {s : Bytes} {response : Response}
    (h : (withConfig config).decode s = .ok (.complete response, n, d')) :
    ∃ p : Parts, p.bytes = s.take n ∧ p.Spell response ∧ p.Checked config response := by
  have hstart : (withConfig config).config = config ∧ ∃ p : Parts,
      Reads (withConfig config) p ∧ p.taken (withConfig config).state ++ s = s :=
    ⟨rfl, ⟨[], [], [], [], []⟩, rfl, rfl⟩
  obtain ⟨d₁, k, ⟨hconfig, p, hreads, htaken⟩, hlast⟩ := decodeLoop_last
    (J := fun d₁ b₁ => d₁.config = config ∧ ∃ p : Parts, Reads d₁ p ∧ p.taken d₁.state ++ b₁ = s)
    (fun d₁ b₁ d₂ n₂ hd₁ hturn => by
      obtain ⟨hconfig, p₁, hreads₁, htaken⟩ := hd₁
      obtain ⟨p₂, hreads₂, htaken₂⟩ := (turn_complete hturn).reads hreads₁
      cases turn_moves hturn with
      | complete _ hconfig₂ =>
        exact ⟨hconfig₂.trans hconfig, p₂, hreads₂, htaken₂.trans htaken⟩)
    hstart h
  rw [Nat.zero_add] at hlast
  cases hlast with
  | message hturn =>
    cases turn_came hturn with
    | message hstate hbuild =>
      obtain ⟨hspell, hchecked⟩ := hreads.build hstate hbuild
      rw [hstate] at htaken
      refine ⟨p, ?_, hspell, hconfig ▸ hchecked⟩
      refine List.append_cancel_right (htaken.trans ?_)
      exact (List.take_append_drop _ s).symm

/-! ## The status line of an input -/

/-- The three bytes of the status code. -/
def statusCodeText (s : Bytes) : Bytes := (s.drop 9).take 3

/-- The bytes from behind the status code up to the first line break. -/
def reasonPhraseText (s : Bytes) : Bytes :=
  (s.drop 13).take ((firstLineBreak (s.drop 13) s.length).getD s.length)

theorem reasonPhraseText_eq {s text rest : Bytes} (hs : s.drop 13 = text ++ CR :: LF :: rest)
    (hcr : CR ∉ text) : reasonPhraseText s = text := by
  have hlt : text.length < s.length := by
    have hlength := congrArg List.length hs
    simp only [List.length_drop, List.length_append, List.length_cons] at hlength
    omega
  rw [reasonPhraseText, hs, firstLineBreak_phrase rest hcr hlt]
  simp

/-- A response is spelled by what stands on the status line. -/
theorem Parts.Spell.line {s : Bytes} {response : Response} (hspell : p.Spell response)
    (hbytes : p.bytes = s.take n) :
    p.statusCode = statusCodeText s ∧ p.reasonPhrase = reasonPhraseText s := by
  obtain ⟨phrase, htext, -⟩ := hspell.reasonPhrase
  obtain ⟨rest, hs⟩ : ∃ rest, s = p.version ++ SP :: (p.statusCode ++ SP ::
      (p.reasonPhrase ++ CR :: LF :: rest)) := by
    refine ⟨p.fields.flatMap fieldLine ++ CRLF ++ p.body ++ s.drop n, ?_⟩
    calc s = p.bytes ++ s.drop n := by rw [hbytes, List.take_append_drop]
      _ = _ := by simp [Parts.bytes, Parts.line, CRLF]
  have hcode : s.drop 9 = p.statusCode ++ SP :: (p.reasonPhrase ++ CR :: LF :: rest) := by
    simp [hs, List.drop_append, hspell.version]
  have hphrase : s.drop 13 = p.reasonPhrase ++ CR :: LF :: rest := by
    rw [show 13 = 9 + 4 from rfl, ← List.drop_drop, hcode]
    simp [List.drop_append, hspell.codeLength]
  have hcr : CR ∉ p.reasonPhrase := htext ▸ phrase.cr_not_mem
  constructor
  · rw [statusCodeText, hcode, List.take_append_of_le_length (Nat.le_of_eq hspell.codeLength.symm),
      ← hspell.codeLength, List.take_length]
  · exact (reasonPhraseText_eq hphrase hcr).symm

/-- **The limits bound what is accepted, but for a phrase of one byte too many.** -/
theorem decode_within_iff {config : Config} {s : Bytes} {response : Response}
    (h : (withConfig config).decode s = .ok (.complete response, n, d')) :
    ∃ p : Parts, p.bytes = s.take n ∧ p.Spell response ∧
      (p.Within config response ↔
        (reasonPhraseText s).length ≠ config.reasonPhraseMaxLength + 1) := by
  obtain ⟨p, hbytes, hspell, hchecked⟩ := decode_parts h
  refine ⟨p, hbytes, hspell, ?_⟩
  rw [← (hspell.line hbytes).2]
  constructor
  · intro hwithin heq
    have hle := hwithin.reasonPhrase
    omega
  · intro hne
    -- The decoder has let one byte more pass, and it is not there.
    have hle := hchecked.phraseLength
    exact ⟨by omega, hchecked.fields, hchecked.body⟩

/-- Limits that leave room for a phrase of two bytes and for nothing else. -/
def narrow : Config where
  bodyMaxLength := 0
  headerMaxCount := 0
  headerNameMaxLength := 0
  headerValueMaxLength := 0
  reasonPhraseMaxLength := 2

/-- A phrase that fills its limit. -/
theorem decode_within_iff_narrow :
    let s := ascii "RTSP/2.0 200 OK\r\n\r\n"
    ∃ response n d, (withConfig narrow).decode s = .ok (.complete response, n, d) ∧
      ∃ p : Parts, p.bytes = s.take n ∧ p.Spell response ∧
        (p.Within narrow response ↔ (reasonPhraseText s).length ≠ 3) := by
  intro s
  have hsome : (completed ((withConfig narrow).decode s)).isSome = true := by decide +kernel
  obtain ⟨response, n, d, h⟩ := exists_of_completed hsome
  exact ⟨response, n, d, h, decode_within_iff h⟩

/-- A phrase of one byte more is accepted as well. -/
theorem phrase_too_long :
    let s := ascii "RTSP/2.0 200 Yes\r\n\r\n"
    ∃ response n d, (withConfig narrow).decode s = .ok (.complete response, n, d) ∧
      ∀ p : Parts, p.bytes = s.take n → p.Spell response → ¬ p.Within narrow response := by
  intro s
  have hsome : (completed ((withConfig narrow).decode s)).isSome = true := by decide +kernel
  obtain ⟨response, n, d, h⟩ := exists_of_completed hsome
  refine ⟨response, n, d, h, fun p hbytes hspell hwithin => ?_⟩
  have hle := hwithin.reasonPhrase
  rw [(hspell.line hbytes).2] at hle
  have hlength : (reasonPhraseText s).length = 3 := by decide
  rw [hlength] at hle
  exact absurd hle (by decide)

end ResponseDecoder
end Rtsp
