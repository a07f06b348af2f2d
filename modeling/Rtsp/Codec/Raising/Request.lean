import Rtsp.Codec.Raising.Common

/-!
# Raising the limits on a request

Which sums a request decoder takes depends on how far it gets, and a request that was
accepted got to the end. It has taken those for the method and the URI, and those for a
header name and a value if there was a header, for the empty line alone takes none. So
`Config.Computes` asks whether there are headers (`hasHeader`), and that is read off the
input: behind two spaces and the version.

`At` goes along with a decoder through an input. It says what is left in front of it at
each stage and which sums it has taken to get there; its last stages are
`Config.Computes`, and this is the direction of `raising_iff` that a run on the larger
limits gives. The other direction runs both decoders in step.
-/

namespace Rtsp

open Syntax Lib Decoder

namespace RequestDecoder

variable {URI URIError : Type}

/-- What stands behind the first space. -/
def behindSpace (s : Bytes) : Bytes := (s.dropWhile (· != SP)).drop 1

/-- What stands behind the information line. -/
def headerPart (s : Bytes) : Bytes := (behindSpace (behindSpace s)).drop 10

/-- Whether the headers of an input do not end at once. -/
def hasHeader (s : Bytes) : Bool := !CRLF.isPrefixOf (headerPart s)

/-- The sums that a decoder takes of its limits to read an input. -/
structure Config.Computes (config : Config) (headers : Bool) : Prop where
  method : config.methodMaxLength + 1 ≤ usizeMax
  uri : config.uriMaxLength + 1 ≤ usizeMax
  headers : headers = true → config.toLimits.Ample

structure Config.RaisedTo (config config' : Config) : Prop where
  limits : config.toLimits.RaisedTo config'.toLimits
  method : config.methodMaxLength ≤ config'.methodMaxLength
  uri : config.uriMaxLength ≤ config'.uriMaxLength

theorem behindSpace_append {text : Bytes} (rest : Bytes) (h : SP ∉ text) :
    behindSpace (text ++ SP :: rest) = rest := by
  have hall : ∀ x ∈ text, (x != SP) = true := fun x hx =>
    bne_iff_ne.mpr fun heq => h (heq ▸ hx)
  rw [behindSpace, List.dropWhile_append_of_pos hall]
  rfl

/-- Where a decoder is in an input, and the sums it has taken on the way. -/
def At (s : Bytes) (d : RequestDecoder URI URIError) (b : Bytes) : Prop :=
  match d.state with
  | .method => b = s
  | .uri => d.config.methodMaxLength + 1 ≤ usizeMax ∧ b = behindSpace s
  | .version => d.config.methodMaxLength + 1 ≤ usizeMax ∧ d.config.uriMaxLength + 1 ≤ usizeMax ∧
      b = behindSpace (behindSpace s)
  | .header => d.config.methodMaxLength + 1 ≤ usizeMax ∧ d.config.uriMaxLength + 1 ≤ usizeMax ∧
      (b = headerPart s ∨ hasHeader s = true ∧ d.config.toLimits.Ample)
  | .body | .end => d.config.Computes (hasHeader s)
  | .error _ => True

variable [RequestURI URI URIError] {d d' : RequestDecoder URI URIError} {s b : Bytes} {n : Nat}

omit [RequestURI URI URIError] in
/-- A header line is read only where there are headers. -/
theorem At.hasHeader (hd : At s d b) (hstate : d.state = .header)
    (hline : CRLF.isPrefixOf b = false) : hasHeader s = true := by
  unfold At at hd
  rw [hstate] at hd
  rcases hd.2.2 with rfl | ⟨hheader, -⟩
  · rw [RequestDecoder.hasHeader, hline]
    rfl
  · exact hheader

/-- Each turn takes the decoder on in the input. -/
theorem Completes.at (h : Completes d b d' n) (hd : At s d b) : At s d' (b.drop n) := by
  have hheader := fun hstate hline => hd.hasHeader hstate hline
  unfold At at hd ⊢
  cases h with
  | @method text rest method hstate hb hsep hmax =>
    rw [hstate] at hd
    refine ⟨hmax, ?_⟩
    rw [← hd, hb, behindSpace_append rest hsep, drop_field]
  | @uri text rest uri hstate hb hsep hmax =>
    rw [hstate] at hd
    refine ⟨hd.1, hmax, ?_⟩
    rw [← hd.2, hb, behindSpace_append rest hsep, drop_field]
  | version hstate =>
    rw [hstate] at hd
    exact ⟨hd.1, hd.2.1, .inl (by rw [headerPart, hd.2.2])⟩
  | header hstate hread =>
    rw [hstate] at hd
    dsimp only
    rw [hstate]
    exact ⟨hd.1, hd.2.1, .inr ⟨hheader hstate hread.notEmpty, hread.ample⟩⟩
  | @headersEnd rest contentLength hstate hb =>
    rw [hstate] at hd
    refine ⟨hd.1, hd.2.1, fun hhas => ?_⟩
    rcases hd.2.2 with heq | ⟨-, hample⟩
    · -- The headers of the input end here, at once.
      rw [RequestDecoder.hasHeader, ← heq, hb] at hhas
      cases hhas
    · exact hample
  | body hstate =>
    rw [hstate] at hd
    exact hd

/-- **The decoder with larger limits takes the same turn.** -/
theorem turn_raised {config' : Config} (hle : d.config.RaisedTo config')
    (hsums : config'.Computes (hasHeader s)) (hd : At s d b)
    (h : d.turn b = .ok (.complete d' n)) :
    { d with config := config' }.turn b = .ok (.complete { d' with config := config' } n) := by
  have hheader := fun hstate hline => hd.hasHeader hstate hline
  unfold turn at h ⊢
  dsimp only
  cases hstate : d.state with
  | method =>
    rw [hstate] at h
    obtain ⟨r, hread, h⟩ := bind_eq_ok h
    cases r with
    | incomplete => cases h
    | error e => cases h
    | complete text =>
      dsimp only [decodeMethod]
      rw [readField, readUntil_raised hle.method hsums.method hread, ok_bind]
      dsimp only at h ⊢
      split at h
      · exact consume_map (fun d => { d with config := config' }) h
      · cases h
  | uri =>
    rw [hstate] at h
    obtain ⟨r, hread, h⟩ := bind_eq_ok h
    cases r with
    | incomplete => cases h
    | error e => cases h
    | complete text =>
      dsimp only [decodeURI]
      rw [readField, readUntil_raised hle.uri hsums.uri hread, ok_bind]
      dsimp only at h ⊢
      split at h
      · exact consume_map (fun d => { d with config := config' }) h
      · cases h
  | version =>
    rw [hstate] at h
    simp only [decodeVersion] at h ⊢
    split at h
    · cases h
    · next hlen =>
      rw [if_neg hlen]
      obtain ⟨x, hx, h⟩ := bind_eq_ok h
      rw [hx, ok_bind]
      split at h
      · cases h
      · next hcrlf =>
        rw [if_neg hcrlf]
        obtain ⟨text, htext, h⟩ := bind_eq_ok h
        rw [htext, ok_bind]
        split at h
        · cases h
        · exact consume_map (fun d => { d with config := config' }) h
        · cases h
  | header =>
    rw [hstate] at h
    obtain ⟨l, hl, h⟩ := bind_eq_ok h
    cases l with
    | header headerName headerValue m =>
      cases h
      obtain ⟨name, value, rest, hread, -⟩ := decodeHeader_header hl
      have hample := hsums.headers (hheader hstate hread.notEmpty)
      simp only [decodeHeader]
      rw [decodeHeader_raised hle.limits hample hl, ok_bind, hstate]
    | ended contentLength =>
      cases h
      simp only [decodeHeader]
      rw [decodeHeader_ended_raised hle.limits hl, ok_bind]
    | endedWithError e => cases h
    | error e => cases h
    | incomplete => cases h
  | body =>
    rw [hstate] at h
    simp only [decodeBody] at h ⊢
    split at h
    · cases h
    · exact consume_map (fun d => { d with config := config' }) h
  | «end» =>
    rw [hstate] at h
    obtain ⟨_, _, h⟩ := bind_eq_ok h
    cases h
  | error e =>
    rw [hstate] at h
    cases h

/-- A message does not depend on the limits once its parts are there. -/
theorem message_raised {config' : Config} {request : Request URI}
    (h : d.turn b = .ok (.message request d')) :
    { d with config := config' }.turn b = .ok (.message request { d' with config := config' }) := by
  cases turn_came h with
  | message hstate hbuild =>
    unfold turn
    dsimp only
    rw [hstate]
    dsimp only
    rw [hbuild]
    rfl

/-- Where a decoder with these limits is. -/
def Located (config : Config) (s : Bytes) (d : RequestDecoder URI URIError) (b : Bytes) : Prop :=
  d.config = config ∧ At s d b

omit [RequestURI URI URIError] in
theorem located_withConfig (config : Config) (s : Bytes) :
    Located config s (withConfig config : RequestDecoder URI URIError) s := ⟨rfl, rfl⟩

theorem Located.turn {config : Config} (hd : Located config s d b)
    (hturn : d.turn b = .ok (.complete d' n)) : Located config s d' (b.drop n) := by
  refine ⟨?_, (turn_complete hturn).at hd.2⟩
  cases turn_moves hturn with
  | complete _ hconfig => exact hconfig.trans hd.1

/-- **A decoder with larger limits accepts what was accepted exactly if it can take the sums.** -/
theorem raising_iff {config config' : Config} {request : Request URI}
    (hle : config.RaisedTo config')
    (h : (withConfig config : RequestDecoder URI URIError).decode s =
      .ok (.complete request, n, d)) :
    (∃ n' d', (withConfig config' : RequestDecoder URI URIError).decode s =
      .ok (.complete request, n', d')) ↔ config'.Computes (hasHeader s) := by
  constructor
  · rintro ⟨n', d', h'⟩
    obtain ⟨d₁, k, ⟨hconfig, hat⟩, hlast⟩ := decodeLoop_last (J := Located config' s)
      (fun _ _ _ _ hd₁ hturn => hd₁.turn hturn) (located_withConfig config' s) h'
    cases hlast with
    | message hturn =>
      cases turn_came hturn with
      | message hstate =>
        unfold At at hat
        rw [hstate] at hat
        exact hconfig ▸ hat
  · intro hsums
    have hsimulates := decodeLoop_simulates
      (f := fun d : RequestDecoder URI URIError => { d with config := config' })
      (J := Located config s)
      (fun _ _ _ _ hd₁ hturn => ⟨hd₁.turn hturn, turn_raised (hd₁.1 ▸ hle) hsums hd₁.2 hturn⟩)
      (fun _ _ _ _ _ hturn => message_raised hturn) (located_withConfig config s) h
    exact ⟨n, _, hsimulates⟩

end RequestDecoder

end Rtsp
