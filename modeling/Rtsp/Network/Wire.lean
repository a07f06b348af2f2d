import Rtsp.Codec.RoundTrip
import Rtsp.Lib.Trans

/-!
# One direction of a connection

The sink of one peer encodes messages onto a stream of bytes, which comes out at
the other peer in pieces of any size. The framed stream there appends each piece
to its buffer and decodes all there is in it. As long as what is written stays
within the default limits, what has been decoded at any time is the first part of
what was written (`Wire.decoded_of_run`), and all of it once every byte is there.

The stream itself is reliable. It loses nothing, repeats nothing and keeps the order, as
TCP does while the connection lasts; it may stop at any byte and never go on, and then
the steps just do not occur. A stream that fails is one whose decoder has failed
(`failed`).

A wire is a feed of `Codec.Run` with the chunks as they come, so all that is known of
streams that are cut anywhere applies. What is new is that the account is right at every
moment, when the last message has arrived in part.

The default limits are a hypothesis about what was written, not a property of the
encoder: the encoder writes a header of any length, and the peer's decoder turns it
down.
-/

namespace Rtsp

open Lib Decoder

namespace Codec

variable {URI URIError : Type} [RequestURI URI URIError]

/-- One more chunk behind the others. -/
theorem feed_concat (c : Codec URI URIError) (b : Bytes) (cs : List Bytes) (chunk : Bytes) :
    feed c b (cs ++ [chunk]) = (do
      match ← feed c b cs with
      | (messages, .error e) => .ok (messages, .error e)
      | (messages, .ok (c, b)) => do
        let (messages', stop) ← decodeAll (turns (b ++ chunk)) c (b ++ chunk)
        .ok (messages ++ messages', stop)) := by
  induction cs generalizing c b with
  | nil =>
    rw [List.nil_append, feed, feed, ok_bind]
    dsimp only
    generalize decodeAll (turns (b ++ chunk)) c (b ++ chunk) = decoded
    rcases decoded with _ | ⟨messages, _ | ⟨c', b'⟩⟩
    · rfl
    · rfl
    · simp [feed]
  | cons chunk' cs ih =>
    rw [List.cons_append, feed, feed]
    generalize decodeAll (turns (b ++ chunk')) c (b ++ chunk') = decoded
    rcases decoded with _ | ⟨messages, _ | ⟨c', b'⟩⟩
    · rfl
    · rfl
    · simp only [ok_bind, ih]
      generalize feed c' b' cs = fed
      rcases fed with _ | ⟨messages', _ | ⟨c'', b''⟩⟩
      · rfl
      · rfl
      · simp only [ok_bind]
        generalize decodeAll (turns (b'' ++ chunk)) c'' (b'' ++ chunk) = last
        cases last with
        | error => rfl
        | ok => simp only [ok_bind, List.append_assoc]

/-- **A feed of the first part of a stream of messages** decodes the first of them, without an
    error, and all of them if nothing is left of the stream. -/
theorem feed_firstPart (hlawful : RequestURI.Lawful URI) {messages : List (Message URI)}
    (hm : ∀ m ∈ messages, m.Sendable) (tx : Option EventSender) {cs : List Bytes} {rest : Bytes}
    (hcs : cs.flatten ++ rest = messages.flatMap encoded) :
    ∃ decoded left, ∃ (c : Codec URI URIError) (b : Bytes),
      feed ⟨.new, .new, tx⟩ [] cs = .ok (decoded, .ok (c, b)) ∧
        messages.map Message.received = decoded ++ left ∧ (rest = [] → left = []) := by
  have hnew : (⟨.new, .new⟩ : Decoders URI URIError).Ready := ⟨⟨_, rfl⟩, _, rfl⟩
  obtain ⟨d', -, hdrain, hvisits⟩ := messages_drain hlawful hnew hm
  obtain ⟨ms, o, hfeeds, hreturned⟩ := feed_feeds (⟨.new, .new, tx⟩ : Codec URI URIError) [] cs
  -- No answer on the way depends on where the stream is cut.
  have hsteady : ∀ d₁ b₁ t, Visits Decoders.step (⟨.new, .new⟩ : Decoders URI URIError)
      ([] ++ (cs.flatten ++ rest)) d₁ (b₁ ++ t) → Steady Decoders.step d₁ b₁ t := by
    intro d₁ b₁ t hv
    have hdefault := hv.invariant (fun _ _ _ _ => default_of_step) hnew.default
    rw [List.nil_append, hcs] at hv
    exact step_steady hdefault.regular (hvisits _ _ hv b₁ t rfl)
  obtain ⟨d₁, b₁, left, rfl, hsplit, hleft⟩ := hfeeds.split Decoders.bounded
    (by rw [List.nil_append, hcs]; exact hdrain) hsteady
  obtain ⟨c, hfeed, rfl⟩ := hreturned
  refine ⟨ms, left, c, b₁, hfeed, hsplit, fun hrest => ?_⟩
  subst hrest
  rw [List.append_nil] at hleft
  have hstopped : Decoders.step c.decoders b₁ = .need := by
    have hall := hfeeds.drain Decoders.bounded hnew.need fun s₁ b₂ t hmeets =>
      hsteady s₁ b₂ t (by
        rw [List.append_nil] at hsteady ⊢
        exact hmeets.visits Decoders.bounded hsteady)
    exact hall.stops rfl
  exact (hleft.unique (.need hstopped)).1

end Codec

/-- A stream of bytes between two peers, with what has gone into it and come out of it. -/
structure Wire (URI URIError : Type) where
  /-- The messages that the sink has encoded. -/
  written : List (Message URI)
  /-- The pieces that have arrived. -/
  chunks : List Bytes
  codec : Codec URI URIError
  buffer : Bytes
  /-- The messages that have been decoded. -/
  decoded : List (Message URI)
  failed : Option (ProtocolError URIError)

namespace Wire

variable {URI URIError : Type}

def new : Wire URI URIError := ⟨[], [], ⟨.new, .new, none⟩, [], [], none⟩

variable [RequestURI URI URIError]

/-- What has been written. -/
def bytes (w : Wire URI URIError) : Bytes := w.written.flatMap Codec.encoded

/-- The sink accepts messages. -/
def write (w : Wire URI URIError) (messages : List (Message URI)) : Wire URI URIError :=
  { w with written := w.written ++ messages }

/-- A piece arrives, and the framed stream decodes all there is. -/
def arrive (w : Wire URI URIError) (chunk : Bytes) : Rust (Wire URI URIError) := do
  let (messages, stop) ←
    Codec.decodeAll (turns (w.buffer ++ chunk)) w.codec (w.buffer ++ chunk)
  let w := { w with chunks := w.chunks ++ [chunk], decoded := w.decoded ++ messages }
  match stop with
  | .ok (codec, buffer) => .ok { w with codec, buffer }
  | .error e => .ok { w with failed := some e }

inductive Op (URI : Type) where
  | write (messages : List (Message URI))
  | arrive (chunk : Bytes)

inductive Step : Wire URI URIError → Op URI → Wire URI URIError → Prop where
  | write {w} (messages : List (Message URI)) : Step w (.write messages) (w.write messages)
  /-- Bytes arrive as they were written. A stream that has failed is not read any more. -/
  | arrive {w w'} (chunk : Bytes) : w.failed = none →
      w.chunks.flatten ++ chunk <+: w.bytes → w.arrive chunk = .ok w' →
      Step w (.arrive chunk) w'

/-- What arrives changes nothing of what was written, and what was decoded stays. -/
theorem Step.arrived {w w' : Wire URI URIError} {chunk : Bytes} (h : Step w (.arrive chunk) w') :
    w'.written = w.written ∧ w'.chunks = w.chunks ++ [chunk] ∧ w.decoded <+: w'.decoded ∧
      w.failed = none := by
  cases h with
  | arrive _ hfailed _ harrive =>
    obtain ⟨⟨messages, stop⟩, -, harrive⟩ := bind_eq_ok harrive
    rcases stop with e | ⟨codec, buffer⟩
    · cases harrive
      exact ⟨rfl, rfl, List.prefix_append _ _, hfailed⟩
    · cases harrive
      exact ⟨rfl, rfl, List.prefix_append _ _, hfailed⟩

/-! ## What has been decoded -/

/-- The reader has been fed the pieces that have arrived, which are the first of what was
    written. -/
structure Account (w : Wire URI URIError) : Prop where
  fed : Codec.feed ⟨.new, .new, none⟩ [] w.chunks = .ok (w.decoded, match w.failed with
    | none => .ok (w.codec, w.buffer)
    | some e => .error e)
  bytes : w.chunks.flatten <+: w.bytes

variable {w w' : Wire URI URIError}

theorem bytes_write (w : Wire URI URIError) (messages : List (Message URI)) :
    (w.write messages).bytes = w.bytes ++ messages.flatMap Codec.encoded :=
  List.flatMap_append ..

namespace Account

theorem step {op : Op URI} (hw : Account w) (h : Step w op w') : Account w' := by
  cases h with
  | write messages =>
    refine ⟨hw.fed, hw.bytes.trans ?_⟩
    rw [bytes_write]
    exact List.prefix_append _ _
  | arrive chunk hfailed hnext harrive =>
    obtain ⟨⟨messages, stop⟩, hdecoded, harrive⟩ := bind_eq_ok harrive
    have hfed := hw.fed
    rw [hfailed] at hfed
    have hchunks : (w.chunks ++ [chunk]).flatten = w.chunks.flatten ++ chunk := by simp
    rcases stop with e | ⟨codec, buffer⟩
    · cases harrive
      refine ⟨?_, hchunks ▸ hnext⟩
      show Codec.feed _ _ (w.chunks ++ [chunk]) = _
      rw [Codec.feed_concat, hfed]
      simp only [ok_bind, hdecoded]
    · cases harrive
      refine ⟨?_, hchunks ▸ hnext⟩
      show Codec.feed _ _ (w.chunks ++ [chunk]) = _
      rw [Codec.feed_concat, hfed]
      simp only [ok_bind, hdecoded, hfailed]

theorem of_run {ops : List (Op URI)} (h : Run Step (new : Wire URI URIError) ops w) :
    Account w :=
  h.invariant ⟨rfl, List.prefix_rfl⟩ fun _ _ _ hw hstep => hw.step hstep

end Account

/-- **What has been decoded is the first part of what was written**, without the stream having
    failed; and it is all of it, once all bytes have arrived. -/
theorem decoded_of_run (hlawful : RequestURI.Lawful URI) {ops : List (Op URI)}
    (h : Run Step (new : Wire URI URIError) ops w) (hm : ∀ m ∈ w.written, m.Sendable) :
    w.failed = none ∧ w.decoded <+: w.written.map Message.received ∧
      (w.chunks.flatten = w.bytes → w.decoded = w.written.map Message.received) := by
  obtain ⟨hfed, rest, hrest⟩ := Account.of_run h
  obtain ⟨decoded, left, c, b, hfeed, hsplit, hall⟩ :=
    Codec.feed_firstPart hlawful hm none hrest
  have hsame := Except.ok.inj (hfed.symm.trans hfeed)
  have hdecoded : w.decoded = decoded := congrArg (·.1) hsame
  have hstop := congrArg (·.2) hsame
  refine ⟨?_, hdecoded ▸ ⟨left, hsplit.symm⟩, fun hbytes => ?_⟩
  · cases hfailed : w.failed with
    | none => rfl
    | some e =>
      rw [hfailed] at hstop
      cases hstop
  · rw [hbytes] at hrest
    rw [hsplit, hall (List.append_cancel_left (hrest.trans (List.append_nil _).symm)), hdecoded,
      List.append_nil]

/-- **Whatever piece comes next, it is taken in.** -/
theorem arrives_of_run (hlawful : RequestURI.Lawful URI) {ops : List (Op URI)}
    (h : Run Step (new : Wire URI URIError) ops w) (hm : ∀ m ∈ w.written, m.Sendable)
    (chunk : Bytes) (hnext : w.chunks.flatten ++ chunk <+: w.bytes) :
    ∃ w', Step w (.arrive chunk) w' := by
  have hfailed := (decoded_of_run hlawful h hm).1
  have hfed := (Account.of_run h).fed
  rw [hfailed] at hfed
  obtain ⟨rest, hrest⟩ := hnext
  have hchunks : (w.chunks ++ [chunk]).flatten ++ rest = w.written.flatMap Codec.encoded := by
    simpa [bytes] using hrest
  obtain ⟨decoded, left, c, b, hfeed, -⟩ :=
    @Codec.feed_firstPart URI URIError _ hlawful _ hm none _ _ hchunks
  rw [Codec.feed_concat, hfed, ok_bind] at hfeed
  obtain ⟨⟨messages, stop⟩, hdecoded, -⟩ := bind_eq_ok hfeed
  have harrive : ∃ w', w.arrive chunk = .ok w' := by
    rw [arrive, hdecoded, ok_bind]
    cases stop with
    | ok => exact ⟨_, rfl⟩
    | error => exact ⟨_, rfl⟩
  obtain ⟨w', harrive⟩ := harrive
  exact ⟨w', .arrive chunk hfailed ⟨rest, hrest⟩ harrive⟩

/-- The rest arrives at once. -/
theorem arrives_rest (hlawful : RequestURI.Lawful URI) {ops : List (Op URI)}
    (h : Run Step (new : Wire URI URIError) ops w) (hm : ∀ m ∈ w.written, m.Sendable) :
    ∃ chunk w', Step w (.arrive chunk) w' ∧ w'.written = w.written ∧
      w'.chunks.flatten = w'.bytes := by
  obtain ⟨rest, hrest⟩ := (Account.of_run h).bytes
  obtain ⟨w', hw'⟩ := arrives_of_run hlawful h hm rest (hrest ▸ List.prefix_rfl)
  obtain ⟨hwritten, hchunks, -⟩ := hw'.arrived
  refine ⟨rest, w', hw', hwritten, ?_⟩
  rw [hchunks, List.flatten_concat, hrest, bytes, bytes, hwritten]

/-- All that is written arrives at once. -/
theorem arrives_written (hlawful : RequestURI.Lawful URI) {messages : List (Message URI)}
    (hm : ∀ m ∈ messages, m.Sendable) : ∃ w : Wire URI URIError,
      Step (new.write messages) (.arrive (messages.flatMap Codec.encoded)) w ∧
        w.written = messages ∧ w.chunks.flatten = w.bytes ∧
        w.decoded = messages.map Message.received := by
  have hwritten : Run Step (new : Wire URI URIError) [.write messages] (new.write messages) :=
    .snoc .start (.write messages)
  obtain ⟨w, hw⟩ := arrives_of_run hlawful hwritten hm (messages.flatMap Codec.encoded)
    List.prefix_rfl
  have hsame : w.written = messages := hw.arrived.1
  have hbytes : w.chunks.flatten = w.bytes := by
    rw [hw.arrived.2.1, bytes, hsame]
    exact List.append_nil _
  refine ⟨w, hw, hsame, hbytes, ?_⟩
  have hdecoded := (decoded_of_run hlawful (hwritten.snoc hw) (hsame ▸ hm)).2.2 hbytes
  rw [hdecoded, hsame]

end Wire
end Rtsp
