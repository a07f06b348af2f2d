import Rtsp.Codec.Stream

/-!
# Decoding events

The receiver's decode timer is set at each `DecodingStarted` and cleared at each
`DecodingEnded`. The events should bracket the messages: no second start before
the end of a message, and none open between messages (`Bracketed`).

The codec sends the start whenever neither decoder has started and bytes are
left behind the line breaks. It does not remember that it has sent it, so a call
on bytes that an earlier call looked at and left between messages breaks the
brackets, and no other call does (`bracketed_iff`).

Events are looked at in the order in which they were sent, with those for encoding left
in between: a task that reads and writes through one codec sends both kinds through one
channel, and the receiver skips those that it has no use for.

The condition is on the state before a step. `left` is not a field of the codec but of
the stream that is observed: whether the last call left bytes in the buffer while no
message was under way. The code would need to remember just this to keep its brackets,
and it does not.

What an open bracket does is left to the receiver. Its timer is started a second time,
or started for nothing but a line break, and then runs without a message.
-/

namespace Rtsp

open Syntax Lib Decoder

namespace CodecEvent

/-- The receiver looks at no other events. -/
def isDecoding : CodecEvent → Bool
  | .decodingStarted | .decodingEnded => true
  | .encodingStarted | .encodingEnded => false

/-- The last decoding event, if there was any. -/
def lastDecoding (events : List CodecEvent) : Option CodecEvent := events.reverse.find? isDecoding

@[simp] theorem lastDecoding_concat {event : CodecEvent} (events : List CodecEvent)
    (h : event.isDecoding = true) : lastDecoding (events ++ [event]) = some event := by
  simp [lastDecoding, h]

/-- Behind every start there is an end, if the last event was no start. -/
theorem ended_mem_of_lastDecoding {before after : List CodecEvent}
    (h : lastDecoding (before ++ .decodingStarted :: after) ≠ some .decodingStarted) :
    .decodingEnded ∈ after := by
  rw [lastDecoding, List.reverse_append, List.reverse_cons, List.append_assoc,
    List.find?_append] at h
  cases hfind : after.reverse.find? isDecoding with
  | none => simp [hfind, isDecoding] at h
  | some event =>
    have hmem := List.mem_reverse.mp (List.mem_of_find?_eq_some hfind)
    have hdecoding := List.find?_some hfind
    cases event with
    | decodingEnded => exact hmem
    | decodingStarted => simp [hfind] at h
    | encodingStarted => cases hdecoding
    | encodingEnded => cases hdecoding

/-- No start follows a start without an end between them. -/
def Alternate (events : List CodecEvent) : Prop :=
  ∀ before between after,
    events = before ++ .decodingStarted :: (between ++ .decodingStarted :: after) →
      .decodingEnded ∈ between

theorem Alternate.concat {events : List CodecEvent} {event : CodecEvent} (h : Alternate events)
    (hevent : event = .decodingStarted → lastDecoding events ≠ some .decodingStarted) :
    Alternate (events ++ [event]) := by
  intro before between after heq
  rcases List.eq_nil_or_concat after with rfl | ⟨after, last, rfl⟩
  · -- The second start is the new event.
    have heq : events ++ [event] =
        (before ++ .decodingStarted :: between) ++ [.decodingStarted] := by
      simpa using heq
    obtain ⟨rfl, hlast⟩ := List.append_inj' heq rfl
    cases hlast
    exact ended_mem_of_lastDecoding (hevent rfl)
  · have heq : events ++ [event] =
        (before ++ .decodingStarted :: (between ++ .decodingStarted :: after)) ++ [last] := by
      simpa using heq
    exact h before between after (List.append_inj' heq rfl).1

/-- A start after an open one. -/
theorem not_alternate {events after : List CodecEvent}
    (h : lastDecoding events = some .decodingStarted) :
    ¬ Alternate (events ++ .decodingStarted :: after) := by
  intro halternate
  obtain ⟨-, later, before, hsplit, hlater⟩ := List.find?_eq_some_iff_append.mp h
  have hevents : events = before.reverse ++ .decodingStarted :: later.reverse := by
    rw [← List.reverse_reverse events, hsplit]
    simp
  have hended := halternate before.reverse later.reverse after (by simp [hevents])
  have := hlater _ (List.mem_reverse.mp hended)
  simp [isDecoding] at this

end CodecEvent

open CodecEvent

namespace Decoder

variable {δ μ ε κ : Type}

/-- A decoder that asks for more has not been touched, or has started. -/
theorem decodeLoop_incomplete {turn : δ → Bytes → Rust (Turn δ μ ε)} {setError : δ → ε → δ}
    {rank : δ → Nat} {config : δ → κ}
    (hmoves : ∀ d b r, turn d b = .ok r → Moves rank config d b r) {turns : Nat} {d d' : δ}
    {b : Bytes} {n : Nat} (h : decodeLoop turn setError turns d b 0 = .ok (.incomplete, n, d')) :
    (d' = d ∧ b.drop n = b) ∨ 0 < rank d' := by
  obtain ⟨d₁, k, hkept, hlast⟩ := decodeLoop_last
    (J := fun d₁ b₁ => (d₁ = d ∧ b₁ = b) ∨ 0 < rank d₁)
    (fun _ _ _ _ _ hturn => by
      cases hmoves _ _ _ hturn with
      | complete _ _ hpos _ => exact .inr hpos)
    (.inl ⟨rfl, rfl⟩) h
  rw [Nat.zero_add] at hlast
  cases hlast with
  | incomplete => exact hkept

end Decoder

namespace Codec

variable {URI URIError : Type} {c c' : Codec URI URIError} {b b' : Bytes}
  {events : List CodecEvent} {result : Except (ProtocolError URIError) (Option (Message URI))}

/-- The events sent so far, to a receiver that is still there. -/
def Sent (c : Codec URI URIError) (events : List CodecEvent) : Prop :=
  c.txEvent = some ⟨true, events⟩

theorem Sent.sendCodecEvent (h : c.Sent events) (event : CodecEvent) :
    (c.sendCodecEvent event).Sent (events ++ [event]) := by
  unfold Sent at h ⊢
  simp [Codec.sendCodecEvent, h]

/-- The end of a message is sent with its result. -/
def ended (result : Except (ProtocolError URIError) (Option (Message URI))) : List CodecEvent :=
  match result with
  | .ok none => []
  | _ => [.decodingEnded]

theorem decodeRequest_sent [RequestURI URI URIError] (h : c.Sent events)
    (hdecode : c.decodeRequest b = .ok (result, c', b')) : c'.Sent (events ++ ended result) := by
  obtain ⟨⟨r, n, d⟩, -, hdecode⟩ := bind_eq_ok hdecode
  obtain ⟨_, -, hdecode⟩ := bind_eq_ok hdecode
  have hd : Sent { c with requestDecoder := d } events := h
  cases r with
  | complete request =>
    cases hdecode
    exact hd.sendCodecEvent _
  | incomplete =>
    cases hdecode
    rw [ended, List.append_nil]
    exact hd
  | error e =>
    cases hdecode
    exact hd.sendCodecEvent _

theorem decodeResponse_sent (h : c.Sent events)
    (hdecode : c.decodeResponse b = .ok (result, c', b')) : c'.Sent (events ++ ended result) := by
  obtain ⟨⟨r, n, d⟩, -, hdecode⟩ := bind_eq_ok hdecode
  obtain ⟨_, -, hdecode⟩ := bind_eq_ok hdecode
  have hd : Sent { c with responseDecoder := d } events := h
  cases r with
  | complete response =>
    cases hdecode
    exact hd.sendCodecEvent _
  | incomplete =>
    cases hdecode
    rw [ended, List.append_nil]
    exact hd
  | error e =>
    cases hdecode
    exact hd.sendCodecEvent _

/-- A request decoder that asks for more has not been touched, or has started. -/
theorem decodeRequest_none [RequestURI URI URIError]
    (h : c.decodeRequest b = .ok (.ok none, c', b')) (hinitial : c'.Initial) :
    c.requestDecoder.isInitial = true ∧ b' = b := by
  obtain ⟨⟨r, n, d⟩, hloop, h⟩ := bind_eq_ok h
  obtain ⟨b₁, hslice, h⟩ := bind_eq_ok h
  cases r with
  | complete => cases h
  | error => cases h
  | incomplete =>
    cases h
    rcases decodeLoop_incomplete (fun _ _ _ => RequestDecoder.turn_moves) hloop with
      ⟨rfl, hdrop⟩ | hpos
    · exact ⟨hinitial.1, (sliceFrom_eq_ok hslice).trans hdrop⟩
    · have := RequestDecoder.not_isInitial hpos
      rw [hinitial.1] at this
      cases this

theorem decodeResponse_none (h : c.decodeResponse b = .ok (.ok none, c', b'))
    (hinitial : c'.Initial) : c.responseDecoder.isInitial = true ∧ b' = b := by
  obtain ⟨⟨r, n, d⟩, hloop, h⟩ := bind_eq_ok h
  obtain ⟨b₁, hslice, h⟩ := bind_eq_ok h
  cases r with
  | complete => cases h
  | error => cases h
  | incomplete =>
    cases h
    rcases decodeLoop_incomplete (fun _ _ _ => ResponseDecoder.turn_moves) hloop with
      ⟨rfl, hdrop⟩ | hpos
    · exact ⟨hinitial.2, (sliceFrom_eq_ok hslice).trans hdrop⟩
    · have := ResponseDecoder.not_isInitial hpos
      rw [hinitial.2] at this
      cases this

variable [RequestURI URI URIError]

/-- What a call of `decode` sent: inside a message, between messages with nothing but line
    breaks, and between messages with bytes behind them. -/
inductive Sends (c : Codec URI URIError) (events : List CodecEvent) (b : Bytes) :
    Except (ProtocolError URIError) (Option (Message URI)) → Codec URI URIError → Bytes → Prop where
  | inside {r c₁ b₁} : ¬ c.Initial → c₁.Sent (events ++ ended r) →
      (r = .ok none → ¬ c₁.Initial) → Sends c events b r c₁ b₁
  | nothing : c.Initial → Sends c events b (.ok none) c []
  | starts {r c₁ b₁} : c.Initial → c₁.Sent (events ++ [.decodingStarted] ++ ended r) →
      (r = .ok none → c₁.Initial → b₁ ≠ []) → Sends c events b r c₁ b₁

/-- **What a call of `decode` sends.** -/
theorem decode_sends (h : c.Sent events) (hdecode : c.decode b = .ok (result, c', b')) :
    Sends c events b result c' b' := by
  rw [decode] at hdecode
  cases hreq : c.requestDecoder.isInitial with
  | false =>
    rw [if_pos (by simp [hreq])] at hdecode
    refine .inside (fun hc => by simp [hc.1] at hreq) (decodeRequest_sent h hdecode) ?_
    rintro rfl hc'
    rw [(decodeRequest_none hdecode hc').1] at hreq
    cases hreq
  | true =>
    rw [if_neg (by simp [hreq])] at hdecode
    cases hresp : c.responseDecoder.isInitial with
    | false =>
      rw [if_pos (by simp [hresp])] at hdecode
      refine .inside (fun hc => by simp [hc.2] at hresp) (decodeResponse_sent h hdecode) ?_
      rintro rfl hc'
      rw [(decodeResponse_none hdecode hc').1] at hresp
      cases hresp
    | true =>
      rw [if_neg (by simp [hresp])] at hdecode
      dsimp only at hdecode
      generalize skipNewlines b = rest at hdecode
      cases rest with
      | nil =>
        cases hdecode
        exact .nothing ⟨hreq, hresp⟩
      | cons x rest =>
        have hstart := h.sendCodecEvent .decodingStarted
        rw [List.isEmpty_cons, if_neg (c := false = true) (by simp)] at hdecode
        refine .starts ⟨hreq, hresp⟩ ?_ ?_
        · split at hdecode
          · cases hdecode
            rw [ended, List.append_nil]
            exact hstart
          · split at hdecode
            · exact decodeResponse_sent hstart hdecode
            · exact decodeRequest_sent hstart hdecode
        · rintro rfl hc'
          split at hdecode
          · cases hdecode
            simp
          · split at hdecode
            · simp [(decodeResponse_none hdecode hc').2]
            · simp [(decodeRequest_none hdecode hc').2]

end Codec

namespace Stream

open Codec

variable {URI URIError : Type}

/-- The events that the codec has sent. -/
def events (s : Stream URI URIError) : List CodecEvent :=
  match s.codec.txEvent with
  | some tx => tx.sent
  | none => []

theorem events_of_sent {s : Stream URI URIError} {events : List CodecEvent}
    (h : s.codec.Sent events) : s.events = events := by
  unfold Sent at h
  simp [Stream.events, h]

/-- **Decoding events bracket messages.** -/
structure Bracketed (s : Stream URI URIError) : Prop where
  alternate : Alternate s.events
  ended : s.codec.Initial → s.buffer = [] → lastDecoding s.events ≠ some .decodingStarted

/-- Nothing is decoded between messages of which an earlier call has seen a part. -/
def Clean (s : Stream URI URIError) : Op URI URIError → Prop
  | .chunk _ => True
  | .decode _ => s.codec.Initial → s.left = false

variable [RequestURI URI URIError] {s s' : Stream URI URIError} {op : Op URI URIError}

/-- A clean step. -/
def CleanStep (s : Stream URI URIError) (op : Op URI URIError) (s' : Stream URI URIError) : Prop :=
  Step s op s' ∧ Clean s op

omit [RequestURI URI URIError] in
/-- What clean steps keep: between messages a start is open exactly while bytes are left. -/
structure Tidy (s : Stream URI URIError) (events : List CodecEvent) : Prop where
  sent : s.codec.Sent events
  alternate : Alternate events
  closed : s.codec.Initial → s.left = false → lastDecoding events ≠ some .decodingStarted
  opened : s.codec.Initial → s.left = true → lastDecoding events = some .decodingStarted
  left : s.left = true → s.buffer ≠ []

omit [RequestURI URI URIError] in
theorem Tidy.bracketed {events : List CodecEvent} (h : Tidy s events) : Bracketed s := by
  rw [← events_of_sent h.sent] at h
  refine ⟨h.alternate, fun hinitial hbuffer => h.closed hinitial ?_⟩
  cases hleft : s.left with
  | false => rfl
  | true => exact absurd hbuffer (h.left hleft)

omit [RequestURI URI URIError] in
theorem tidy_start : Tidy (start (some ⟨true, []⟩) : Stream URI URIError) [] where
  sent := rfl
  alternate before between after h := by simp at h
  closed _ _ := by simp [lastDecoding]
  opened _ h := by cases h
  left h := by cases h

omit [RequestURI URI URIError] in
/-- After a result that is no request for more, the message is closed. -/
theorem lastDecoding_ended {result : Except (ProtocolError URIError) (Option (Message URI))}
    (events : List CodecEvent) (h : result ≠ .ok none) :
    lastDecoding (events ++ Codec.ended result) = some .decodingEnded := by
  unfold Codec.ended
  split
  · exact absurd rfl h
  · exact lastDecoding_concat events rfl

omit [RequestURI URI URIError] in
theorem Alternate.ended {events : List CodecEvent} (h : Alternate events)
    (result : Except (ProtocolError URIError) (Option (Message URI))) :
    Alternate (events ++ Codec.ended result) := by
  unfold Codec.ended
  split
  · rwa [List.append_nil]
  · exact h.concat fun h => by cases h

/-- A call keeps the events tidy, when it is clean. -/
theorem Tidy.decode {events : List CodecEvent}
    {result : Except (ProtocolError URIError) (Option (Message URI))} {c : Codec URI URIError}
    {b : Bytes} (h : Tidy s events) (hclean : s.codec.Initial → s.left = false)
    (hdecode : s.codec.decode s.buffer = .ok (result, c, b)) :
    ∃ events', Tidy ⟨c, b, asksForMore result && !b.isEmpty⟩ events' := by
  have hleft : (asksForMore result && !b.isEmpty) = true → b ≠ [] := by
    rintro h rfl
    simp at h
  by_cases hresult : result = .ok none
  · subst hresult
    cases decode_sends h.sent hdecode with
    | inside _ hsent hstarted =>
      rw [Codec.ended, List.append_nil] at hsent
      exact ⟨events, hsent, h.alternate, fun hinitial => absurd hinitial (hstarted rfl),
        fun hinitial => absurd hinitial (hstarted rfl), hleft⟩
    | nothing hinitial =>
      have hclosed := h.closed hinitial (hclean hinitial)
      exact ⟨events, h.sent, h.alternate, fun _ _ => hclosed, fun _ h => by simp at h, hleft⟩
    | starts hinitial hsent hrest =>
      rw [Codec.ended, List.append_nil] at hsent
      refine ⟨_, hsent, h.alternate.concat fun _ => h.closed hinitial (hclean hinitial),
        fun hinitial' hno => ?_, fun _ _ => lastDecoding_concat events rfl, hleft⟩
      -- The bytes that the call has started on are left.
      have hempty : b = [] := by simpa [asksForMore] using hno
      exact absurd hempty (hrest rfl hinitial')
  · have hnot : (asksForMore result && !b.isEmpty) = false := by
      unfold asksForMore
      split
      · exact absurd rfl hresult
      · rfl
    cases decode_sends h.sent hdecode with
    | inside _ hsent _ =>
      have hlast := lastDecoding_ended events hresult
      exact ⟨_, hsent, Alternate.ended h.alternate result, fun _ _ => by simp [hlast],
        fun _ h => by simp [hnot] at h, hleft⟩
    | nothing => exact absurd rfl hresult
    | starts hinitial hsent _ =>
      have hlast := lastDecoding_ended (events ++ [.decodingStarted]) hresult
      have hclosed : lastDecoding (events ++ [.decodingStarted] ++ Codec.ended result) ≠
          some .decodingStarted := by
        rw [hlast]
        simp
      have halternate : Alternate (events ++ [.decodingStarted]) :=
        h.alternate.concat fun _ => h.closed hinitial (hclean hinitial)
      exact ⟨_, hsent, Alternate.ended halternate result, fun _ _ => hclosed,
        fun _ h => by simp [hnot] at h, hleft⟩

/-- **A clean step keeps the events tidy.** -/
theorem Tidy.step {events : List CodecEvent} (h : Tidy s events) (hstep : CleanStep s op s') :
    ∃ events', Tidy s' events' := by
  obtain ⟨hstep, hclean⟩ := hstep
  cases hstep with
  | chunk bytes =>
    refine ⟨events, h.sent, h.alternate, h.closed, h.opened, fun hleft hempty => ?_⟩
    exact h.left hleft (List.append_eq_nil_iff.mp hempty).1
  | decode hdecode => exact h.decode hclean hdecode

/-- A call that is not clean starts a message twice, or leaves one open between messages. -/
theorem Tidy.not_bracketed {events : List CodecEvent} (h : Tidy s events) (hstep : Step s op s')
    (hclean : ¬ Clean s op) : ¬ Bracketed s' := by
  intro hbracketed
  cases hstep with
  | chunk => exact hclean trivial
  | decode hdecode =>
    obtain ⟨hinitial, hleft⟩ := Classical.not_imp.mp hclean
    have hopen := h.opened hinitial (by simpa using hleft)
    cases decode_sends h.sent hdecode with
    | inside hc => exact hc hinitial
    | nothing _ =>
      have hended := hbracketed.ended hinitial rfl
      have hevents : (⟨s.codec, [], false⟩ : Stream URI URIError).events = events :=
        events_of_sent h.sent
      exact hended (hevents ▸ hopen)
    | starts _ hsent _ =>
      have halternate := hbracketed.alternate
      rw [events_of_sent hsent, List.append_assoc] at halternate
      exact not_alternate hopen halternate

/-- **A step after clean ones leaves the events bracketed exactly when it is clean.** -/
theorem bracketed_iff {ops : List (Op URI URIError)}
    (hrun : Run CleanStep (start (some ⟨true, []⟩)) ops s) (hstep : Step s op s') :
    Bracketed s' ↔ Clean s op := by
  obtain ⟨events, htidy⟩ := hrun.invariant (I := fun s => ∃ events, Tidy s events)
    ⟨[], tidy_start⟩ fun _ _ _ ⟨_, h⟩ hstep => h.step hstep
  constructor
  · intro hbracketed
    by_cases hclean : Clean s op
    · exact hclean
    · exact absurd hbracketed (htidy.not_bracketed hstep hclean)
  · intro hclean
    obtain ⟨_, htidy'⟩ := htidy.step ⟨hstep, hclean⟩
    exact htidy'.bracketed

/-- The first half of a line break, which a call has looked at. -/
def halfBreak : Stream AsteriskURI Unit :=
  let r := returned ((start (some ⟨true, []⟩) : Stream AsteriskURI Unit).codec.decode [CR])
    (by decide +kernel)
  ⟨r.2.1, [CR], true⟩

theorem run_halfBreak :
    Run CleanStep (start (some ⟨true, []⟩)) [.chunk [CR], .decode (.ok none)] halfBreak := by
  have hdecode : (start (some ⟨true, []⟩) : Stream AsteriskURI Unit).codec.decode [CR] =
      .ok (.ok none, halfBreak.codec, [CR]) := by decide +kernel
  exact .snoc (.snoc .start ⟨.chunk _, trivial⟩) ⟨.decode hdecode, fun _ => rfl⟩

theorem decode_halfBreak : Step { halfBreak with buffer := [CR, LF] }
    (.decode (.ok none)) (⟨halfBreak.codec, [], false⟩ : Stream AsteriskURI Unit) :=
  .decode (s := { halfBreak with buffer := [CR, LF] })
    (show halfBreak.codec.decode [CR, LF] = .ok (.ok none, halfBreak.codec, []) by decide +kernel)

/-- The first half of a line break is looked at, and nothing is open behind it if the call that
    finds the other half is clean; it is not. -/
theorem bracketed_iff_halfBreak :
    Bracketed halfBreak ∧ ¬ Bracketed (⟨halfBreak.codec, [], false⟩ : Stream AsteriskURI Unit) := by
  have hchunk : Run CleanStep (start (some ⟨true, []⟩)) [.chunk [CR]]
      (⟨(start (some ⟨true, []⟩) : Stream AsteriskURI Unit).codec, [CR], false⟩) :=
    .snoc .start ⟨.chunk _, trivial⟩
  have hdecode : (start (some ⟨true, []⟩) : Stream AsteriskURI Unit).codec.decode [CR] =
      .ok (.ok none, halfBreak.codec, [CR]) := by decide +kernel
  have hrest : Run CleanStep (start (some ⟨true, []⟩))
      [.chunk [CR], .decode (.ok none), .chunk [LF]] { halfBreak with buffer := [CR, LF] } :=
    run_halfBreak.snoc ⟨.chunk [LF], trivial⟩
  have hunclean : ¬ Clean { halfBreak with buffer := [CR, LF] } (.decode (.ok none)) :=
    fun h => nomatch h (by decide +kernel)
  exact ⟨(bracketed_iff hchunk (.decode hdecode)).mpr fun _ => rfl,
    mt (bracketed_iff hrest decode_halfBreak).mp hunclean⟩

/-- A line break between messages, cut in two, leaves a start that nothing ends. -/
theorem not_bracketed : ¬ ∀ (ops : List (Op AsteriskURI Unit)) (s : Stream AsteriskURI Unit),
    Run Step (start (some ⟨true, []⟩)) ops s → Bracketed s := by
  intro h
  have hrun : Run Step (start (some ⟨true, []⟩))
      [.chunk [CR], .decode (.ok none), .chunk [LF], .decode (.ok none)]
      (⟨halfBreak.codec, [], false⟩ : Stream AsteriskURI Unit) :=
    .snoc (.snoc (run_halfBreak.mono fun _ _ _ h => h.1) (.chunk [LF])) decode_halfBreak
  have hended := (h _ _ hrun).ended (by decide +kernel) rfl
  exact hended (by decide +kernel)

end Stream
end Rtsp
