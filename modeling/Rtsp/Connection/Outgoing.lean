import Mathlib.Data.List.Forall2
import Rtsp.Connection.Closing

/-!
# What the sender does with messages

With a sink that does not fail, a poll of the sender loses nothing: messages
leave in order, and what the sink does not take is kept (`poll_sends`). If the
sink takes all that is there and is flushed, nothing is left (`poll_clears`),
and only then does the sender end by itself (`clears_of_ends`).

All this is about single polls, whose sink is described by its answers. `Reliable`
leaves out the answers of a sink that fails, and says nothing about when it takes a
message, so a sink may be as slow as it likes. `Clears` is the opposite of slow, and is
about one sender: as many answers as there are messages, all of them good, and the flush
with them.

`poll_flushed_iff` goes both ways. Since nothing else flushes the sink, a message that
has not been flushed before is flushed exactly in such a poll, and this is what decides
about messages that are left when a connection ends (`Connection.Unsent`).
-/

namespace Rtsp

namespace Sender

variable {URI : Type} {s : Sender URI} {env : Answers}

/-- The sink does not fail. -/
structure Answers.Reliable (env : Answers) : Prop where
  startSend : .closed ∉ env.startSend
  pollComplete : env.pollComplete ≠ .error ()
  close : env.close ≠ .error ()

/-- The sink takes all messages that wait, and is flushed behind them. -/
def Clears (s : Sender URI) (env : Answers) : Prop :=
  refusal env.startSend s.pending.length = none ∧
    if env.ended then env.close = .ok (.ready ()) else env.pollComplete = .ok (.ready ())

/-- A message as it was given to the sender, and as it leaves it. -/
def Dated (message sent : Message URI) : Prop := ∃ date, sent = insertDate date message

/-- What was accepted comes first among what was taken out of the channel. -/
theorem dated_accepted {messages taken outgoing accepted kept : List (Message URI)}
    (hmessages : messages = taken ++ outgoing)
    (hdated : List.Forall₂ Dated taken (accepted ++ kept)) :
    ∃ taken, taken <+: messages ∧ List.Forall₂ Dated taken accepted := by
  refine ⟨taken.take accepted.length, ?_, ?_⟩
  · rw [hmessages]
    exact (List.take_prefix _ _).trans (List.prefix_append _ _)
  · have htake := List.forall₂_take accepted.length hdated
    rwa [List.take_left' rfl] at htake

theorem head_ne_closed {answers : List SendAnswer} (h : .closed ∉ answers) :
    answers.head?.getD .notReady ≠ .closed := by
  cases answers with
  | nil => exact nofun
  | cons answer answers => exact fun heq => h (heq ▸ .head _)

/-- **Messages leave in order**: what is taken out of the channel is dated, and accepted or
    kept. -/
theorem writeLoop_sends (env : Answers) (outgoing : List (Message URI)) {answers : List SendAnswer}
    (hanswers : .closed ∉ answers) {t : Trace URI} (ht : t.flushed = false) :
    ∃ taken sent, outgoing = taken ++ (writeLoop env answers none outgoing t).2.1.outgoing ∧
      List.Forall₂ Dated taken sent ∧
      (writeLoop env answers none outgoing t).2.2.accepted ++
          (writeLoop env answers none outgoing t).2.1.bufferedMessage.toList = t.accepted ++ sent ∧
      ((writeLoop env answers none outgoing t).2.2.flushed = true →
        (writeLoop env answers none outgoing t).2.1.bufferedMessage = none) := by
  induction outgoing generalizing answers t with
  | nil =>
    refine ⟨[], [], ?_⟩
    unfold writeLoop
    split
    · exact ⟨rfl, .nil, rfl, fun _ => rfl⟩
    · split
      all_goals exact ⟨rfl, .nil, rfl, fun _ => rfl⟩
  | cons message outgoing ih =>
    unfold writeLoop
    cases hanswer : answers.head?.getD .notReady with
    | ready =>
      have htail : .closed ∉ answers.tail := fun h => hanswers (List.mem_of_mem_tail h)
      have ht' : (t.accept (insertDate (env.date outgoing.length) message)).flushed = false := ht
      obtain ⟨taken, sent, hrest, hdated, haccepted, hflushed⟩ := ih htail ht'
      refine ⟨message :: taken, insertDate (env.date outgoing.length) message :: sent, ?_,
        .cons ⟨_, rfl⟩ hdated, ?_, hflushed⟩
      · exact congrArg (message :: ·) hrest
      · refine haccepted.trans ?_
        simp [Trace.accept]
    | notReady =>
      refine ⟨[message], [insertDate (env.date outgoing.length) message], rfl,
        .cons ⟨_, rfl⟩ .nil, rfl, fun hflushed => ?_⟩
      rw [show t.flushed = true from hflushed] at ht
      cases ht
    | closed => exact absurd hanswer (head_ne_closed hanswers)

/-- A sink that takes all messages: nothing is left, and the flush or the close comes next. -/
theorem writeLoop_clears (env : Answers) {outgoing : List (Message URI)}
    {answers : List SendAnswer} (h : refusal answers outgoing.length = none) (t : Trace URI) :
    (writeLoop env answers none outgoing t).2.1 = ⟨none, []⟩ ∧
      (env.ended = false → env.pollComplete = .ok (.ready ()) →
        (writeLoop env answers none outgoing t).2.2.flushed = true) := by
  induction outgoing generalizing answers t with
  | nil =>
    unfold writeLoop
    split
    · next hended =>
      refine ⟨rfl, fun hopen => ?_⟩
      rw [hended] at hopen
      cases hopen
    · cases hflush : env.pollComplete with
      | error => exact ⟨rfl, fun _ h => by cases h⟩
      | ok answer =>
        cases answer with
        | ready => exact ⟨rfl, fun _ _ => rfl⟩
        | notReady => exact ⟨rfl, fun _ h => by cases h⟩
  | cons message outgoing ih =>
    rw [List.length_cons, refusal] at h
    unfold writeLoop
    cases hanswer : answers.head?.getD .notReady with
    | ready =>
      rw [hanswer] at h
      exact ih h _
    | notReady =>
      rw [hanswer] at h
      cases h
    | closed =>
      rw [hanswer] at h
      cases h

/-- What one poll does with the messages. -/
structure Sends (s s' : Sender URI) (t : Trace URI) : Prop where
  messages : ∃ taken sent, s.outgoing = taken ++ s'.outgoing ∧ List.Forall₂ Dated taken sent ∧
    t.accepted ++ s'.bufferedMessage.toList = s.bufferedMessage.toList ++ sent
  flushed : t.flushed = true → s'.bufferedMessage = none

/-- The loop says that there is nothing more to send only if that is so. -/
theorem writeLoop_ready (env : Answers) (answers : List SendAnswer) (outgoing : List (Message URI))
    (t : Trace URI) (h : (writeLoop env answers none outgoing t).1 = .ok (.ready ())) :
    (writeLoop env answers none outgoing t).2.1 = ⟨none, []⟩ := by
  rw [writeLoop_result] at h
  cases hrefusal : refusal answers outgoing.length with
  | none => exact (writeLoop_clears env hrefusal t).1
  | some answer =>
    rw [hrefusal] at h
    cases answer <;> cases h

theorem pollRest_sends (env : Answers) (outgoing : List (Message URI)) {answers : List SendAnswer}
    (hanswers : .closed ∉ answers) {t : Trace URI} (ht : t.flushed = false) :
    ∃ taken sent, outgoing = taken ++ (pollRest ⟨none, outgoing⟩ env answers t).2.1.outgoing ∧
      List.Forall₂ Dated taken sent ∧
      (pollRest ⟨none, outgoing⟩ env answers t).2.2.accepted ++
          (pollRest ⟨none, outgoing⟩ env answers t).2.1.bufferedMessage.toList =
        t.accepted ++ sent ∧
      ((pollRest ⟨none, outgoing⟩ env answers t).2.2.flushed = true →
        (pollRest ⟨none, outgoing⟩ env answers t).2.1.bufferedMessage = none) := by
  have hsends := writeLoop_sends env outgoing hanswers ht
  have hready := writeLoop_ready env answers outgoing t
  unfold pollRest pollWrite
  generalize writeLoop env answers none outgoing t = written at hsends hready
  obtain ⟨result, s', t'⟩ := written
  rcases result with _ | (_ | _)
  · exact hsends
  · obtain rfl : s' = ⟨none, []⟩ := hready rfl
    obtain ⟨taken, sent, hrest, hdated, haccepted, -⟩ := hsends
    dsimp only
    split
    all_goals exact ⟨taken, sent, hrest, hdated, haccepted, fun _ => rfl⟩
  · exact hsends

/-- **A poll sends messages in order**, as long as the sink does not fail. -/
theorem poll_sends (henv : env.Reliable) : Sends s (s.poll env).2.1 (s.poll env).2.2 := by
  obtain ⟨buffered, outgoing⟩ := s
  unfold poll
  cases buffered with
  | none =>
    have hempty : (Trace.empty : Trace URI).flushed = false := rfl
    obtain ⟨taken, sent, hrest, hdated, haccepted, hflushed⟩ :=
      pollRest_sends env outgoing henv.startSend hempty
    exact ⟨⟨taken, sent, hrest, hdated, haccepted⟩, hflushed⟩
  | some message =>
    dsimp only
    cases hanswer : env.startSend.head?.getD .notReady with
    | ready =>
      have htail : .closed ∉ env.startSend.tail := fun h => henv.startSend (List.mem_of_mem_tail h)
      have hfirst : (Trace.empty.accept message).flushed = false := rfl
      obtain ⟨taken, sent, hrest, hdated, haccepted, hflushed⟩ :=
        pollRest_sends env outgoing htail hfirst
      exact ⟨⟨taken, sent, hrest, hdated, haccepted⟩, hflushed⟩
    | notReady => exact ⟨⟨[], [], rfl, .nil, rfl⟩, nofun⟩
    | closed => exact absurd hanswer (head_ne_closed henv.startSend)

theorem pollRest_clears {outgoing : List (Message URI)} {answers : List SendAnswer}
    (h : refusal answers outgoing.length = none)
    (hflush : if env.ended then env.close = .ok (.ready ())
      else env.pollComplete = .ok (.ready ())) (t : Trace URI) :
    (pollRest ⟨none, outgoing⟩ env answers t).2.1 = ⟨none, []⟩ ∧
      (pollRest ⟨none, outgoing⟩ env answers t).2.2.flushed = true := by
  have hclears := writeLoop_clears env h t
  have hresult := writeLoop_result env answers none outgoing t
  rw [h] at hresult
  unfold pollRest pollWrite
  generalize writeLoop env answers none outgoing t = written at hclears hresult
  obtain ⟨result, s', t'⟩ := written
  dsimp only at hclears hresult ⊢
  obtain ⟨rfl, hflushed⟩ := hclears
  cases hended : env.ended with
  | true =>
    rw [hended, if_pos rfl] at hflush hresult
    subst hresult
    dsimp only
    rw [hflush]
    exact ⟨rfl, rfl⟩
  | false =>
    rw [hended, if_neg Bool.false_ne_true] at hflush hresult
    rw [hflush, if_neg nofun] at hresult
    subst hresult
    exact ⟨rfl, hflushed hended hflush⟩

/-- **A poll that clears the sender leaves nothing in it**, and nothing that is not flushed. -/
theorem poll_clears (h : s.Clears env) :
    (s.poll env).2.1 = ⟨none, []⟩ ∧ (s.poll env).2.2.flushed = true := by
  obtain ⟨hrefusal, hflush⟩ := h
  obtain ⟨buffered, outgoing⟩ := s
  unfold poll
  cases buffered with
  | none => exact pollRest_clears hrefusal hflush _
  | some message =>
    rw [pending, Option.toList_some, List.singleton_append, List.length_cons, refusal] at hrefusal
    dsimp only
    cases hanswer : env.startSend.head?.getD .notReady with
    | ready =>
      rw [hanswer] at hrefusal
      exact pollRest_clears hrefusal hflush _
    | notReady =>
      rw [hanswer] at hrefusal
      cases hrefusal
    | closed =>
      rw [hanswer] at hrefusal
      cases hrefusal

/-- The loop flushes the sink only behind the last message. -/
theorem writeLoop_flushed (env : Answers) (outgoing : List (Message URI))
    {answers : List SendAnswer} {buffered : Option (Message URI)} {t : Trace URI}
    (ht : t.flushed = false)
    (h : (writeLoop env answers buffered outgoing t).2.2.flushed = true) :
    refusal answers outgoing.length = none ∧ env.ended = false ∧
      env.pollComplete = .ok (.ready ()) := by
  induction outgoing generalizing answers buffered t with
  | nil =>
    unfold writeLoop at h
    split at h
    · cases ht.symm.trans h
    · next hended =>
      refine ⟨rfl, Bool.eq_false_iff.mpr hended, ?_⟩
      split at h
      · assumption
      · cases ht.symm.trans h
      · cases ht.symm.trans h
  | cons message outgoing ih =>
    unfold writeLoop at h
    rw [List.length_cons, refusal]
    cases hanswer : answers.head?.getD .notReady with
    | ready =>
      rw [hanswer] at h
      have ht' : (t.accept (insertDate (env.date outgoing.length) message)).flushed = false := ht
      exact ih ht' h
    | notReady =>
      rw [hanswer] at h
      cases ht.symm.trans h
    | closed =>
      rw [hanswer] at h
      cases ht.symm.trans h

theorem pollRest_flushed {outgoing : List (Message URI)} {answers : List SendAnswer}
    {t : Trace URI} (ht : t.flushed = false)
    (h : (pollRest ⟨none, outgoing⟩ env answers t).2.2.flushed = true) :
    refusal answers outgoing.length = none ∧
      if env.ended then env.close = .ok (.ready ()) else env.pollComplete = .ok (.ready ()) := by
  have hflushed : (writeLoop env answers none outgoing t).2.2.flushed = true → _ :=
    writeLoop_flushed env outgoing ht
  have hresult := writeLoop_result env answers none outgoing t
  unfold pollRest pollWrite at h
  generalize writeLoop env answers none outgoing t = written at h hflushed hresult
  obtain ⟨result, s', t'⟩ := written
  -- The sink has been flushed in the loop, unless it is closed behind it.
  have hloop : t'.flushed = true → refusal answers outgoing.length = none ∧
      if env.ended then env.close = .ok (.ready ()) else env.pollComplete = .ok (.ready ()) := by
    intro hwritten
    obtain ⟨hrefusal, hended, hcomplete⟩ := hflushed hwritten
    refine ⟨hrefusal, ?_⟩
    rw [hended, if_neg Bool.false_ne_true]
    exact hcomplete
  rcases result with _ | (_ | _)
  · exact hloop h
  · cases hrefusal : refusal answers outgoing.length with
    | some answer =>
      rw [hrefusal] at hresult
      cases answer <;> cases hresult
    | none =>
      rw [hrefusal] at hresult hloop
      refine ⟨rfl, ?_⟩
      cases hclose : env.close with
      | ok answer =>
        cases answer with
        | ready =>
          split
          · rfl
          · next hended =>
            dsimp only at hresult
            rw [if_neg hended] at hresult
            split at hresult <;> cases hresult
        | notReady =>
          rw [hclose] at h
          exact hclose ▸ (hloop h).2
      | error =>
        rw [hclose] at h
        exact hclose ▸ (hloop h).2
  · exact hloop h

/-- **Only a sink that takes everything is flushed**, so what has not been flushed before is
    flushed exactly in the polls that clear the sender. -/
theorem poll_flushed_iff (s : Sender URI) (env : Answers) :
    (s.poll env).2.2.flushed = true ↔ s.Clears env := by
  refine ⟨fun h => ?_, fun h => (poll_clears h).2⟩
  obtain ⟨buffered, outgoing⟩ := s
  have hempty : (Trace.empty : Trace URI).flushed = false := rfl
  unfold poll at h
  unfold Clears pending
  cases buffered with
  | none => exact pollRest_flushed hempty h
  | some message =>
    rw [Option.toList_some, List.singleton_append, List.length_cons, refusal]
    dsimp only at h
    cases hanswer : env.startSend.head?.getD .notReady with
    | ready =>
      rw [hanswer] at h
      have hfirst : (Trace.empty.accept message).flushed = false := rfl
      exact pollRest_flushed hfirst h
    | notReady =>
      rw [hanswer] at h
      cases h
    | closed =>
      rw [hanswer] at h
      cases h

/-- A sink that does not fail ends the sender only when it has cleared it. -/
theorem clears_of_ends (henv : env.Reliable) (h : (s.poll env).1 ≠ .ok .notReady) :
    s.Clears env := by
  rw [poll_result] at h
  have hnot : ∀ (n : Nat) (answers : List SendAnswer), .closed ∉ answers →
      refusal answers n ≠ some .closed := by
    intro n
    induction n with
    | zero => exact fun _ _ => fun h => by cases h
    | succ n ih =>
      intro answers hanswers
      rw [refusal]
      cases hanswer : answers.head?.getD .notReady with
      | ready => exact ih _ fun hmem => hanswers (List.mem_of_mem_tail hmem)
      | notReady => exact fun h => by cases h
      | closed => exact absurd hanswer (head_ne_closed hanswers)
  unfold Clears
  cases hrefusal : refusal env.startSend s.pending.length with
  | some answer =>
    rw [hrefusal] at h
    cases answer with
    | closed => exact absurd hrefusal (hnot _ _ henv.startSend)
    | ready => exact absurd rfl h
    | notReady => exact absurd rfl h
  | none =>
    rw [hrefusal, outcome] at h
    refine ⟨rfl, ?_⟩
    split
    · next hended =>
      rw [if_pos hended] at h
      rcases hclose : env.close with _ | (_ | _)
      · exact absurd hclose henv.close
      · rfl
      · exact absurd hclose h
    · next hended =>
      rw [if_neg hended, if_neg henv.pollComplete] at h
      exact absurd rfl h

end Sender

end Rtsp
