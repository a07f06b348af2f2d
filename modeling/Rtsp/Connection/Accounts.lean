import Rtsp.Connection.World

/-!
# The account of the messages

What has been put into the channel of the sender, what the sink has accepted of it and
how much of that was flushed, from the start of a connection (`Accounts`). Messages
leave in the order in which they were put in, each with a date, so a message is found by
its place: the `i`-th message was flushed if at least `i + 1` of them were. Of the
messages that others put in only their number matters; those of the request handler are
the responses that it says it has enqueued.

The account holds whatever becomes of the sender: without one, nothing is put in or
taken out. So it says nothing of what is lost with the sender. That is what `owes` is
for: a response of the request handler that was not flushed. Every part of a poll and
every step of the other tasks is shown to keep the account here, and when nothing is owed
behind it.
-/

namespace Rtsp

open Lib

namespace World

variable {URI URIError : Type}

/-! ## The account of the messages -/

/-- The messages of the request handler, among those that were put into the channel. -/
def fromHandler (queued : List (Message URI × Source)) : List (Message URI) :=
  (queued.filter (·.2 = .handler)).map (·.1)

theorem fromHandler_append (as bs : List (Message URI × Source)) :
    fromHandler (as ++ bs) = fromHandler as ++ fromHandler bs := by
  rw [fromHandler, List.filter_append, List.map_append]
  rfl

theorem fromHandler_handler (messages : List (Message URI)) :
    fromHandler (messages.map (·, Source.handler)) = messages := by
  induction messages with
  | nil => rfl
  | cons message messages ih => exact congrArg (message :: ·) ih

theorem fromHandler_others (messages : List (Message URI)) :
    fromHandler (messages.map (·, Source.others)) = [] := by
  induction messages with
  | nil => rfl
  | cons message messages ih => exact ih

/-- A response of the request handler has not been flushed. -/
def owes (w : World URI) : Bool := (w.queued.drop w.flushed).any (·.2 = .handler)

/-- What holds of the messages in every run. -/
structure Accounts (w : World URI) : Prop where
  flushed : w.flushed ≤ w.accepted.length
  handler : fromHandler w.queued = (RequestHandler.responses w.handler.2).map .response
  /-- The sender holds what the sink has not accepted. -/
  sending : ∀ s, w.connection.sender = some s → ∃ taken,
    w.queued.map (·.1) = taken ++ s.outgoing ∧
      List.Forall₂ Sender.Dated taken (w.accepted ++ s.bufferedMessage.toList)
  accepted : ∃ taken, taken <+: w.queued.map (·.1) ∧ List.Forall₂ Sender.Dated taken w.accepted

/-- Every response of the request handler has been flushed. -/
def Delivered (w : World URI) : Prop :=
  ∀ (i : Nat) message, w.queued[i]? = some (message, .handler) →
    i < w.flushed ∧ ∃ sent, w.accepted[i]? = some sent ∧ Sender.Dated message sent

variable {w w' : World URI} {env : Connection.Answers URI URIError}

/-- If nothing is owed, everything is delivered. -/
theorem Accounts.delivered (hw : Accounts w) (howes : w.owes = false) : w.Delivered := by
  intro i message hi
  have hflushed : i < w.flushed := by
    by_contra hge
    have hmem : (message, Source.handler) ∈ w.queued.drop w.flushed := by
      refine List.mem_of_getElem? (i := i - w.flushed) ?_
      rw [List.getElem?_drop, Nat.add_sub_cancel' (Nat.not_lt.mp hge), hi]
    have hany : w.owes = true := List.any_eq_true.mpr ⟨_, hmem, rfl⟩
    rw [howes] at hany
    cases hany
  obtain ⟨taken, ⟨rest, hrest⟩, hdated⟩ := hw.accepted
  have hlt : i < w.accepted.length := Nat.lt_of_lt_of_le hflushed hw.flushed
  have htaken : i < taken.length := hdated.length_eq ▸ hlt
  refine ⟨hflushed, w.accepted[i], List.getElem?_eq_getElem hlt, ?_⟩
  have hsame : taken[i] = message := by
    have hqueued : (w.queued.map (·.1))[i]? = some message := by
      rw [List.getElem?_map, hi]
      rfl
    rw [← hrest, List.getElem?_append_left htaken, List.getElem?_eq_getElem htaken] at hqueued
    exact Option.some.inj hqueued
  exact hsame ▸ hdated.get htaken hlt

/-- **Everything is delivered exactly if nothing is owed.** -/
theorem Accounts.delivered_iff (hw : Accounts w) : w.Delivered ↔ w.owes = false := by
  refine ⟨fun hdelivered => Bool.eq_false_iff.mpr fun hany => ?_, hw.delivered⟩
  obtain ⟨⟨message, source⟩, hmem, hsource⟩ := List.any_eq_true.mp hany
  obtain rfl : source = .handler := by simpa using hsource
  obtain ⟨i, hi⟩ := List.mem_iff_getElem?.mp hmem
  rw [List.getElem?_drop] at hi
  exact Nat.not_lt.mpr (Nat.le_add_right _ i) (hdelivered _ message hi).1

/-! ## What keeps the account -/

theorem accounts_start (size : Nat) (duration : Option Nat) (default : Nat) :
    Accounts (start size duration default : World URI) where
  flushed := Nat.le_refl 0
  handler := rfl
  sending s hs := by
    cases hs
    exact ⟨[], rfl, .nil⟩
  accepted := ⟨[], List.nil_prefix, .nil⟩

/-- The request handler is told of requests. -/
theorem Accounts.forward (hw : Accounts w) (requests : Forwarded URI) :
    Accounts (w.forward requests) :=
  ⟨hw.flushed, hw.handler, hw.sending, hw.accepted⟩

/-- Messages are put into the channel. -/
theorem Accounts.enqueue (hw : Accounts w) {events : List (RequestHandler.Event URI)}
    {handler : RequestHandler URI} {source : Source} {messages : List (Message URI)}
    (hevents : (RequestHandler.responses events).map .response =
      fromHandler w.queued ++
        if w.connection.sender.isSome then fromHandler (messages.map (·, source)) else []) :
    Accounts ({ w with handler := (handler, events) }.enqueue source messages) := by
  unfold World.enqueue
  dsimp only
  split
  · next s hs =>
    obtain ⟨taken, hqueued, hdated⟩ := hw.sending s hs
    have hmap : (w.queued ++ messages.map (·, source)).map (·.1) =
        w.queued.map (·.1) ++ messages := by
      simp [Function.comp_def]
    exact {
      flushed := hw.flushed
      handler := by
        rw [hs, Option.isSome_some, if_pos rfl] at hevents
        rw [fromHandler_append, hevents]
      sending := fun s' hs' => by
        cases hs'
        refine ⟨taken, ?_, hdated⟩
        rw [hmap, hqueued, List.append_assoc]
        rfl
      accepted := by
        obtain ⟨taken, hprefix, hdated⟩ := hw.accepted
        refine ⟨taken, ?_, hdated⟩
        rw [hmap]
        exact hprefix.trans (List.prefix_append _ _) }
  · next hnone =>
    rw [hnone, Option.isSome_none, if_neg Bool.false_ne_true, List.append_nil] at hevents
    exact ⟨hw.flushed, hevents.symm, hw.sending, hw.accepted⟩

theorem Accounts.enqueueOthers (hw : Accounts w) (messages : List (Message URI)) :
    Accounts (w.enqueue .others messages) := by
  have hevents : (RequestHandler.responses w.handler.2).map .response = fromHandler w.queued ++
      if w.connection.sender.isSome then fromHandler (messages.map (·, .others)) else [] := by
    rw [fromHandler_others, ite_self, List.append_nil, hw.handler]
  exact hw.enqueue hevents

/-- What is done with the receiver and the shutdown does not matter, and neither does the loss of
    the sender. -/
theorem Accounts.reconnect (hw : Accounts w) {c : Connection URI}
    (hsender : c.sender = w.connection.sender ∨ c.sender = none)
    (initiate : Oneshot ShutdownType) : Accounts { w with connection := c, initiate } where
  flushed := hw.flushed
  handler := hw.handler
  sending s hs := by
    have hs : c.sender = some s := hs
    rcases hsender with hsame | hnone
    · exact hw.sending s (hsame ▸ hs)
    · cases hnone.symm.trans hs
  accepted := hw.accepted

section Steps

variable [RequestURI URI URIError]

theorem Accounts.turn (hw : Accounts w) {s : RequestHandler.State URI}
    (h : RequestHandler.Turn w.connection.sender.isSome w.handler s) : Accounts (w.turn s) := by
  obtain ⟨new, hnew, hclosed⟩ := h.events
  refine hw.enqueue ?_
  rw [hnew, List.drop_left, RequestHandler.responses_append, List.map_append, hw.handler,
    fromHandler_handler]
  split
  · rfl
  · next hnone => rw [hclosed (Bool.eq_false_iff.mpr hnone), List.map_nil]

theorem Accounts.other (hw : Accounts w) (h : Other w w') : Accounts w' := by
  cases h with
  | turn hturn => exact hw.turn hturn
  | dropHandler =>
    refine ⟨hw.flushed, ?_, hw.sending, hw.accepted⟩
    rw [hw.handler]
    unfold RequestHandler.shutdown
    dsimp only
    split
    · rw [RequestHandler.responses_append]
      exact congrArg _ (List.append_nil _).symm
    · rfl
  | send messages => exact hw.enqueueOthers messages
  | cloneHandle => exact ⟨hw.flushed, hw.handler, hw.sending, hw.accepted⟩
  | dropHandle =>
    unfold World.dropHandle
    split
    · exact ⟨hw.flushed, hw.handler, hw.sending, hw.accepted⟩
    · exact ⟨hw.flushed, hw.handler, hw.sending, hw.accepted⟩

theorem Accounts.others (hw : Accounts w) (h : Others w w') : Accounts w' := by
  induction h with
  | refl => exact hw
  | tail _ hother ih => exact ih.other hother

/-- The other tasks only add to what is queued, and only as long as the sender is there. -/
structure Adds (w w' : World URI) : Prop where
  queued : ∃ new, w'.queued = w.queued ++ new
  flushed : w'.flushed = w.flushed
  sender : w'.connection.sender = none ↔ w.connection.sender = none
  shut : w.connection.sender = none → w'.queued = w.queued

theorem adds_enqueue (w : World URI) (source : Source) (messages : List (Message URI)) :
    Adds w (w.enqueue source messages) := by
  unfold World.enqueue
  split
  · next s hs =>
    refine ⟨⟨_, rfl⟩, rfl, iff_of_false nofun ?_, fun hnone => ?_⟩
    · rw [hs]
      exact nofun
    · rw [hs] at hnone
      cases hnone
  · exact ⟨⟨[], (List.append_nil _).symm⟩, rfl, Iff.rfl, fun _ => rfl⟩

theorem Others.adds (h : Others w w') : Adds w w' := by
  induction h with
  | refl => exact ⟨⟨[], (List.append_nil _).symm⟩, rfl, Iff.rfl, fun _ => rfl⟩
  | @tail w₁ w₂ _ hother ih =>
    have hadds : Adds w₁ w₂ := by
      cases hother with
      | @turn s _ =>
        have hturn := adds_enqueue { w₁ with handler := s } .handler
          ((RequestHandler.responses (s.2.drop w₁.handler.2.length)).map .response)
        exact ⟨hturn.queued, hturn.flushed, hturn.sender, hturn.shut⟩
      | dropHandler => exact ⟨⟨[], (List.append_nil _).symm⟩, rfl, Iff.rfl, fun _ => rfl⟩
      | send messages => exact adds_enqueue w₁ _ _
      | cloneHandle => exact ⟨⟨[], (List.append_nil _).symm⟩, rfl, Iff.rfl, fun _ => rfl⟩
      | dropHandle =>
        unfold World.dropHandle
        split
        · exact ⟨⟨[], (List.append_nil _).symm⟩, rfl, Iff.rfl, fun _ => rfl⟩
        · exact ⟨⟨[], (List.append_nil _).symm⟩, rfl, Iff.rfl, fun _ => rfl⟩
    obtain ⟨new, hnew⟩ := ih.queued
    obtain ⟨new', hnew'⟩ := hadds.queued
    exact {
      queued := ⟨new ++ new', by rw [hnew', hnew, List.append_assoc]⟩
      flushed := hadds.flushed.trans ih.flushed
      sender := hadds.sender.trans ih.sender
      shut := fun hnone => (hadds.shut (ih.sender.mpr hnone)).trans (ih.shut hnone) }

/-- Without a sender, nothing is owed that was not. -/
theorem owes_of_shut (h : Others w w') (hs : w.connection.sender = none) : w'.owes = w.owes := by
  rw [owes, owes, h.adds.shut hs, h.adds.flushed]

/-- **What the other tasks leave owed**: what was, and what the request handler has added. -/
theorem owes_others (hw : Accounts w) (h : Others w w') : w'.owes = false ↔
    w.owes = false ∧
      RequestHandler.responses w'.handler.2 = RequestHandler.responses w.handler.2 := by
  obtain ⟨new, hnew⟩ := h.adds.queued
  have hresponses : (RequestHandler.responses w'.handler.2).map .response =
      (RequestHandler.responses w.handler.2).map .response ++ fromHandler new := by
    rw [← (hw.others h).handler, ← hw.handler, hnew, fromHandler_append]
  have hsame : RequestHandler.responses w'.handler.2 = RequestHandler.responses w.handler.2 ↔
      fromHandler new = [] := by
    constructor
    · intro heq
      rw [heq] at hresponses
      exact List.append_right_eq_self.mp hresponses.symm
    · intro hnone
      rw [hnone, List.append_nil] at hresponses
      exact List.map_injective_iff.mpr (fun _ _ => Message.response.inj) hresponses
  have howes : w'.owes = (w.owes || new.any (·.2 = .handler)) := by
    have hle : w.flushed ≤ w.queued.length := by
      obtain ⟨taken, htaken, hdated⟩ := hw.accepted
      have hlength := htaken.length_le
      rw [hdated.length_eq, List.length_map] at hlength
      exact Nat.le_trans hw.flushed hlength
    rw [owes, owes, hnew, h.adds.flushed, List.drop_append_of_le_length hle, List.any_append]
  rw [howes, Bool.or_eq_false_iff, hsame, fromHandler, List.map_eq_nil_iff, List.any_eq_false,
    List.filter_eq_nil_iff]

end Steps

/-- What the receiver replies goes to the sender. -/
theorem pollReceiver_sender {c c' : Connection URI} {t : Receiver.Trace URI URIError}
    (h : c.pollReceiver env = .ok (c', t)) :
    c'.sender = c.sender.map (·.enqueue (t.replies.map .response)) := by
  unfold Connection.pollReceiver at h
  split at h
  · obtain ⟨⟨a, r', t'⟩, -, h⟩ := bind_eq_ok h
    cases a with
    | ready =>
      cases h
      rfl
    | notReady =>
      cases h
      rfl
  · cases h
    cases c.sender with
    | none => rfl
    | some s => simp [Sender.enqueue, Receiver.Trace.empty]

theorem Accounts.receive (hw : Accounts w) (h : w.receive env = .ok w') : Accounts w' := by
  obtain ⟨⟨c, t⟩, hreceiver, h⟩ := bind_eq_ok h
  cases h
  refine Accounts.forward ?_ _
  have hsender := pollReceiver_sender hreceiver
  cases hs : w.connection.sender with
  | none =>
    rw [hs] at hsender
    have hshut : w.connection.isSenderShutdown = true := by
      rw [Connection.isSenderShutdown, hs]
      rfl
    rw [if_pos hshut]
    exact hw.reconnect (.inl (hsender.trans hs.symm)) w.initiate
  | some s =>
    rw [hs] at hsender
    have hopen : ¬ w.connection.isSenderShutdown = true := by
      rw [Connection.isSenderShutdown, hs]
      exact nofun
    have hqueued := hw.enqueueOthers (t.replies.map .response)
    unfold World.enqueue at hqueued
    rw [hs] at hqueued
    rw [if_neg hopen]
    have hreplies := hqueued.reconnect (c := c) (.inl hsender) w.initiate
    rwa [List.map_map] at hreplies

/-- What a poll of the sender leaves, when the sink does not fail: the sender, or nothing that
    waits or has not been flushed. -/
theorem pollSender_cases (c : Connection URI) {s : Sender URI} (hs : c.sender = some s)
    (henv : env.sender.Reliable) :
    (c.pollSender env).2 = (s.poll env.sender).2.2 ∧
      ((c.pollSender env).1.sender = some (s.poll env.sender).2.1 ∨
        (c.pollSender env).1.sender = none ∧ s.Clears env.sender) := by
  have hends := Sender.clears_of_ends (s := s) henv
  unfold Connection.pollSender
  rw [hs]
  dsimp only
  generalize s.poll env.sender = polled at hends ⊢
  obtain ⟨result, s', t⟩ := polled
  rcases result with _ | (_ | _)
  · exact ⟨rfl, .inr ⟨rfl, hends nofun⟩⟩
  · exact ⟨rfl, .inr ⟨rfl, hends nofun⟩⟩
  · exact ⟨rfl, .inl rfl⟩

theorem send_eq (w : World URI) (env : Connection.Answers URI URIError) :
    w.send env = forward { w with
      connection := (w.connection.pollSender env).1
      accepted := w.accepted ++ (w.connection.pollSender env).2.accepted
      flushed := if (w.connection.pollSender env).2.flushed
        then (w.accepted ++ (w.connection.pollSender env).2.accepted).length else w.flushed } [] :=
  rfl

/-- Without a sender nothing is sent. -/
theorem send_of_shut (hs : w.connection.sender = none) : w.send env = w.forward [] := by
  have hsame : w.connection.pollSender env = (w.connection, .empty) := by
    rw [Connection.pollSender, hs]
  rw [send_eq, hsame]
  exact congrArg (forward · []) (by simp [Sender.Trace.empty])

/-- The messages in the account after a poll of the sender. -/
theorem sending_of_sends {s s' : Sender URI} {t : Sender.Trace URI}
    (hw : Accounts w) (hs : w.connection.sender = some s) (hsends : s.Sends s' t) :
    ∃ taken, w.queued.map (·.1) = taken ++ s'.outgoing ∧
      List.Forall₂ Sender.Dated taken (w.accepted ++ t.accepted ++ s'.bufferedMessage.toList) := by
  obtain ⟨taken, hqueued, hdated⟩ := hw.sending s hs
  obtain ⟨more, sent, houtgoing, hmore, haccepted⟩ := hsends.messages
  refine ⟨taken ++ more, ?_, ?_⟩
  · rw [hqueued, houtgoing, List.append_assoc]
  · rw [List.append_assoc, haccepted, ← List.append_assoc]
    exact List.rel_append hdated hmore

theorem Accounts.send (hw : Accounts w) (henv : env.sender.Reliable) :
    Accounts (w.send env) := by
  cases hs : w.connection.sender with
  | none =>
    rw [send_of_shut hs]
    exact hw.forward []
  | some s =>
    obtain ⟨htrace, hsender⟩ := pollSender_cases w.connection hs henv
    obtain ⟨taken, hqueued, hdated⟩ :=
      sending_of_sends hw hs (Sender.poll_sends (s := s) henv)
    rw [send_eq]
    refine Accounts.forward ?_ _
    rw [htrace]
    generalize (w.connection.pollSender env).1 = c at hsender
    generalize s.poll env.sender = polled at hsender hdated hqueued
    obtain ⟨result, s', t⟩ := polled
    dsimp only at hsender hdated hqueued ⊢
    exact {
      flushed := by
        show (if t.flushed then (w.accepted ++ t.accepted).length else w.flushed) ≤
          (w.accepted ++ t.accepted).length
        split
        · exact Nat.le_refl _
        · rw [List.length_append]
          exact Nat.le_trans hw.flushed (Nat.le_add_right _ _)
      handler := hw.handler
      sending := fun s₁ hs₁ => by
        rcases hsender with hkept | ⟨hnone, -⟩
        · obtain rfl : s' = s₁ := Option.some.inj (hkept.symm.trans hs₁)
          exact ⟨taken, hqueued, hdated⟩
        · cases hnone.symm.trans hs₁
      accepted := Sender.dated_accepted hqueued hdated }

/-- A sender that is cleared owes nothing. -/
theorem owes_send_of_clears (hw : Accounts w) (henv : env.sender.Reliable) {s : Sender URI}
    (hs : w.connection.sender = some s) (hclears : s.Clears env.sender) :
    (w.send env).owes = false := by
  obtain ⟨htrace, -⟩ := pollSender_cases w.connection hs henv
  obtain ⟨taken, hqueued, hdated⟩ := sending_of_sends hw hs (Sender.poll_sends (s := s) henv)
  obtain ⟨hempty, hflushed⟩ := Sender.poll_clears hclears
  rw [hempty] at hqueued hdated
  have hlength : w.queued.length = (w.accepted ++ (s.poll env.sender).2.2.accepted).length := by
    have hsame := hdated.length_eq
    rw [Option.toList_none, List.append_nil] at hsame
    rw [← hsame, ← List.length_map (f := (·.1)), hqueued, List.append_nil]
  rw [send_eq, htrace]
  rw [if_pos hflushed, ← hlength]
  show (w.queued.drop w.queued.length).any _ = false
  rw [List.drop_length]
  rfl

/-- A sink that does not take everything is not flushed, and what was owed still is. -/
theorem owes_send_of_not_clears (henv : env.sender.Reliable) {s : Sender URI}
    (hs : w.connection.sender = some s) (hclears : ¬ s.Clears env.sender) :
    (w.send env).owes = w.owes := by
  obtain ⟨htrace, -⟩ := pollSender_cases w.connection hs henv
  rw [send_eq, htrace, if_neg (mt (s.poll_flushed_iff env.sender).mp hclears)]
  rfl

/-- **What a poll of the sender leaves owed**: nothing if nothing was, or if the sink takes
    everything and is flushed. -/
theorem owes_send (hw : Accounts w) (henv : env.sender.Reliable) : (w.send env).owes = false ↔
    (w.owes = true → ∃ s, w.connection.sender = some s ∧ s.Clears env.sender) := by
  cases hs : w.connection.sender with
  | none =>
    rw [send_of_shut hs]
    have hsame : (w.forward []).owes = w.owes := rfl
    rw [hsame]
    cases w.owes <;> simp
  | some s =>
    by_cases hclears : s.Clears env.sender
    · exact iff_of_true (owes_send_of_clears hw henv hs hclears) fun _ => ⟨s, rfl, hclears⟩
    · rw [owes_send_of_not_clears henv hs hclears]
      cases w.owes with
      | false => exact iff_of_true rfl nofun
      | true =>
        refine iff_of_false nofun fun h => ?_
        obtain ⟨s', hs', hclears'⟩ := h rfl
        cases hs'
        exact hclears hclears'

end World
end Rtsp
