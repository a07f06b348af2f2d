import Rtsp.Network.Settling

/-!
# There and back

The way from any state of two peers that are up to one in which nothing is on its
way: the client sends, the bytes arrive, the server reads and answers, and the
client hears the responses (`Going.settles`). Each part of the way ends where the
one before has left nothing to do, and undoes nothing of it.

The order of the parts is that of a message's way, and each stage is a structure that
extends the one before (`Sending`, `Sent`, `Uploaded`, and so on), so that nothing that
was achieved is lost sight of. A stage that takes more than one step has a number that
each step makes smaller: messages that the sink has not accepted, bytes that have not
arrived, messages that are decoded and not read.

All steps are with services that answer at once (`PromptStep`). A service that never
answers leaves its request in service for good, and no run makes it quiet.
-/

namespace Rtsp

open Lib

namespace Network

variable {URI URIError : Type} [RequestURI URI URIError] {p : Peers URI}
  {s s' : Network URI URIError} {op : Op URI URIError}

/-! ## The client sends -/

theorem run_client {ops : List Exchange.Op} {c : Exchange}
    (h : Run Exchange.OwnStep s.client ops c) :
    Run (PromptStep p.service) s (ops.map .client) { s with client := c } := by
  induction h with
  | start => exact .start
  | snoc _ hlast ih =>
    rw [List.map_append]
    exact ih.snoc ⟨.client hlast.1 hlast.2, nofun⟩

/-- The client goes on by itself. -/
theorem Going.runClient (hs : Going p s) {ops : List Exchange.Op} {c : Exchange}
    (h : Run Exchange.OwnStep s.client ops c) (hsame : Exchange.SameFutures s.client c)
    (hphase : c.phase.goesOn = true) : Going p { s with client := c } := by
  obtain ⟨before, hrun⟩ := hs.run
  exact { hs with
    run := ⟨_, hrun.append (run_client h)⟩
    up := { hs.up with
      phase := hphase
      listens := hsame.sendersGone.trans hs.up.listens
      senderOpen := hsame.senderOpen.trans hs.up.senderOpen }
    limits := ⟨hs.limits.up, hs.limits.down, hsame.sent ▸ hs.limits.few⟩ }

/-- The client is between two polls of its receiver. -/
structure Sending (p : Peers URI) (s : Network URI URIError) : Prop extends Going p s where
  idle : s.client.phase = .idle

theorem Going.sending (hs : Going p s) : Leads p s (Sending p) := by
  obtain ⟨ops, c, hrun, hsame, hreading⟩ :=
    Exchange.reaches_reading hs.up.phase hs.up.listens
  have hidle : Run Exchange.OwnStep s.client _ { c with phase := .idle } :=
    hrun.snoc ⟨rfl, .finishPoll hreading⟩
  have hsame' : Exchange.SameFutures s.client { c with phase := .idle } :=
    hsame.trans ⟨⟨rfl, rfl, rfl, rfl⟩, rfl, rfl⟩
  exact ⟨_, _, run_client hidle, ⟨rfl, hsame'.sent, hsame'.requests⟩,
    hs.runClient hidle hsame' rfl, rfl⟩

/-- One more message is sent, or the poll is started that will send it. -/
theorem Sending.step (hs : Sending p s) (hp : p.Fit) (hleft : ¬ s.clientSender.Drained) :
    ∃ op s', PromptStep p.service s op s' ∧ SameFutures s s' ∧ Sending p s' ∧
      s'.clientSender.toDo < s.clientSender.toDo := by
  have hlinked := hs.linked hp
  obtain ⟨ops, hrun⟩ := hlinked.clientSender
  have haccount := Delivery.account_of_run hrun
  obtain ⟨op, d, hown, hstep, hadvances⟩ :=
    haccount.advance hs.up.clientSender hs.client hleft
  have haccount' := haccount.step hstep
  have hless := hadvances.toDo_lt haccount'
  rcases hadvances.accepted with ⟨hsame, -, -⟩ | ⟨m, hm, hmore, -⟩
  · have hnext : PromptStep p.service s (.clientSender op) { s with clientSender := d } :=
      ⟨.clientSender hown hstep hsame, nofun⟩
    refine ⟨_, _, hnext, ⟨rfl, rfl, rfl⟩, ⟨?_, hs.idle⟩, hless⟩
    exact hs.next hnext { hs.up with clientSender := hadvances.goesOn }
      ⟨hs.limits.up, hs.limits.down, hs.limits.few⟩ hadvances.within hs.server
  · -- There is a request for it that has not been written.
    have hlt : s.client.written < s.client.sent.length := by
      have hle := haccount'.accepted_le
      rw [hadvances.pushed, hmore, List.length_append, ← hlinked.written,
        ← hlinked.queued.length_eq] at hle
      exact hle
    have hnext : PromptStep p.service s (.write op) { s with
        client := { s.client with written := s.client.written + 1 }
        clientSender := d, uplink := s.uplink.write [m] } :=
      ⟨.write hown hstep hmore (.write hs.up.senderOpen (.inl hs.idle) hlt), nofun⟩
    refine ⟨_, _, hnext, ⟨rfl, rfl, rfl⟩, ⟨?_, hs.idle⟩, hless⟩
    refine hs.next hnext { hs.up with clientSender := hadvances.goesOn } ⟨fun m' hm' => ?_,
      hs.limits.down, hs.limits.few⟩ hadvances.within hs.server
    rcases List.mem_append.mp hm' with hm' | hm'
    · exact hs.limits.up m' hm'
    · exact List.mem_singleton.mp hm' ▸ hm

/-- All requests have been sent. -/
structure Sent (p : Peers URI) (s : Network URI URIError) : Prop extends Sending p s where
  drained : s.clientSender.Drained

theorem Sending.sent (hs : Sending p s) (hp : p.Fit) : Leads p s (Sent p) := by
  obtain ⟨ops, s', hrun, hsame, hsending, hdrained⟩ := leads (Sending p) (·.clientSender.Drained)
    (·.clientSender.toDo) (fun _ hs₁ hleft => hs₁.step hp hleft) hs
  exact ⟨ops, s', hrun, hsame, hsending, hdrained⟩

/-- All bytes have arrived at the server. -/
structure Uploaded (p : Peers URI) (s : Network URI URIError) : Prop extends Sent p s where
  uploaded : s.uplink.chunks.flatten = s.uplink.bytes

theorem Sent.uploaded (hs : Sent p s) (hp : p.Fit) : Leads p s (Uploaded p) := by
  obtain ⟨ops, hwire⟩ := (hs.linked hp).uplink
  obtain ⟨chunk, w, hw, hwritten, hall⟩ := Wire.arrives_rest hp.lawful hwire hs.limits.up
  have hnext : PromptStep p.service s (.uplink chunk) { s with uplink := w } :=
    ⟨.uplink chunk hw, nofun⟩
  refine .single hnext ⟨rfl, rfl, rfl⟩ ⟨⟨⟨?_, hs.idle⟩, hs.drained⟩, hall⟩
  exact hs.next hnext { hs.up with } ⟨hwritten ▸ hs.limits.up, hs.limits.down, hs.limits.few⟩
    hs.client hs.server

/-! ## The server reads -/

theorem receiver_of_run {first : CSeq} {size : Nat} {duration : Option Nat}
    {ops : List (Op URI URIError)} (h : Run Step (start first size duration) ops s) :
    s.server.1.Coherent ∧ s.server.1.Sound := by
  refine h.invariant (I := fun s => s.server.1.Coherent ∧ s.server.1.Sound)
    ⟨Receiver.coherent_new size, Receiver.sound_new size⟩ ?_
  rintro s₁ op s₂ ⟨hcoherent, hsound⟩ hstep
  cases hstep with
  | receive hpoll =>
    exact ⟨hcoherent.performs (c := .poll _) (.poll hpoll), hsound.step (.poll hpoll)⟩
  | shutdownRequestReceiver =>
    exact ⟨hcoherent.shutdownRequestReceiver, hsound.shutdownRequestReceiver⟩
  | _ => exact ⟨hcoherent, hsound⟩

/-- The messages that have been decoded and not read. -/
def unread (s : Network URI URIError) : Nat :=
  s.uplink.decoded.length - s.server.2.messages.length

/-- Nothing is held back in the server's receiver. -/
structure Reading (p : Peers URI) (s : Network URI URIError) : Prop extends Uploaded p s where
  forwarded : ∃ f, s.server.1.forwardingReceiver = some f ∧ contents f.bufferedRequests = []

/-- A poll of the server's receiver forwards everything, and reads on if there is room. -/
theorem Uploaded.polls (hs : Uploaded p s) (hp : p.Fit) :
    ∃ op s', PromptStep p.service s op s' ∧ SameFutures s s' ∧ Reading p s' ∧
      (s.server.1.forwardingReceiver.any (·.isFull) = false → unread s ≠ 0 →
        unread s' < unread s) := by
  obtain ⟨before, hrun⟩ := hs.run
  have hlinked := hs.linked hp
  obtain ⟨hcoherent, hsound⟩ := receiver_of_run (hrun.mono fun _ _ _ h => h.1)
  obtain ⟨rest, hrest⟩ := hlinked.read
  obtain ⟨a, r, t, hpoll, htakes, hready, -, ⟨read, hprefix, hmessages, hsome⟩, herrors⟩ :=
    @Receiver.TakesIn.poll _ URIError _ _ hs.up.server hcoherent hsound hlinked.server.sized rest
  have hread : t.messages = read := hmessages
  have hreads : Reads s t := by
    refine ⟨?_, fun e he => absurd (herrors e he) List.not_mem_nil⟩
    rw [hread, ← hrest]
    exact (List.prefix_append_right_inj _).mpr hprefix
  have hclosed : SendAnswer.closed ∉ List.replicate p.size .ready := fun hmem => by
    cases (List.mem_replicate.mp hmem).2
  have hstep := Step.receive hpoll hclosed (fun _ => hs.up.serverSender.2) hreads
    (.inr hs.up.incoming) (.inr hs.up.handles)
  have hlinked' := hlinked.step hp.size hstep
  -- There is nothing to reply to.
  have hreplies : t.replies = [] :=
    (List.append_eq_nil_iff.mp (hlinked'.replies hp.lawful
      ⟨hs.limits.up, hs.limits.down, hs.limits.few⟩)).2
  rw [hreplies] at hstep hlinked'
  have hnext : PromptStep p.service s _ _ := ⟨hstep, nofun⟩
  have hcounted := hlinked'.counted hp.lawful hs.limits.up hs.limits.few
  have hsound' : r.Sound := hsound.step (.poll hpoll)
  obtain ⟨f, hf⟩ := Option.isSome_iff_exists.mp (hsound'.present htakes.requestsAllowed)
  refine ⟨_, _, hnext, ⟨rfl, rfl, rfl⟩, ⟨⟨⟨⟨?_, hs.idle⟩, hs.drained⟩, hs.uploaded⟩, f, hf, ?_⟩,
    fun hroom hunread => ?_⟩
  · exact hs.next hnext { hs.up with server := htakes }
      ⟨hs.limits.up, hs.limits.down, hs.limits.few⟩ hs.client hs.server
  · exact hlinked'.server.all_forwarded hcounted hf (hready f hf)
  · have hleft : rest ≠ [] := fun hnil => by
      rw [hnil, List.append_nil] at hrest
      exact hunread (Nat.sub_eq_zero_of_le (hrest ▸ Nat.le_refl _))
    have hpos := List.length_pos_iff.mpr (hsome hroom hleft)
    show s.uplink.decoded.length - (s.server.2.append t).messages.length < unread s
    have hall : (s.server.2.append t).messages = s.server.2.messages ++ read := by
      rw [← hread]
      exact List.filterMap_append ..
    unfold unread at hunread ⊢
    rw [hall, List.length_append]
    omega

/-- With nothing held back there is room to read on. -/
theorem Reading.room (hs : Reading p s) (hp : p.Fit) :
    s.server.1.forwardingReceiver.any (·.isFull) = false := by
  obtain ⟨f, hf, hempty⟩ := hs.forwarded
  have hsize := (hs.linked hp).server.sized f hf
  rw [hf, Option.any_some, ForwardingReceiver.isFull, ← length_contents, hempty, hsize]
  exact decide_eq_false (Nat.not_le.mpr hp.room)

/-- All that has been decoded has been read and forwarded. -/
structure Taken (p : Peers URI) (s : Network URI URIError) : Prop extends Reading p s where
  read : s.server.2.messages = s.uplink.decoded

theorem Uploaded.taken (hs : Uploaded p s) (hp : p.Fit) : Leads p s (Taken p) := by
  obtain ⟨op, s₁, hfirst, hsame, hs₁, -⟩ := hs.polls hp
  refine (Leads.single hfirst hsame hs₁).trans fun s₁ hs₁ => ?_
  have hstep : ∀ s₂ : Network URI URIError, Reading p s₂ → ¬ unread s₂ = 0 → ∃ op s₃,
      PromptStep p.service s₂ op s₃ ∧ SameFutures s₂ s₃ ∧ Reading p s₃ ∧
        unread s₃ < unread s₂ := by
    intro s₂ hs₂ hleft
    obtain ⟨op, s₃, hnext, hsame, hs₃, hless⟩ := hs₂.polls hp
    exact ⟨op, s₃, hnext, hsame, hs₃, hless (hs₂.room hp) hleft⟩
  obtain ⟨ops, s', hrun, hsame, hs', hnone⟩ := leads (Reading p) _ unread hstep hs₁
  have hfirst := (hs'.linked hp).read
  exact ⟨ops, s', hrun, hsame, hs',
    hfirst.eq_of_length (Nat.le_antisymm hfirst.length_le (Nat.le_of_sub_eq_zero hnone))⟩

/-! ## The server answers -/

/-- All requests have been answered. -/
structure Served (p : Peers URI) (s : Network URI URIError) : Prop extends Taken p s where
  incoming : s.handler.handler.incoming = []

theorem Taken.served (hs : Taken p s) (hp : p.Fit) : Leads p s (Served p) := by
  obtain ⟨before, hrun⟩ := hs.run
  obtain ⟨env, h, t, hpoll, hservice, hincoming, hended⟩ :=
    (prompt_of_run hrun).serves hs.up.incoming
  have hnext : PromptStep p.service s (.serve env) _ :=
    ⟨.serve hpoll rfl hs.up.serverSender.2 (.inr hs.up.handles), fun env' heq => by
      cases heq
      exact hservice⟩
  -- Whatever is enqueued is the answer to a request.
  have hprompt := prompt_of_run (hrun.snoc hnext)
  have hsendable : ∀ m ∈ (t.filterMap (·.response?)).map (@Message.response URI),
      (Sender.insertDate p.date m).Sendable := by
    intro m hm
    obtain ⟨response, hresponse, rfl⟩ := List.mem_map.mp hm
    obtain ⟨event, hevent, hsome⟩ := List.mem_filterMap.mp hresponse
    cases event with
    | called => cases hsome
    | fired => cases hsome
    | enqueued =>
      cases hsome
      obtain ⟨i, e, -, rfl⟩ := hprompt.enqueued (List.mem_append_right _ hevent)
      exact hp.answers e.2 e.1
  refine .single hnext ⟨rfl, rfl, rfl⟩
    ⟨⟨⟨⟨⟨⟨?_, hs.idle⟩, hs.drained⟩, hs.uploaded⟩, hs.forwarded⟩, hs.read⟩, hincoming⟩
  refine hs.next hnext { hs.up with
    incoming := hended
    handles := ?_
    serverSender := hs.up.serverSender.pushAll } ⟨hs.limits.up, hs.limits.down, hs.limits.few⟩
    hs.client (hs.server.pushAll hs.up.serverSender hsendable)
  rw [(s.serverSender.pushAll_keeps _).1]
  exact hs.up.handles

/-- One more response is sent, or the poll is started that will send it. -/
theorem Served.step (hs : Served p s) (hp : p.Fit) (hleft : ¬ s.serverSender.Drained) :
    ∃ op s', PromptStep p.service s op s' ∧ SameFutures s s' ∧ Served p s' ∧
      s'.serverSender.toDo < s.serverSender.toDo := by
  obtain ⟨ops, hrun⟩ := (hs.linked hp).serverSender
  have haccount := Delivery.account_of_run hrun
  obtain ⟨op, d, hown, hstep, hadvances⟩ :=
    haccount.advance hs.up.serverSender hs.server hleft
  have hless := hadvances.toDo_lt (haccount.step hstep)
  obtain ⟨messages, hmore, hsendable⟩ : ∃ messages : List (Message URI),
      d.accepted = s.serverSender.accepted ++ messages ∧ ∀ m ∈ messages, m.Sendable := by
    rcases hadvances.accepted with ⟨hsame, -, -⟩ | ⟨m, hm, hmore, -⟩
    · exact ⟨[], hsame.trans (List.append_nil _).symm, nofun⟩
    · exact ⟨[m], hmore, List.forall_mem_singleton.mpr hm⟩
  have hnext : PromptStep p.service s (.serverSender op) { s with
      serverSender := d, downlink := s.downlink.write messages } :=
    ⟨.serverSender hown hstep hmore, nofun⟩
  refine ⟨_, _, hnext, ⟨rfl, rfl, rfl⟩,
    ⟨⟨⟨⟨⟨⟨?_, hs.idle⟩, hs.drained⟩, hs.uploaded⟩, hs.forwarded⟩, hs.read⟩, hs.incoming⟩, hless⟩
  refine hs.next hnext { hs.up with
    handles := hadvances.handles ▸ hs.up.handles
    serverSender := hadvances.goesOn } ⟨hs.limits.up, fun m hm => ?_, hs.limits.few⟩
    hs.client hadvances.within
  rcases List.mem_append.mp hm with hm | hm
  · exact hs.limits.down m hm
  · exact hsendable m hm

/-- All responses have been sent. -/
structure Answered (p : Peers URI) (s : Network URI URIError) : Prop extends Served p s where
  enqueued : s.serverSender.Drained

theorem Served.answered (hs : Served p s) (hp : p.Fit) : Leads p s (Answered p) := by
  obtain ⟨ops, s', hrun, hsame, hserved, hdrained⟩ := leads (Served p) (·.serverSender.Drained)
    (·.serverSender.toDo) (fun _ hs₁ hleft => hs₁.step hp hleft) hs
  exact ⟨ops, s', hrun, hsame, hserved, hdrained⟩

/-! ## The client hears -/

/-- All bytes have arrived at the client, and it reads responses. -/
structure Hearing (p : Peers URI) (s : Network URI URIError) : Prop extends Going p s where
  reading : s.client.phase = .reading
  pushed : s.clientSender.Drained
  uploaded : s.uplink.chunks.flatten = s.uplink.bytes
  read : s.server.2.messages = s.uplink.decoded
  forwarded : ∃ f, s.server.1.forwardingReceiver = some f ∧ contents f.bufferedRequests = []
  incoming : s.handler.handler.incoming = []
  enqueued : s.serverSender.Drained
  downloaded : s.downlink.chunks.flatten = s.downlink.bytes

theorem Answered.hearing (hs : Answered p s) (hp : p.Fit) : Leads p s (Hearing p) := by
  obtain ⟨ops, hwire⟩ := (hs.linked hp).downlink
  obtain ⟨chunk, w, hw, hwritten, hall⟩ := Wire.arrives_rest hp.lawful hwire hs.limits.down
  have hnext : PromptStep p.service s (.downlink chunk) { s with downlink := w } :=
    ⟨.downlink chunk hw, nofun⟩
  have hs₁ : Going p { s with downlink := w } :=
    hs.next hnext { hs.up with } ⟨hs.limits.up, hwritten ▸ hs.limits.down, hs.limits.few⟩
      hs.client hs.server
  obtain ⟨reads, c, hrun, hsame, hreading⟩ :=
    Exchange.reaches_reading hs₁.up.phase hs₁.up.listens
  have hphase : c.phase.goesOn = true := hreading ▸ rfl
  have hs₂ := hs₁.runClient hrun hsame hphase
  exact ⟨_, _, (Run.start.snoc hnext).append (run_client hrun),
    ⟨rfl, hsame.sent, hsame.requests⟩, hs₂, hreading, hs.drained, hs.uploaded, hs.read,
    hs.forwarded, hs.incoming, hs.enqueued, hall⟩

/-- What arrives at the client is a response. -/
theorem Going.response (hs : Going p s) (hp : p.Fit) {i : Nat} {m : Message URI}
    (hi : s.downlink.decoded[i]? = some m) : ∃ response, m = .response response := by
  have hlinked := hs.linked hp
  obtain ⟨ops, hwire⟩ := hlinked.downlink
  obtain ⟨pushes, hrun⟩ := hlinked.serverSender
  have hdecoded := (Wire.decoded_of_run hp.lawful hwire hs.limits.down).2.1
  have haccepted : Follows Sender.Dated (s.responses.map .response) s.downlink.written := by
    rw [hlinked.downloaded, ← hlinked.answered (hlinked.replies hp.lawful hs.limits)]
    exact (Delivery.account_of_run hrun).accepted
  obtain ⟨enqueued, henqueued, dated, hdated, rfl⟩ :=
    (haccepted.comp (Follows.of_map hdecoded)).source hi
  obtain ⟨response, -, rfl⟩ := List.mem_map.mp (List.mem_of_getElem? henqueued)
  obtain ⟨arrived, harrived, -⟩ := Response.carried_dated hdated
  exact ⟨arrived, harrived⟩

/-- One more response is heard. -/
theorem Hearing.step (hs : Hearing p s) (hp : p.Fit)
    (hleft : ¬ s.heard.map .response = s.downlink.decoded) :
    ∃ op s', PromptStep p.service s op s' ∧ SameFutures s s' ∧ Hearing p s' ∧
      s'.downlink.decoded.length - s'.heard.length <
        s.downlink.decoded.length - s.heard.length := by
  have hfirst := (hs.linked hp).heard
  have hlt : s.heard.length < s.downlink.decoded.length := by
    refine Nat.lt_of_not_le fun hle => hleft (hfirst.eq_of_length ?_)
    have hlength := hfirst.length_le
    rw [List.length_map] at hlength ⊢
    exact Nat.le_antisymm hlength hle
  obtain ⟨response, hresponse⟩ := hs.response hp (List.getElem?_eq_getElem hlt)
  have hnext : PromptStep p.service s .read { s with
      client := s.client.respond response, heard := s.heard ++ [response] } :=
    ⟨.read ((List.getElem?_eq_getElem hlt).trans (congrArg some hresponse))
      (.respond response hs.reading), nofun⟩
  refine ⟨_, _, hnext, ⟨rfl, rfl, rfl⟩, ⟨?_, hs.reading, hs.pushed, hs.uploaded, hs.read,
    hs.forwarded, hs.incoming, hs.enqueued, hs.downloaded⟩, ?_⟩
  · exact hs.next hnext { hs.up with } ⟨hs.limits.up, hs.limits.down, hs.limits.few⟩
      hs.client hs.server
  · show s.downlink.decoded.length - (s.heard ++ [response]).length < _
    rw [List.length_append, List.length_singleton]
    omega

/-- **The peers settle**: from any state in which both are up a run leads to one in which nothing
    is on its way, with the same calls and futures. -/
theorem Going.settles (hs : Going p s) (hp : p.Fit) :
    Leads p s fun s' => Going p s' ∧ s'.Quiet := by
  refine hs.sending.trans fun s₁ hs₁ => (hs₁.sent hp).trans fun s₂ hs₂ =>
    (hs₂.uploaded hp).trans fun s₃ hs₃ => (hs₃.taken hp).trans fun s₄ hs₄ =>
    (hs₄.served hp).trans fun s₅ hs₅ => (hs₅.answered hp).trans fun s₆ hs₆ =>
    (hs₆.hearing hp).trans fun s₇ hs₇ => ?_
  obtain ⟨ops, s', hrun, hsame, hs', hheard⟩ := leads (Hearing p) _ _
    (fun _ hs hleft => hs.step hp hleft) hs₇
  exact ⟨ops, s', hrun, hsame, hs'.toGoing, hs'.pushed, hs'.uploaded, hs'.read,
    hs'.up.server.requestsAllowed, hs'.forwarded, hs'.incoming, hs'.enqueued, hs'.downloaded,
    hheard⟩

end Network
end Rtsp
