import Rtsp.Connection.Outgoing
import Rtsp.Lib.Trans

/-!
# In order and once

The handles on a sender push messages while the sender's task polls it. A step
is one access to what the two share, or to the sink, so a run is any
interleaving of them, with any answers of the sink. What the sink has accepted
is at all times the first of the messages pushed, in their order, each with a
date (`delivered_in_order`). A future that has returned is not polled again.

`Sender.poll` is a run of these steps (`run_poll`).

The messages that were pushed and those that were accepted are kept as lists from the
start of the run. The sender itself remembers one message and the connection's end of a
channel, and nothing of it says what has become of the rest; the account (`Account`) is
what ties them together, and it is the invariant of the induction.

A message is not accepted as it was pushed: the sender gives it a date, when it takes it
out of the channel. So it is said of each accepted message which pushed one it comes
from and that the two differ in nothing but that header, of which the accepted one has
just one (`WithDate`).

When the sink fails, the message that it was given is lost and the poll fails with it.
The order of what it had accepted before is not touched by that. Nothing is said about a
sender that is dropped too early, since for that one has to know who drops it
(`Connection.Unsent`).
-/

namespace Rtsp

open Lib

/-! ## Messages with a date -/

/-- The same headers but for the date, of which there is one. -/
structure HeaderMap.WithDate (m m' : HeaderMap) : Prop where
  date : ∃ value, m'.getAll (.standard .date) = [value]
  others : (m'.entries.filter fun e => !e.1.eqv (.standard .date)) =
    m.entries.filter fun e => !e.1.eqv (.standard .date)

theorem HeaderMap.withDate_append (m : HeaderMap) (value : HeaderValue) :
    m.WithDate ((m.remove (.standard .date)).append (.standard .date) value) := by
  constructor
  · exact ⟨value, by rw [getAll_append, getAll_remove, List.nil_append]⟩
  · simp [append_entries, remove, key_eqv, List.filter_append, List.filter_filter]

namespace Sender

variable {URI : Type}

/-- A message as it is pushed, and as it is sent. -/
inductive SentAs : Message URI → Message URI → Prop where
  | request {r : Request URI} {headers : HeaderMap} : r.headers.WithDate headers →
      SentAs (.request r) (.request { r with headers })
  | response {r : Response} {headers : HeaderMap} : r.headers.WithDate headers →
      SentAs (.response r) (.response { r with headers })

theorem Dated.sentAs {message sent : Message URI} (h : Dated message sent) :
    SentAs message sent := by
  obtain ⟨value, rfl⟩ := h
  cases message with
  | request r => exact .request (r.headers.withDate_append value)
  | response r => exact .response (r.headers.withDate_append value)

end Sender

/-! ## The steps -/

/-- Where the task of the sender is. -/
inductive Sending where
  /-- Between two polls. -/
  | idle
  /-- In the loop of `poll_write`. -/
  | writing
  /-- At the close of the sink. -/
  | closing
  | returned
  | failed
  /-- A `debug_assert` has failed. -/
  | panicked
  /-- The sender is gone. -/
  | dropped
  deriving DecidableEq

structure Delivery (URI : Type) where
  handles : Nat
  /-- What `try_send_message` of the handles has put into the channel. -/
  pushed : List (Message URI)
  sender : Sender URI
  accepted : List (Message URI)
  /-- Whether the sink is closed. -/
  closed : Bool
  stage : Sending

namespace Delivery

variable {URI : Type}

/-- A new sender and its handle. -/
def start : Delivery URI := ⟨1, [], .new, [], false, .idle⟩

/-- A message is pushed through a handle. Once the sender is gone, that fails. -/
def push (d : Delivery URI) (message : Message URI) : Delivery URI :=
  if d.stage = .dropped then d
  else { d with pushed := d.pushed ++ [message], sender := d.sender.enqueue [message] }

/-- `try_send_message` of the sender, and the end of the poll if it is not ready. -/
def trySend (d : Delivery URI) (answer : SendAnswer) (message : Message URI) : Delivery URI :=
  if d.sender.bufferedMessage.isSome then { d with stage := .panicked }
  else
    let (result, sender, t) := d.sender.trySendMessage answer message .empty
    { d with
      sender
      accepted := d.accepted ++ t.accepted
      stage := match result with
        | .ok (.ready ()) => .writing
        | .ok .notReady => .idle
        | .error () => .failed }

/-- The start of a poll: a message that is kept comes first. -/
def retry (d : Delivery URI) (answer : SendAnswer) : Delivery URI :=
  match d.sender.bufferedMessage with
  | some message =>
    { d with sender := { d.sender with bufferedMessage := none } }.trySend answer message
  | none => { d with stage := .writing }

/-- A message is taken out of the channel. -/
def take (d : Delivery URI) (date : HeaderValue) (answer : SendAnswer) (message : Message URI)
    (outgoing : List (Message URI)) : Delivery URI :=
  { d with sender := { d.sender with outgoing } }.trySend answer (Sender.insertDate date message)

/-- The channel is empty for now, and the sink is flushed. -/
def flush (d : Delivery URI) : SinkAnswer → Delivery URI
  | .ok _ => { d with stage := .idle }
  | .error () => { d with stage := .failed }

/-- The channel has ended. -/
def finish (d : Delivery URI) : Delivery URI :=
  { d with stage := if d.sender.bufferedMessage.isSome then .panicked else .closing }

def close (d : Delivery URI) : SinkAnswer → Delivery URI
  | .ok (.ready ()) => { d with closed := true, stage := .returned }
  | .ok .notReady => { d with stage := .idle }
  | .error () => { d with stage := .failed }

inductive Op (URI : Type) where
  | push (message : Message URI)
  | cloneHandle
  | dropHandle
  | retry (answer : SendAnswer)
  | take (date : HeaderValue) (answer : SendAnswer)
  | flush (answer : SinkAnswer)
  | finish
  | close (answer : SinkAnswer)
  | drop

inductive Step : Delivery URI → Op URI → Delivery URI → Prop where
  | push {d} (message : Message URI) : 0 < d.handles → Step d (.push message) (d.push message)
  | cloneHandle {d} : 0 < d.handles → Step d .cloneHandle { d with handles := d.handles + 1 }
  | dropHandle {d} : 0 < d.handles → Step d .dropHandle { d with handles := d.handles - 1 }
  | retry {d} (answer : SendAnswer) : d.stage = .idle → Step d (.retry answer) (d.retry answer)
  | take {d message outgoing} (date : HeaderValue) (answer : SendAnswer) : d.stage = .writing →
      d.sender.outgoing = message :: outgoing →
      Step d (.take date answer) (d.take date answer message outgoing)
  | flush {d} (answer : SinkAnswer) : d.stage = .writing → d.sender.outgoing = [] →
      0 < d.handles → Step d (.flush answer) (d.flush answer)
  | finish {d} : d.stage = .writing → d.sender.outgoing = [] → d.handles = 0 →
      Step d .finish d.finish
  | close {d} (answer : SinkAnswer) : d.stage = .closing → Step d (.close answer) (d.close answer)
  /-- A future that is not in the middle of a poll can be dropped. -/
  | drop {d} : d.stage = .idle ∨ d.stage = .returned ∨ d.stage = .failed →
      Step d .drop { d with stage := .dropped }

/-! ## What holds of every run -/

/-- In the middle of a poll no message is kept, and so the assertions hold. -/
structure Account (d : Delivery URI) : Prop where
  asserted : d.stage ≠ .panicked
  clear : d.stage = .writing ∨ d.stage = .closing → d.sender.bufferedMessage = none
  /-- As long as the sink has not failed, what is pushed is accepted, kept or in the channel. -/
  kept : d.stage ≠ .failed → d.stage ≠ .dropped → ∃ taken, d.pushed = taken ++ d.sender.outgoing ∧
    List.Forall₂ Sender.Dated taken (d.accepted ++ d.sender.bufferedMessage.toList)
  accepted : ∃ taken, taken <+: d.pushed ∧ List.Forall₂ Sender.Dated taken d.accepted
  /-- Behind the end of the channel nothing comes. -/
  ended : d.stage = .closing ∨ d.stage = .returned → d.handles = 0 ∧ d.sender.outgoing = []
  returned : d.stage = .returned → d.sender.bufferedMessage = none ∧ d.closed = true

variable {d d' : Delivery URI} {op : Op URI}

theorem account_start : Account (start : Delivery URI) where
  asserted := nofun
  clear _ := rfl
  kept _ _ := ⟨[], rfl, .nil⟩
  accepted := ⟨[], List.nil_prefix, .nil⟩
  ended := nofun
  returned := nofun

/-- A message that is next is accepted, kept or lost with the sink. -/
inductive Tries (d : Delivery URI) (message : Message URI) : Delivery URI → Prop where
  | accepted : Tries d message
      { d with accepted := d.accepted ++ [message], stage := .writing }
  | kept : Tries d message
      { d with sender := { d.sender with bufferedMessage := some message }, stage := .idle }
  | failed : Tries d message { d with stage := .failed }

theorem trySend_eq (h : d.sender.bufferedMessage = none) (answer : SendAnswer)
    (message : Message URI) : d.trySend answer message = match answer with
      | .ready => { d with accepted := d.accepted ++ [message], stage := .writing }
      | .notReady =>
        { d with sender := { d.sender with bufferedMessage := some message }, stage := .idle }
      | .closed => { d with stage := .failed } := by
  unfold trySend
  rw [h, Option.isSome_none, if_neg Bool.false_ne_true]
  cases answer <;> simp [Sender.trySendMessage, Sender.Trace.empty, Sender.Trace.accept]

theorem trySend_cases (h : d.sender.bufferedMessage = none) (answer : SendAnswer)
    (message : Message URI) : Tries d message (d.trySend answer message) := by
  rw [trySend_eq h]
  cases answer with
  | ready => exact .accepted
  | notReady => exact .kept
  | closed => exact .failed

/-- What is tried is the next of the messages pushed. -/
theorem account_trySend (d : Delivery URI) {message : Message URI}
    (hbuffered : d.sender.bufferedMessage = none)
    (hnext : ∃ taken, d.pushed = taken ++ d.sender.outgoing ∧
      List.Forall₂ Sender.Dated taken (d.accepted ++ [message])) (answer : SendAnswer) :
    Account (d.trySend answer message) := by
  obtain ⟨taken, hpushed, hdated⟩ := hnext
  have haccepted := Sender.dated_accepted hpushed hdated
  have htries := trySend_cases hbuffered answer message
  generalize d.trySend answer message = d' at htries
  cases htries with
  | accepted =>
    refine ⟨nofun, fun _ => hbuffered, fun _ _ => ⟨taken, hpushed, ?_⟩, ?_, nofun, nofun⟩
    · rw [hbuffered, Option.toList_none, List.append_nil]
      exact hdated
    · exact ⟨taken, ⟨d.sender.outgoing, hpushed.symm⟩, hdated⟩
  | kept => exact ⟨nofun, nofun, fun _ _ => ⟨taken, hpushed, hdated⟩, haccepted, nofun, nofun⟩
  | failed => exact ⟨nofun, nofun, fun hfailed => absurd rfl hfailed, haccepted, nofun, nofun⟩

namespace Account

/-- A message that is pushed comes last. -/
theorem push (hd : Account d) (message : Message URI) (hhandles : 0 < d.handles) :
    Account (d.push message) := by
  unfold Delivery.push
  split
  · exact hd
  · refine ⟨hd.asserted, hd.clear, fun hfailed hdropped => ?_, ?_, fun hended => ?_, hd.returned⟩
    · obtain ⟨taken, hpushed, hdated⟩ := hd.kept hfailed hdropped
      refine ⟨taken, ?_, hdated⟩
      show d.pushed ++ [message] = taken ++ (d.sender.outgoing ++ [message])
      rw [hpushed, List.append_assoc]
    · obtain ⟨taken, hprefix, hdated⟩ := hd.accepted
      exact ⟨taken, hprefix.trans (List.prefix_append _ _), hdated⟩
    · -- Behind the end of the channel there is no handle to push through.
      obtain ⟨hnone, -⟩ := hd.ended hended
      exact absurd hhandles (by rw [show d.handles = 0 from hnone]; exact Nat.lt_irrefl 0)

theorem retry (hd : Account d) (hidle : d.stage = .idle) (answer : SendAnswer) :
    Account (d.retry answer) := by
  -- The message that is kept is the next one, whether or not it is accepted now.
  have hkept := hd.kept (by rw [hidle]; nofun) (by rw [hidle]; nofun)
  unfold Delivery.retry
  cases hbuffered : d.sender.bufferedMessage with
  | none =>
    exact ⟨nofun, fun _ => hbuffered, fun _ _ => hkept, hd.accepted, nofun, nofun⟩
  | some message =>
    rw [hbuffered] at hkept
    exact account_trySend { d with sender := { d.sender with bufferedMessage := none } } rfl hkept
      answer

theorem take (hd : Account d) (hwriting : d.stage = .writing) {message : Message URI}
    {outgoing : List (Message URI)} (houtgoing : d.sender.outgoing = message :: outgoing)
    (date : HeaderValue) (answer : SendAnswer) :
    Account (d.take date answer message outgoing) := by
  have hbuffered := hd.clear (.inl hwriting)
  obtain ⟨taken, hpushed, hdated⟩ :=
    hd.kept (by rw [hwriting]; nofun) (by rw [hwriting]; nofun)
  rw [hbuffered, Option.toList_none, List.append_nil] at hdated
  -- The message goes from the channel to what is taken, with its date.
  refine account_trySend { d with sender := { d.sender with outgoing } } hbuffered
    ⟨taken ++ [message], ?_, ?_⟩ answer
  · show d.pushed = taken ++ [message] ++ outgoing
    rw [hpushed, houtgoing, List.append_assoc, List.singleton_append]
  · exact List.rel_append hdated (.cons ⟨date, rfl⟩ .nil)

theorem step (hd : Account d) (h : Step d op d') : Account d' := by
  cases h with
  | push message hhandles => exact hd.push message hhandles
  | cloneHandle hhandles =>
    refine ⟨hd.asserted, hd.clear, hd.kept, hd.accepted, fun hended => ?_, hd.returned⟩
    rw [(hd.ended hended).1] at hhandles
    cases hhandles
  | dropHandle hhandles =>
    refine ⟨hd.asserted, hd.clear, hd.kept, hd.accepted, fun hended => ?_, hd.returned⟩
    rw [(hd.ended hended).1] at hhandles
    cases hhandles
  | retry answer hidle => exact hd.retry hidle answer
  | take date answer hwriting houtgoing => exact hd.take hwriting houtgoing date answer
  | flush answer hwriting =>
    have hkept := hd.kept (by rw [hwriting]; nofun) (by rw [hwriting]; nofun)
    cases answer with
    | ok => exact ⟨nofun, nofun, fun _ _ => hkept, hd.accepted, nofun, nofun⟩
    | error => exact ⟨nofun, nofun, fun hfailed => absurd rfl hfailed, hd.accepted, nofun, nofun⟩
  | finish hwriting houtgoing hnone =>
    have hkept := hd.kept (by rw [hwriting]; nofun) (by rw [hwriting]; nofun)
    have hbuffered := hd.clear (.inl hwriting)
    unfold Delivery.finish
    rw [hbuffered, Option.isSome_none, if_neg Bool.false_ne_true]
    exact ⟨nofun, fun _ => hbuffered, fun _ _ => hkept, hd.accepted,
      fun _ => ⟨hnone, houtgoing⟩, nofun⟩
  | close answer hclosing =>
    have hkept := hd.kept (by rw [hclosing]; nofun) (by rw [hclosing]; nofun)
    have hbuffered := hd.clear (.inr hclosing)
    have hended := hd.ended (.inl hclosing)
    rcases answer with _ | (_ | _)
    · exact ⟨nofun, nofun, fun hfailed => absurd rfl hfailed, hd.accepted, nofun, nofun⟩
    · exact ⟨nofun, nofun, fun _ _ => hkept, hd.accepted, fun _ => hended,
        fun _ => ⟨hbuffered, rfl⟩⟩
    · exact ⟨nofun, nofun, fun _ _ => hkept, hd.accepted, nofun, nofun⟩
  | drop => exact ⟨nofun, nofun, fun _ hdropped => absurd rfl hdropped, hd.accepted, nofun, nofun⟩

end Account

/-- **Messages are delivered in order and once.** In every run, what the sink has accepted is
    the first of what was pushed, with a date; as long as the sink has not failed, the message
    that is kept comes next and then what is in the channel; no assertion fails, so that what is
    kept is never pushed out by another; and a poll that returns has delivered everything and
    closed the sink. -/
theorem delivered_in_order {ops : List (Op URI)} (h : Run Step start ops d) :
    (∃ taken, taken <+: d.pushed ∧ List.Forall₂ Sender.SentAs taken d.accepted) ∧
      (d.stage ≠ .failed → d.stage ≠ .dropped → ∃ taken, d.pushed = taken ++ d.sender.outgoing ∧
        List.Forall₂ Sender.SentAs taken (d.accepted ++ d.sender.bufferedMessage.toList)) ∧
      d.stage ≠ .panicked ∧
      (d.stage = .returned → List.Forall₂ Sender.SentAs d.pushed d.accepted ∧ d.closed = true) := by
  have hd : Account d := h.invariant account_start fun _ _ _ hd₁ hstep => hd₁.step hstep
  refine ⟨?_, fun hfailed hdropped => ?_, hd.asserted, fun hreturned => ?_⟩
  · obtain ⟨taken, hprefix, hdated⟩ := hd.accepted
    exact ⟨taken, hprefix, hdated.imp fun _ _ hsent => hsent.sentAs⟩
  · obtain ⟨taken, hpushed, hdated⟩ := hd.kept hfailed hdropped
    exact ⟨taken, hpushed, hdated.imp fun _ _ hsent => hsent.sentAs⟩
  · obtain ⟨taken, hpushed, hdated⟩ :=
      hd.kept (by rw [hreturned]; nofun) (by rw [hreturned]; nofun)
    obtain ⟨hbuffered, hclosed⟩ := hd.returned hreturned
    rw [hbuffered, Option.toList_none, List.append_nil] at hdated
    rw [(hd.ended (.inr hreturned)).2, List.append_nil] at hpushed
    exact ⟨hpushed ▸ hdated.imp fun _ _ hsent => hsent.sentAs, hclosed⟩

/-- Two messages through two handles; the sink refuses the first at first, and its close takes
    two polls. -/
theorem delivered_in_order_refused : ∃ (ops : List (Op AsteriskURI)) (d : Delivery AsteriskURI),
    Run Step start ops d ∧ d.pushed = [.response (.ofStatus .ok), .response (.ofStatus .notFound)] ∧
      List.Forall₂ Sender.SentAs d.pushed d.accepted ∧ d.closed = true := by
  let date : HeaderValue := ⟨ascii "Thu, 01 Jan 1970 00:00:00 +0000", by decide⟩
  have hstart : Run Step (start : Delivery AsteriskURI) [] start := .start
  have hpushed := (((hstart.snoc (.push (.response (.ofStatus .ok)) (Nat.succ_pos 0))).snoc
    (.cloneHandle (Nat.succ_pos 0))).snoc
    (.push (.response (.ofStatus .notFound)) (Nat.succ_pos 1))).snoc (.dropHandle (Nat.succ_pos 1))
  have hrefused := ((hpushed.snoc (.retry .ready rfl)).snoc (.take date .notReady rfl rfl)).snoc
    (.dropHandle (Nat.succ_pos 0))
  have htaken := (hrefused.snoc (.retry .ready rfl)).snoc (.take date .ready rfl rfl)
  have hpending := (htaken.snoc (.finish rfl rfl rfl)).snoc (.close (.ok .notReady) rfl)
  have hclosed := ((hpending.snoc (.retry .ready rfl)).snoc (.finish rfl rfl rfl)).snoc
    (.close (.ok (.ready ())) rfl)
  exact ⟨_, _, hclosed, rfl, (delivered_in_order hclosed).2.2.2 rfl⟩

/-! ## A poll that nothing comes between -/

/-- Where the loop of `poll_write` leaves the task. -/
def stageWritten : Poll Unit Unit → Sending
  | .ok (.ready ()) => .closing
  | .ok .notReady => .idle
  | .error () => .failed

/-- Where a poll leaves the task. -/
def stagePolled : Poll Unit Unit → Sending
  | .ok (.ready ()) => .returned
  | .ok .notReady => .idle
  | .error () => .failed

variable {env : Sender.Answers}

/-- The task at the head of the loop, with what the sink accepted before the poll and in it. -/
def atLoop (d : Delivery URI) (outgoing : List (Message URI)) (t : Sender.Trace URI) :
    Delivery URI :=
  { d with
    sender := ⟨none, outgoing⟩
    accepted := d.accepted ++ t.accepted
    stage := .writing }

/-- The task when part of a poll has come out. -/
def after (d : Delivery URI) (stageOf : Poll Unit Unit → Sending)
    (polled : Poll Unit Unit × Sender URI × Sender.Trace URI) : Delivery URI :=
  { d with
    sender := polled.2.1
    accepted := d.accepted ++ polled.2.2.accepted
    stage := stageOf polled.1 }

/-- The loop of `poll_write` is a run of its steps. -/
theorem run_writeLoop (hended : env.ended = true ↔ d.handles = 0) (outgoing : List (Message URI))
    (answers : List SendAnswer) (t : Sender.Trace URI) :
    ∃ ops, Run Step (d.atLoop outgoing t) ops
      (d.after stageWritten (Sender.writeLoop env answers none outgoing t)) := by
  induction outgoing generalizing answers t with
  | nil =>
    unfold Sender.writeLoop
    cases hend : env.ended with
    | true =>
      rw [if_pos rfl]
      exact ⟨[.finish], .snoc .start (.finish rfl rfl (hended.mp hend))⟩
    | false =>
      have hhandles : 0 < d.handles := by
        refine Nat.pos_of_ne_zero fun hnone => ?_
        rw [hended.mpr hnone] at hend
        cases hend
      have hflush : Run Step (d.atLoop [] t) _ _ :=
        .snoc .start (.flush env.pollComplete rfl rfl hhandles)
      rw [if_neg Bool.false_ne_true]
      refine ⟨[.flush env.pollComplete], ?_⟩
      rcases hanswer : env.pollComplete with _ | (_ | _)
      all_goals
        rw [hanswer] at hflush
        exact hflush
  | cons message outgoing ih =>
    have htake : Run Step (d.atLoop (message :: outgoing) t) _ _ :=
      .snoc .start (.take (env.date outgoing.length) (answers.head?.getD .notReady) rfl rfl)
    rw [take, trySend_eq rfl] at htake
    unfold Sender.writeLoop
    cases hanswer : answers.head?.getD .notReady with
    | ready =>
      rw [hanswer] at htake
      obtain ⟨ops, hrun⟩ := ih answers.tail
        (t.accept (Sender.insertDate (env.date outgoing.length) message))
      have hsame : d.atLoop outgoing
          (t.accept (Sender.insertDate (env.date outgoing.length) message)) =
          { d.atLoop (message :: outgoing) t with
            sender := ⟨none, outgoing⟩
            accepted := (d.atLoop (message :: outgoing) t).accepted ++
              [Sender.insertDate (env.date outgoing.length) message] } := by
        simp [atLoop, Sender.Trace.accept]
      rw [hsame] at hrun
      exact ⟨_, htake.append hrun⟩
    | notReady =>
      rw [hanswer] at htake
      exact ⟨_, htake⟩
    | closed =>
      rw [hanswer] at htake
      exact ⟨_, htake⟩

/-- The task when a poll has come out: one that is ready has closed the sink. -/
def afterPoll (d : Delivery URI) (polled : Poll Unit Unit × Sender URI × Sender.Trace URI) :
    Delivery URI :=
  { d.after stagePolled polled with
    closed := match polled.1 with
      | .ok (.ready ()) => true
      | _ => d.closed }

/-- What is left of a poll once no message is kept is a run of its steps. -/
theorem run_pollRest (hended : env.ended = true ↔ d.handles = 0) (outgoing : List (Message URI))
    (answers : List SendAnswer) (t : Sender.Trace URI) :
    ∃ ops, Run Step (d.atLoop outgoing t) ops
      (d.afterPoll (Sender.pollRest ⟨none, outgoing⟩ env answers t)) := by
  obtain ⟨ops, hrun⟩ := run_writeLoop hended outgoing answers t
  unfold Sender.pollRest Sender.pollWrite
  generalize Sender.writeLoop env answers none outgoing t = written at hrun
  obtain ⟨result, s', t'⟩ := written
  rcases result with _ | (_ | _)
  · exact ⟨ops, hrun⟩
  · have hclose := hrun.snoc (.close env.close rfl)
    refine ⟨ops ++ [.close env.close], ?_⟩
    rcases hanswer : env.close with _ | (_ | _)
    all_goals
      rw [hanswer] at hclose
      exact hclose
  · exact ⟨ops, hrun⟩

/-- **A poll that nothing comes between is a run of its steps.** -/
theorem run_poll (hended : env.ended = true ↔ d.handles = 0) (hidle : d.stage = .idle) :
    ∃ ops, Run Step d ops (d.afterPoll (d.sender.poll env)) := by
  have hretry := Run.start.snoc (Step.retry (env.startSend.head?.getD .notReady) hidle)
  obtain ⟨handles, pushed, ⟨buffered, outgoing⟩, accepted, closed, stage⟩ := d
  let d : Delivery URI := ⟨handles, pushed, ⟨buffered, outgoing⟩, accepted, closed, stage⟩
  cases buffered with
  | none =>
    obtain ⟨ops, hrun⟩ := run_pollRest (d := d) hended outgoing env.startSend .empty
    have hloop : d.atLoop outgoing .empty = { d with stage := .writing } := by
      simp [atLoop, Sender.Trace.empty, d]
    rw [hloop] at hrun
    exact ⟨_, hretry.append hrun⟩
  | some message =>
    unfold retry at hretry
    dsimp only at hretry
    rw [trySend_eq rfl] at hretry
    unfold Sender.poll
    cases hanswer : env.startSend.head?.getD .notReady with
    | ready =>
      rw [hanswer] at hretry
      obtain ⟨ops, hrun⟩ := run_pollRest (d := d) hended outgoing env.startSend.tail
        (Sender.Trace.empty.accept message)
      exact ⟨_, hretry.append hrun⟩
    | notReady =>
      rw [hanswer] at hretry
      have hkept : Run Step d [.retry .notReady] { d with
          sender := ⟨some message, outgoing⟩, accepted := accepted ++ [], stage := .idle } := by
        rw [List.append_nil]
        exact hretry
      exact ⟨_, hkept⟩
    | closed =>
      rw [hanswer] at hretry
      have hfailed : Run Step d [.retry .closed] { d with
          sender := ⟨none, outgoing⟩, accepted := accepted ++ [], stage := .failed } := by
        rw [List.append_nil]
        exact hretry
      exact ⟨_, hfailed⟩

end Delivery
end Rtsp
