import Mathlib.Logic.Function.Basic
import Rtsp.Connection.Pending
import Rtsp.Lib.Oneshot

/-!
# The futures of requests sent

`SendRequest` of `connection/pending.rs`: it waits for the reply to one request.
A Continue hands it the receiving half of a new channel; a timer that runs out,
or its drop, makes it ask the response receiver to forget the request.

The functions are given the channels of all requests, which the response
receiver shares. Timers are outside of the model: what they answer comes with
each poll.

Dropping a receiving half is not one access to one channel. The half may hold a
Continue, and in it the receiving half of the next channel, which may hold another, and
all of them go at once. `dropReceiver` closes the rest of the request's channels, which
are those, since a channel is made in one place only: by the Continue that is sent into
the one before it.

Durations are natural numbers, with neither their unit nor their limit, and a timer is
the duration that it was set to. Which of two timers runs out first is not to be seen
here: the answers of both come with each poll, and any combination is possible.

`poll` in one piece is in `Connection.Continues`. Most results take its parts, as steps
of the exchange.
-/

namespace Rtsp

open Lib

/-- `RequestTimeoutType` -/
inductive RequestTimeoutType where
  | long
  | short
  deriving DecidableEq

/-- `OperationError` -/
inductive OperationError where
  | closed
  | requestCancelled
  | requestTimedOut (timeout : RequestTimeoutType)
  deriving DecidableEq

/-- `RequestOptions` -/
structure RequestOptions where
  maxTimeoutDuration : Option Nat
  timeoutDuration : Option Nat
  deriving DecidableEq

/-- The channels of all requests. One that has not been made yet is new. -/
abbrev Channels := ReplyChannel → Oneshot PendingRequestResponse

namespace Channels

def put (channels : Channels) (c : ReplyChannel) (channel : Oneshot PendingRequestResponse) :
    Channels :=
  Function.update channels c channel

/-- A half of a channel is dropped, or the receiving half is closed. -/
def close (channels : Channels) (c : ReplyChannel) : Channels :=
  channels.put c (channels c).close

/-- A receiving half is dropped. The message it holds goes with it, and with a Continue the
    receiving half of the next channel, and so on: the rest of the request's channels. -/
def dropReceiver (channels : Channels) (rx : ReplyChannel) : Channels :=
  fun c => if c.request = rx.request ∧ rx.hop ≤ c.hop then (channels c).close else channels c

/-- What the sending halves give to their channels. -/
def deliver (channels : Channels) (ds : Deliveries) : Channels :=
  ds.foldl (fun channels d => channels.put d.1 ((channels d.1).send d.2)) channels

variable {channels : Channels} {c c' : ReplyChannel} {channel : Oneshot PendingRequestResponse}

@[simp] theorem put_self (channels : Channels) (c : ReplyChannel)
    (channel : Oneshot PendingRequestResponse) : channels.put c channel c = channel :=
  Function.update_self ..

@[simp] theorem put_of_ne (channels : Channels) (channel : Oneshot PendingRequestResponse)
    (h : c' ≠ c) : channels.put c channel c' = channels c' :=
  Function.update_of_ne h ..

@[simp] theorem put_eq_self (channels : Channels) (c : ReplyChannel) :
    channels.put c (channels c) = channels :=
  Function.update_eq_self ..

/-- Nothing happens to the channels of the other requests. -/
theorem put_of_request (channels : Channels) (channel : Oneshot PendingRequestResponse)
    (h : c'.request ≠ c.request) : channels.put c channel c' = channels c' :=
  put_of_ne _ _ fun heq => h (heq ▸ rfl)

theorem dropReceiver_of_request (channels : Channels) (h : c'.request ≠ c.request) :
    channels.dropReceiver c c' = channels c' :=
  if_neg fun hdropped => h hdropped.1

/-- Closing a channel, or dropping a half of it, leaves what it holds. -/
@[simp] theorem slot_close (channels : Channels) (c c' : ReplyChannel) :
    (channels.close c c').slot = (channels c').slot := by
  by_cases h : c' = c
  · rw [h, close, put_self]
    rfl
  · rw [close, put_of_ne _ _ h]

@[simp] theorem slot_dropReceiver (channels : Channels) (c c' : ReplyChannel) :
    (channels.dropReceiver c c').slot = (channels c').slot := by
  unfold dropReceiver
  split
  · rfl
  · rfl

theorem close_of_request (channels : Channels) (h : c'.request ≠ c.request) :
    channels.close c c' = channels c' :=
  put_of_request _ _ h

@[simp] theorem deliver_singleton (channels : Channels) (tx : ReplyChannel)
    (message : PendingRequestResponse) :
    channels.deliver [(tx, message)] = channels.put tx ((channels tx).send message) := rfl

end Channels

/-- `SendRequest`. A timer is kept as the duration it was set to, as far as it is there. -/
structure SendRequest where
  maxTimer : Option Nat
  rxResponse : ReplyChannel
  sequenceNumber : CSeq
  timeoutDuration : Option Nat
  timer : Option Nat
  deriving DecidableEq

namespace SendRequest

/-- `SendRequest::new`. A duration that an `Instant` cannot hold, on which setting a timer panics
    (here, and again when a Continue resets it), is left out. -/
def new (rxResponse : ReplyChannel) (sequenceNumber : CSeq) (options : RequestOptions) :
    SendRequest where
  maxTimer := options.maxTimeoutDuration
  rxResponse := rxResponse
  sequenceNumber := sequenceNumber
  timeoutDuration := options.timeoutDuration
  timer := options.timeoutDuration

/-- `poll_is_cancelled`. What it takes out of the channel is dropped. -/
def pollIsCancelled (r : SendRequest) (channels : Channels) : Bool × Channels :=
  let (answer, channel) := (channels r.rxResponse).poll
  let channels := channels.put r.rxResponse channel
  match answer with
  | .canceled => (true, channels)
  | .received (.«continue» rx) => (false, channels.dropReceiver rx)
  | .received _ => (false, channels)
  | .notReady => (false, channels)

/-- `poll_request` -/
def pollRequest (r : SendRequest) (channels : Channels) :
    Rust (Poll Response OperationError × SendRequest × Channels) :=
  let (answer, channel) := (channels r.rxResponse).poll
  let channels := channels.put r.rxResponse channel
  match answer with
  | .canceled => .error (.expect "`SendRequest.rx_response` should not error")
  | .received (.«continue» rx) =>
    .ok (.ok .notReady, { r with rxResponse := rx, timer := r.timeoutDuration }, channels)
  | .received .none => .ok (.error .requestCancelled, r, channels)
  | .received (.response response) => .ok (.ok (.ready response), r, channels)
  | .notReady => .ok (.ok .notReady, r, channels)

/-- `poll_max_timer` and `poll_timer`, up to the cancelling: an error cancels the request. -/
def pollDelay (panics : String) (timeout : RequestTimeoutType) (timer : Option Nat)
    (answer : DelayAnswer) : Rust (Except OperationError Unit) :=
  match timer, answer with
  | none, _ => .ok (.ok ())
  | some _, .expired => .ok (.error (.requestTimedOut timeout))
  | some _, .notReady => .ok (.ok ())
  | some _, .atCapacity => .ok (.error .requestCancelled)
  | some _, .shutdown => .error (.expect panics)

def pollMaxTimer (r : SendRequest) (answer : DelayAnswer) : Rust (Except OperationError Unit) :=
  pollDelay "max timer should not be shutdown" .long r.maxTimer answer

def pollTimer (r : SendRequest) (answer : DelayAnswer) : Rust (Except OperationError Unit) :=
  pollDelay "timer should not be shutdown" .short r.timer answer

/-- Both timers, as `poll` looks at them. -/
def pollTimers (r : SendRequest) (maxTimer timer : DelayAnswer) :
    Rust (Except OperationError Unit) := do
  match ← r.pollMaxTimer maxTimer with
  | .ok () => r.pollTimer timer
  | .error error => .ok (.error error)

/-! ## What looking at the channel does -/

variable {r r' : SendRequest} {channels channels' : Channels}

/-- How `poll_request` comes out. -/
inductive Looks (r : SendRequest) (channels : Channels) :
    Rust (Poll Response OperationError × SendRequest × Channels) → Prop where
  | notReady : (channels r.rxResponse).complete = false →
      Looks r channels (.ok (.ok .notReady, r, channels))
  | «continue» {rx} : channels r.rxResponse = .filled (.«continue» rx) →
      Looks r channels (.ok (.ok .notReady, { r with rxResponse := rx, timer := r.timeoutDuration },
        channels.put r.rxResponse ⟨true, none⟩))
  | none : channels r.rxResponse = .filled .none →
      Looks r channels (.ok (.error .requestCancelled, r,
        channels.put r.rxResponse ⟨true, none⟩))
  | response {response} : channels r.rxResponse = .filled (.response response) →
      Looks r channels (.ok (.ok (.ready response), r,
        channels.put r.rxResponse ⟨true, none⟩))
  | canceled : (channels r.rxResponse).Canceled →
      Looks r channels (.error (.expect "`SendRequest.rx_response` should not error"))

theorem pollRequest_cases (r : SendRequest) (channels : Channels) :
    Looks r channels (r.pollRequest channels) := by
  unfold pollRequest
  generalize hchannel : channels r.rxResponse = channel
  obtain ⟨complete, slot⟩ := channel
  cases complete with
  | false =>
    have hsame : channels.put r.rxResponse ⟨false, slot⟩ = channels := by
      rw [← hchannel, Channels.put_eq_self]
    simp only [Oneshot.poll, Bool.false_eq_true, if_false, hsame]
    exact .notReady (by rw [hchannel])
  | true =>
    cases slot with
    | none => exact .canceled (by rw [hchannel]; exact ⟨rfl, rfl⟩)
    | some message =>
      cases message with
      | «continue» rx => exact .«continue» hchannel
      | none => exact .none hchannel
      | response response => exact .response hchannel

/-- How `poll_is_cancelled` comes out: it is cancelled if its channel is. -/
inductive Checks (r : SendRequest) (channels : Channels) : Bool → Channels → Prop where
  | cancelled : (channels r.rxResponse).Canceled → Checks r channels true channels
  | notReady : (channels r.rxResponse).complete = false → Checks r channels false channels
  | «continue» {rx} : channels r.rxResponse = .filled (.«continue» rx) →
      Checks r channels false ((channels.put r.rxResponse ⟨true, none⟩).dropReceiver rx)
  | taken {message} : channels r.rxResponse = .filled message →
      (∀ rx, message ≠ .«continue» rx) →
      Checks r channels false (channels.put r.rxResponse ⟨true, none⟩)

theorem pollIsCancelled_cases (r : SendRequest) (channels : Channels) :
    Checks r channels (r.pollIsCancelled channels).1 (r.pollIsCancelled channels).2 := by
  unfold pollIsCancelled
  generalize hchannel : channels r.rxResponse = channel
  have hsame : channels.put r.rxResponse channel = channels := by
    rw [← hchannel, Channels.put_eq_self]
  obtain ⟨complete, slot⟩ := channel
  cases complete with
  | false =>
    simp only [Oneshot.poll, Bool.false_eq_true, if_false, hsame]
    exact .notReady (by rw [hchannel])
  | true =>
    cases slot with
    | none =>
      simp only [Oneshot.poll, if_true, hsame]
      exact .cancelled (by rw [hchannel]; exact ⟨rfl, rfl⟩)
    | some message =>
      cases message with
      | «continue» rx => exact .«continue» hchannel
      | none => exact .taken hchannel nofun
      | response response => exact .taken hchannel nofun

end SendRequest
end Rtsp
