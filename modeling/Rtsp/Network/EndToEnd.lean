import Rtsp.Network.Progress

/-!
# From end to end

What the two peers promise each other over any run: the requests of the client
come to the handler of the server, what a call returns is the answer to its own
request, and nothing is lost on the way. With the server of the library it is known
what that answer is.

Each result is followed by a run of its own: one request, and the answer of the
library's server to it. The runs are put together from the parts' runs, as the states
are large and evaluating them whole takes long.

What they assume is the same throughout. URIs print without spaces and are parsed back
(`RequestURI.Lawful`); what was written is within the default limits; fewer than 10^9
requests were sent; and the server's buffer of requests is smaller than 2^32, beyond
which its arithmetic on numbers is another one. None of this is checked by the code, and
beyond any of it a peer may be told that its message is too long, or have its response
given to a newer request with the same number.

Both peers are of this library. Against a peer that is not, what is left is what the
modules under `Connection` and `Codec` show of one side by itself.
-/

namespace Rtsp

open Lib

/-- A computation that returns something with a property. -/
theorem Rust.ok_of_any {α : Type} {x : Rust α} {p : α → Bool} (h : x.toOption.any p = true) :
    ∃ a, x = .ok a ∧ p a = true := by
  cases x with
  | error => cases h
  | ok a => exact ⟨a, rfl, h⟩

namespace Network

variable {URI URIError : Type} [RequestURI URI URIError] {first : CSeq} {size : Nat}
  {duration : Option Nat} {s : Network URI URIError}

/-! ## Requests arrive -/

/-- **Requests arrive.** In every run of the two peers, what the handler of the server gets are
    the first of the requests that the client's calls have sent, in order and once each, under the
    numbers that the calls gave them; the stream never fails, and the receiver turns none of them
    away. -/
theorem requests_arrive (hlawful : RequestURI.Lawful URI) {ops : List (Op URI URIError)}
    (h : Run Step (start first size duration) ops s) (hsize : size < 2 ^ 32)
    (hsendable : ∀ m ∈ s.uplink.written, m.Sendable) (hfew : s.client.sent.length < 10 ^ 9) :
    s.uplink.failed = none ∧ s.server.2.replies = [] ∧
      Follows s.Arrives s.client.sent s.handler.arrived := by
  have hs := Linked.of_run hsize h
  have hcounted := hs.counted hlawful hsendable hfew
  exact ⟨(hs.decodes hlawful hsendable).1, (hs.server.sequence hcounted).replies,
    hs.follows hlawful hsendable hfew⟩

/-- An OPTIONS request for all of the server. -/
def options : Request AsteriskURI := ⟨[], .empty, .standard .options, .asterisk, .rtsp2_0, rfl⟩

/-- What the server of the library answers to requests for all of it. -/
def asteriskService : Request AsteriskURI → Response :=
  @ConnectionService.answered .keeping AsteriskURI true

theorem seven_le : 7 ≤ MAX_CSEQ := by decide

def seven : CSeq := ⟨7, seven_le⟩

def date : HeaderValue := Sender.Answers.idle.date 0

/-- The request as it is sent. -/
def sentOptions : Request AsteriskURI :=
  { options with
    headers :=
      ((options.withCSeq seven).headers.remove (.standard .date)).append (.standard .date) date }

/-- A client that has sent it. -/
def sentClient : Exchange :=
  { ((Exchange.start seven).addPendingRequest Exchange.noTimeouts).queueMessage
      ⟨0, seven, Exchange.noTimeouts, false⟩ with written := 1 }

def sentSender : Delivery AsteriskURI :=
  ⟨1, [.request (options.withCSeq seven)], .new, [.request sentOptions], false, .writing⟩

/-- The request has come to the server. -/
def sentNetwork (uplink : Wire AsteriskURI Unit) : Network AsteriskURI Unit where
  client := sentClient
  requests := [options]
  clientSender := sentSender
  uplink := uplink
  server := (.new 4, .empty)
  handler := .new none
  serverSender := .start
  downlink := .new
  heard := []

/-- The request has come to the handler of the server. -/
def arrivedNetwork (uplink : Wire AsteriskURI Unit) (server : Receiver.State AsteriskURI Unit) :
    Network AsteriskURI Unit :=
  { sentNetwork uplink with
    server := server
    handler := (RequestHandler.Session.new none).arriveAll [(seven, sentOptions.received)] }

theorem sendable_sentOptions : ∀ m ∈ [Message.request sentOptions], m.Sendable := by
  refine List.forall_mem_singleton.mpr ⟨by decide, by decide, ⟨?_, ?_, ?_, by decide, by decide⟩⟩
  all_goals decide +kernel

theorem run_sent {w : Wire AsteriskURI Unit}
    (hw : Wire.Step (Wire.new.write [.request sentOptions])
      (.arrive ([.request sentOptions].flatMap Codec.encoded)) w) :
    ∃ ops, Run (PromptStep asteriskService) (start seven 4 none) ops (sentNetwork w) := by
  have hstart : Run (PromptStep asteriskService)
      (start seven 4 none : Network AsteriskURI Unit) [] _ := .start
  have hcalled := hstart.snoc ⟨.call options Exchange.noTimeouts
    (.addPendingRequest Exchange.noTimeouts rfl (Nat.succ_pos 0)), nofun⟩
  have hqueued := hcalled.snoc ⟨.queueMessage rfl rfl (.queueMessage rfl rfl rfl)
    (.push (.request (options.withCSeq seven)) (Nat.succ_pos 0)), nofun⟩
  have hwriting := hqueued.snoc ⟨.clientSender rfl (.retry .ready rfl) rfl, nofun⟩
  have hsent := hwriting.snoc ⟨.write rfl (.take date .ready rfl rfl)
    (rfl : sentSender.accepted = [] ++ [.request sentOptions])
    (.write rfl (.inl rfl) (Nat.succ_pos 0)), nofun⟩
  exact ⟨_, hsent.snoc ⟨.uplink _ hw, nofun⟩⟩

theorem run_arrived : ∃ (ops : List (Op AsteriskURI Unit)) (w : Wire AsteriskURI Unit)
    (server : Receiver.State AsteriskURI Unit),
    Run (PromptStep asteriskService) (start seven 4 none) ops (arrivedNetwork w server) ∧
      w.written = [.request sentOptions] ∧ w.chunks.flatten = w.bytes ∧
      server.2.messages = w.decoded ∧ server.1.requestsAllowed = true ∧
      ∃ f, server.1.forwardingReceiver = some f ∧ contents f.bufferedRequests = [] := by
  obtain ⟨w, hw, hwritten, hbytes, hdecoded⟩ :=
    @Wire.arrives_written AsteriskURI Unit _ Codec.lawful_asterisk _ sendable_sentOptions
  obtain ⟨ops, hsent⟩ := run_sent hw
  let env : Receiver.Answers AsteriskURI Unit :=
    { (Receiver.Answers.idle : Receiver.Answers AsteriskURI Unit) with
      stream := [.message (.request sentOptions.received)], handler := [.ready] }
  obtain ⟨⟨a, r, t⟩, hpoll, hfacts⟩ := Rust.ok_of_any (x := (Receiver.new 4).poll env)
    (p := fun polled => polled.2.2.messages = [.request sentOptions.received] ∧
      polled.2.2.forwarded = [(seven, sentOptions.received)] ∧ polled.2.2.replies = [] ∧
      (polled.2.2.answered.all fun answer => !(answer matches .error _)) ∧
      polled.2.1.requestsAllowed ∧
      polled.2.1.forwardingReceiver.any fun f => contents f.bufferedRequests = [])
    (by decide +kernel)
  obtain ⟨hmessages, hforwarded, hreplies, herrors, hallowed, hempty⟩ := of_decide_eq_true hfacts
  have hreads : Reads (sentNetwork w) t := by
    refine ⟨?_, fun e he => ?_⟩
    · show [] ++ t.messages <+: w.decoded
      rw [hmessages, hdecoded]
      exact List.prefix_rfl
    · cases List.all_eq_true.mp herrors _ he
  have hreceived := hsent.snoc ⟨.receive hpoll (by decide) (fun _ => nofun) hreads (.inr rfl)
    (.inl hreplies), nofun⟩
  rw [hforwarded, hreplies] at hreceived
  refine ⟨_, w, _, hreceived, hwritten, hbytes, ?_, hallowed, ?_⟩
  · show [] ++ t.messages = w.decoded
    rw [hmessages, hdecoded]
    rfl
  · obtain ⟨f, hf, hnone⟩ := Option.any_eq_true .. |>.mp hempty
    exact ⟨f, hf, of_decide_eq_true hnone⟩

/-- The handler gets the request under its number. -/
theorem requests_arrive_options : ∃ s : Network AsteriskURI Unit,
    s.handler.arrived = [(seven, sentOptions.received)] ∧
      Follows s.Arrives s.client.sent s.handler.arrived := by
  obtain ⟨ops, w, server, hrun, hwritten, -⟩ := run_arrived
  have hrun := hrun.mono fun _ _ _ h => h.1
  exact ⟨_, rfl, (requests_arrive Codec.lawful_asterisk hrun (by decide)
    (hwritten ▸ sendable_sentOptions) (Nat.one_lt_pow (by decide) (by decide))).2.2⟩

/-! ## Responses return -/

/-- **Responses return.** In every run of the two peers, each response that a call of the client
    returns is the last one that the server's handler enqueued about the request of that
    call. -/
theorem answers_return (hlawful : RequestURI.Lawful URI) {ops : List (Op URI URIError)}
    (h : Run Step (start first size duration) ops s) (hsize : size < 2 ^ 32)
    (hlimits : s.WithinLimits) :
    ∃ k : RequestHandler.Account URI,
      k.Right s.handler.handler s.handler.arrived s.handler.events ∧
      ∀ n response, (n, .ok response) ∈ s.client.results →
        ∃ i e final, s.client.sent[i]? = some n ∧ s.Arrives n e ∧ k.Ends i e final ∧
          final.Carried response := by
  have hs := Linked.of_run hsize h
  obtain ⟨calls, hclient⟩ := hs.client
  have hmatches := Exchange.matches_run hclient
  obtain ⟨k, hk⟩ := hs.accountable
  refine ⟨k, hk, fun n response hresult => ?_⟩
  obtain ⟨hheard, hfinal⟩ := hs.results.results n response hresult
  obtain ⟨r, stage, hr, -⟩ := hmatches.resolved.ended _ hresult
  exact hs.answer hlawful hlimits hk hheard hfinal (hmatches.numbered.requests n _ hr)
    (hmatches.resolved.results n response hresult)

/-- The response of the server, and as it is sent. -/
def ok : Response := (asteriskService options).withCSeq seven

def sentOk : Response :=
  { ok with headers := (ok.headers.remove (.standard .date)).append (.standard .date) date }

theorem sendable_sentOk : ∀ m ∈ [(Message.response sentOk : Message AsteriskURI)], m.Sendable := by
  refine List.forall_mem_singleton.mpr
    ⟨by decide, fun p hp => Option.some.inj hp, ⟨?_, ?_, ?_, by decide, by decide⟩⟩
  all_goals decide +kernel

/-- The service is called, and answers. -/
def servedHandler : RequestHandler.Session AsteriskURI :=
  ⟨.new none, [(seven, sentOptions.received)],
    [] ++ [.called seven sentOptions.received, .enqueued ok]⟩

/-- The client has read the response to its request. -/
def readClient : Exchange :=
  { sentClient.handleUpdate (.addPendingRequest seven ⟨0, 0⟩) [] with phase := .reading }.respond
    sentOk.received

def answeredNetwork (uplink : Wire AsteriskURI Unit) (server : Receiver.State AsteriskURI Unit)
    (downlink : Wire AsteriskURI Unit) : Network AsteriskURI Unit :=
  { arrivedNetwork uplink server with
    client := readClient
    handler := servedHandler
    serverSender := ⟨1, [.response ok], .new, [.response sentOk], false, .writing⟩
    downlink := downlink
    heard := [sentOk.received] }

theorem run_answered : ∃ (ops : List (Op AsteriskURI Unit)) (w d : Wire AsteriskURI Unit)
    (server : Receiver.State AsteriskURI Unit),
    Run (PromptStep asteriskService) (start seven 4 none) ops (answeredNetwork w server d) ∧
      (answeredNetwork w server d).WithinLimits ∧ (answeredNetwork w server d).Quiet := by
  obtain ⟨ops, w, server, hrun, hwritten, hbytes, hmessages, hallowed, hempty⟩ := run_arrived
  obtain ⟨d, hd, hdwritten, hdbytes, hdecoded⟩ :=
    @Wire.arrives_written AsteriskURI Unit _ Codec.lawful_asterisk _ sendable_sentOk
  have hpoll : RequestHandler.Session.Step (arrivedNetwork w server).handler
      (.poll ⟨true, [.notReady, .ready (asteriskService sentOptions.received)], []⟩)
      servedHandler := .poll rfl rfl
  have hserved := hrun.snoc ⟨.serve hpoll rfl nofun (.inr (Nat.succ_pos 0)), fun env heq => by
    cases heq
    rfl⟩
  have hwriting := hserved.snoc
    ⟨.serverSender rfl (.retry .ready rfl) (List.append_nil _).symm, nofun⟩
  have hsent := hwriting.snoc ⟨.serverSender rfl (.take date .ready rfl rfl)
    (rfl : [Message.response sentOk] = [] ++ [.response sentOk]), nofun⟩
  have harrived := hsent.snoc ⟨.downlink _ hd, nofun⟩
  have hpolled := harrived.snoc ⟨.client rfl (.startPoll rfl), nofun⟩
  have hhandled := hpolled.snoc ⟨.client rfl (.handleUpdate (.inl rfl) rfl), nofun⟩
  have hreading := hhandled.snoc ⟨.client rfl (.drained rfl (.inl ⟨rfl, rfl⟩)), nofun⟩
  have hread := hreading.snoc
    ⟨.read (congrArg (·[0]?) hdecoded) (.respond sentOk.received rfl), nofun⟩
  refine ⟨_, w, d, server, hread, ⟨hwritten ▸ sendable_sentOptions, hdwritten ▸ sendable_sentOk,
    Nat.one_lt_pow (by decide) (by decide)⟩, ?_⟩
  refine ⟨rfl, hbytes, hmessages, hallowed, hempty, rfl, rfl, hdbytes, ?_⟩
  rw [show (answeredNetwork w server d).downlink.decoded = d.decoded from rfl, hdecoded]
  rfl

/-- The call returns the response that the service gave. -/
theorem answers_return_ok : ∃ (s : Network AsteriskURI Unit)
    (k : RequestHandler.Account AsteriskURI) (i : Nat) (e : CSeq × Request AsteriskURI)
    (final : Response),
    k.Right s.handler.handler s.handler.arrived s.handler.events ∧ k.Ends i e final ∧
      s.client.results = [(0, .ok sentOk.received)] ∧ final.Carried sentOk.received := by
  obtain ⟨ops, w, d, server, hrun, hlimits, -⟩ := run_answered
  have hreturned := (hrun.mono fun _ _ _ h => h.1).snoc (.client rfl (.poll (n := 0) rfl))
  obtain ⟨k, hk, hresults⟩ := answers_return Codec.lawful_asterisk hreturned (by decide)
    ⟨hlimits.up, hlimits.down, hlimits.few⟩
  obtain ⟨i, e, final, -, -, hends, hcarried⟩ := hresults 0 sentOk.received (.head _)
  exact ⟨_, k, i, e, final, hk, hends, rfl, hcarried⟩

/-! ## Nothing is lost -/

/-- **Nothing is lost.** In every run of the two peers, once nothing is on its way any more and no
    request is in service, each request that was sent has been done with by the server's handler.
    If the last response about it does not tell to wait, then its future, if it still listens,
    finds just that response, as long as the client's response receiver works. -/
theorem all_answered (hlawful : RequestURI.Lawful URI) {ops : List (Op URI URIError)}
    (h : Run Step (start first size duration) ops s) (hsize : size < 2 ^ 32)
    (hlimits : s.WithinLimits) (hq : s.Quiet)
    (hidle : s.handler.handler.servicedRequest = none) :
    ∃ k : RequestHandler.Account URI,
      k.Right s.handler.handler s.handler.arrived s.handler.events ∧
      ∀ (i n : Nat), s.client.sent[i]? = some n →
        ∃ e final, s.Arrives n e ∧ k.Ends i e final ∧
          ∀ r stage, s.client.requests n = some (r, stage) → stage.listens = true →
            s.client.phase.handlesUpdates = true →
            final.statusCode ≠ .standard .«continue» →
            ∃ response, r.Receives s.client.channels response ∧ final.Carried response := by
  have hs := Linked.of_run hsize h
  have htold := Told.of_run hlawful hsize h hlimits
  obtain ⟨k, hk⟩ := hs.accountable
  refine ⟨k, hk, fun i n hn => ?_⟩
  have harrives := hq.arrives hs hlawful hlimits
  obtain ⟨hi, rfl⟩ := List.getElem?_eq_some_iff.mp hn
  have hi' : i < s.handler.arrived.length := harrives.length_eq ▸ hi
  obtain ⟨final, hends, hevent, hcarries⟩ := hk.ends (i := i) (e := s.handler.arrived[i]) (by
    rw [hq.done hidle hk, List.getElem?_eq_getElem hi'])
  refine ⟨_, final, harrives.get hi hi', hends, fun r stage hr hstage hphase hfinal => ?_⟩
  have hresponse : final ∈ s.responses := List.mem_filterMap.mpr ⟨_, hevent, rfl⟩
  obtain ⟨j, hj, rfl⟩ := List.getElem_of_mem hresponse
  have hreturns := hq.returns hs hlawful hlimits
  have hj' : j < s.heard.length := hreturns.length_eq ▸ hj
  exact htold.found hs hlawful hlimits hk hn (harrives.get hi hi') hends hcarries
    (List.getElem_mem hj') (hreturns.get hj hj') hfinal hr hstage hphase

/-- The future has not looked for the response yet, and is going to find it. -/
theorem all_answered_ok : ∃ (s : Network AsteriskURI Unit) (r : SendRequest) (response : Response),
    s.client.requests 0 = some (r, .waiting) ∧ r.Receives s.client.channels response := by
  obtain ⟨ops, w, d, server, hrun, hlimits, hquiet⟩ := run_answered
  obtain ⟨k, hk, hall⟩ := all_answered Codec.lawful_asterisk (hrun.mono fun _ _ _ h => h.1)
    (by decide) hlimits hquiet rfl
  obtain ⟨e, final, -, hends, hfound⟩ := hall 0 0 rfl
  -- The last response is the only one.
  obtain ⟨final', hends', hmem, -⟩ := hk.ends hends.done
  have hfinal : final.statusCode = .standard .ok := by
    rw [hends.unique hends']
    rcases List.mem_cons.mp hmem with heq | hmem
    · cases heq
    · cases List.mem_singleton.mp hmem
      rfl
  obtain ⟨response, hreceives, -⟩ := hfound _ .waiting rfl rfl rfl (hfinal ▸ nofun)
  exact ⟨_, _, response, rfl, hreceives⟩

/-! ## The server of the library -/

variable {uris : ServiceURI URI} {service : Request URI → Response}

/-- **The server answers what was sent.** In every run of the two peers with the service of the
    library, each response that a call of the client returns carries what the server makes of the
    request of that call, and if it is a success, then the client reads the supported methods
    in it. -/
theorem server_answers [LinkedHashSetOps] (hlawful : RequestURI.Lawful URI)
    (hops : LinkedHashSetOps.Lawful)
    (hservice : ∀ request, ConnectionService.call uris request = .ok (service request))
    {ops : List (Op URI URIError)}
    (h : Run (PromptStep service) (start first size duration) ops s) (hsize : size < 2 ^ 32)
    (hlimits : s.WithinLimits) :
    ∀ n response, (n, .ok response) ∈ s.client.results →
      ∃ request answer, s.requests[n]? = some request ∧
        ConnectionService.answer uris request = .ok answer ∧ answer.Carried response ∧
        (response.statusCode = .standard .ok → ∃ methods : Public,
          response.headers.typedTryGet Public = .ok (some methods) ∧
            methods.methods.elements = SUPPORTED_METHODS) := by
  have hs := Linked.of_run hsize (h.mono fun _ _ _ hstep => hstep.1)
  obtain ⟨calls, hclient⟩ := hs.client
  have hmatches := Exchange.matches_run hclient
  intro n response hresult
  obtain ⟨hheard, -⟩ := hs.results.results n response hresult
  obtain ⟨r, stage, hr, -⟩ := hmatches.resolved.ended _ hresult
  -- The response is the one that the handler enqueued under the number of this call.
  obtain ⟨j, hj⟩ := List.getElem?_of_mem hheard
  obtain ⟨enqueued, henqueued, hreturns⟩ :=
    (hs.hears hlawful hlimits.down (hs.replies hlawful hlimits)).source hj
  obtain ⟨c, hc, hget⟩ := hmatches.resolved.results n response hresult
  obtain ⟨request, answer, hrequest, hanswer, hcarried⟩ :=
    hs.served (prompt_of_run h) hlawful hlimits hservice (List.mem_of_getElem? henqueued)
      (hmatches.numbered.requests n _ hr) ⟨c, hc, hreturns.number.symm.trans hget⟩
  have hall := hcarried.trans hreturns.carried
  refine ⟨request, answer, hrequest, hanswer, hall, fun hok => ?_⟩
  refine ⟨ConnectionService.supported, ?_, ConnectionService.supported_elements hops⟩
  rw [HeaderMap.typedTryGet_of_own hall.headers (h := .public) rfl rfl]
  exact ConnectionService.answer_public hops hanswer (hall.statusCode ▸ hok)

/-- URIs that need no normalization. -/
def asteriskURIs : ServiceURI AsteriskURI := ⟨.ok, fun _ => true⟩

theorem call_asterisk (request : Request AsteriskURI) :
    @ConnectionService.call .keeping AsteriskURI asteriskURIs request =
      .ok (asteriskService request) :=
  @ConnectionService.call_eq .keeping AsteriskURI asteriskURIs request _ rfl

/-- The client reads the supported methods in the response to its request. -/
theorem server_answers_options : ∃ (ops : List (Op AsteriskURI Unit)) (s : Network AsteriskURI Unit)
    (methods : Public), Run (PromptStep asteriskService) (start seven 4 none) ops s ∧
      s.client.results = [(0, .ok sentOk.received)] ∧
      @HeaderMap.typedTryGet Public _ (@instTypedHeaderPublicMethodError .keeping)
        sentOk.received.headers = .ok (some methods) ∧
      methods.methods.elements = SUPPORTED_METHODS := by
  let _ : LinkedHashSetOps := .keeping
  obtain ⟨ops, w, d, server, hrun, hlimits, -⟩ := run_answered
  have hreturned := hrun.snoc ⟨.client rfl (.poll (n := 0) rfl), nofun⟩
  obtain ⟨request, answer, -, -, -, hmethods⟩ := server_answers Codec.lawful_asterisk
    LinkedHashSetOps.keeping_lawful call_asterisk hreturned (by decide)
    ⟨hlimits.up, hlimits.down, hlimits.few⟩ 0 sentOk.received (.head _)
  obtain ⟨methods, hread, helements⟩ := hmethods rfl
  exact ⟨_, _, methods, hreturned, rfl, hread, helements⟩

/-- **The answer is there**: once nothing is on its way, a future that listens finds what the server
    made of its request. -/
theorem Quiet.answered [LinkedHashSetOps] (hq : s.Quiet) (hlawful : RequestURI.Lawful URI)
    (hservice : ∀ request, ConnectionService.call uris request = .ok (service request))
    {ops : List (Op URI URIError)}
    (h : Run (PromptStep service) (start first size duration) ops s) (hsize : size < 2 ^ 32)
    (hlimits : s.WithinLimits) {n : Nat} (hn : n ∈ s.client.sent) {r : SendRequest} {stage : Stage}
    (hr : s.client.requests n = some (r, stage)) (hstage : stage.listens = true)
    (hphase : s.client.phase.handlesUpdates = true) :
    ∃ request answer response, s.requests[n]? = some request ∧
      ConnectionService.answer uris request = .ok answer ∧
      r.Receives s.client.channels response ∧ answer.Carried response := by
  have hrun := h.mono fun _ _ _ hstep => hstep.1
  have hs := Linked.of_run hsize hrun
  have hprompt := prompt_of_run h
  obtain ⟨k, hk⟩ := hs.accountable
  obtain ⟨i, hi⟩ := List.getElem?_of_mem hn
  have harrives := hq.arrives hs hlawful hlimits
  obtain ⟨hlt, rfl⟩ := List.getElem?_eq_some_iff.mp hi
  have hlt' : i < s.handler.arrived.length := harrives.length_eq ▸ hlt
  have harrived := harrives.get hlt hlt'
  obtain ⟨final, hends, hevent, hcarries⟩ := hk.ends (i := i) (e := s.handler.arrived[i]) (by
    rw [hq.done hprompt.idle hk, List.getElem?_eq_getElem hlt'])
  have hresponse : final ∈ s.responses := List.mem_filterMap.mpr ⟨_, hevent, rfl⟩
  obtain ⟨request, answer, hrequest, hanswer, hcarried⟩ :=
    hs.served hprompt hlawful hlimits hservice hresponse hn ⟨_, harrived.number, hcarries⟩
  have hfinal := hcarried.statusCode ▸ ConnectionService.answer_final hanswer
  obtain ⟨j, hj, rfl⟩ := List.getElem_of_mem hresponse
  have hreturns := hq.returns hs hlawful hlimits
  have hj' : j < s.heard.length := hreturns.length_eq ▸ hj
  obtain ⟨response, hreceives, hfound⟩ := (Told.of_run hlawful hsize hrun hlimits).found hs hlawful
    hlimits hk hi harrived hends hcarries (List.getElem_mem hj') (hreturns.get hj hj') hfinal hr
    hstage hphase
  exact ⟨request, answer, response, hrequest, hanswer, hreceives, hcarried.trans hfound⟩

/-- **The server leaves nobody waiting.** In every run of the two peers with the service of the
    library, once nothing is on its way any more, the future of each request that was sent, if it
    still listens, finds the answer of the server to that request, as long as the client's
    response receiver works. -/
theorem server_settles [LinkedHashSetOps] (hlawful : RequestURI.Lawful URI)
    (hservice : ∀ request, ConnectionService.call uris request = .ok (service request))
    {ops : List (Op URI URIError)}
    (h : Run (PromptStep service) (start first size duration) ops s) (hsize : size < 2 ^ 32)
    (hlimits : s.WithinLimits) (hq : s.Quiet) :
    ∀ n ∈ s.client.sent, ∀ r stage, s.client.requests n = some (r, stage) →
      stage.listens = true → s.client.phase.handlesUpdates = true →
      ∃ request answer response, s.requests[n]? = some request ∧
        ConnectionService.answer uris request = .ok answer ∧
        r.Receives s.client.channels response ∧ answer.Carried response := by
  intro n hn r stage hr hstage hphase
  exact hq.answered hlawful hservice h hsize hlimits hn hr hstage hphase

/-- The future has not looked for the response yet, and is going to find that of the server. -/
theorem server_settles_options : ∃ (s : Network AsteriskURI Unit) (r : SendRequest)
    (answer response : Response), s.client.requests 0 = some (r, .waiting) ∧
      @ConnectionService.answer .keeping AsteriskURI Unit _ asteriskURIs options = .ok answer ∧
      r.Receives s.client.channels response ∧ answer.Carried response := by
  let _ : LinkedHashSetOps := .keeping
  obtain ⟨ops, w, d, server, hrun, hlimits, hquiet⟩ := run_answered
  obtain ⟨request, answer, response, hrequest, hanswer, hreceives, hcarried⟩ :=
    server_settles Codec.lawful_asterisk call_asterisk hrun (by decide) hlimits hquiet 0 (.head _) _
      .waiting rfl rfl rfl
  cases hrequest
  exact ⟨_, _, answer, response, rfl, hanswer, hreceives, hcarried⟩

/-- What waits at the server's sender can be sent, if the message that it keeps can. -/
theorem within_of_run [LinkedHashSetOps] (hlawful : RequestURI.Lawful URI)
    (hops : LinkedHashSetOps.Lawful)
    (hservice : ∀ request, ConnectionService.call uris request = .ok (service request))
    {ops : List (Op URI URIError)}
    (h : Run (PromptStep service) (start first size duration) ops s) (hsize : size < 2 ^ 32)
    (hlimits : s.WithinLimits) (hgoes : s.serverSender.GoesOn) {date : HeaderValue}
    (hdate : date.IsShort) (hkept : ∀ m ∈ s.serverSender.sender.bufferedMessage, m.Sendable) :
    s.serverSender.Within date := by
  have hs := Linked.of_run hsize (h.mono fun _ _ _ hstep => hstep.1)
  obtain ⟨pushes, hrun⟩ := hs.serverSender
  obtain ⟨taken, hpushed, -⟩ := (Delivery.account_of_run hrun).kept hgoes.1 hgoes.2
  refine ⟨hkept, fun m hm => ?_⟩
  have hmem : m ∈ s.serverSender.pushed := hpushed ▸ List.mem_append_right _ hm
  rw [hs.answered (hs.replies hlawful hlimits)] at hmem
  obtain ⟨response, hresponse, rfl⟩ := List.mem_map.mp hmem
  obtain ⟨event, hevent, hsome⟩ := List.mem_filterMap.mp hresponse
  cases event with
  | called => cases hsome
  | fired => cases hsome
  | enqueued =>
    cases hsome
    obtain ⟨i, e, -, rfl⟩ := (prompt_of_run h).enqueued hevent
    exact ConnectionService.sendable_reply hops hservice hdate e.2 e.1

/-- **There is no dead end.** From any state of any run of the two peers with the service of the
    library, as long as both are up and what waits is within the limits, what the peers and the
    network do by themselves can lead to a state in which nothing is on its way any more, and the
    future of each request that was sent finds the answer of the server, if it listens. -/
theorem peers_settle [LinkedHashSetOps] (hlawful : RequestURI.Lawful URI)
    (hops : LinkedHashSetOps.Lawful)
    (hservice : ∀ request, ConnectionService.call uris request = .ok (service request))
    {ops : List (Op URI URIError)}
    (h : Run (PromptStep service) (start first size duration) ops s) (hsize : size < 2 ^ 32)
    (hroom : 0 < size) (hup : s.Up) (hlimits : s.WithinLimits) {date : HeaderValue}
    (hdate : date.IsShort) (hclient : s.clientSender.Within date)
    (hkept : ∀ m ∈ s.serverSender.sender.bufferedMessage, m.Sendable) :
    ∃ ops' s', Run (PromptStep service) s ops' s' ∧ SameFutures s s' ∧ s'.Quiet ∧
      ∀ n ∈ s.client.sent, ∀ r stage, s.client.requests n = some (r, stage) →
        stage.listens = true →
        ∃ request answer response, s.requests[n]? = some request ∧
          ConnectionService.answer uris request = .ok answer ∧
          r.Receives s'.client.channels response ∧ answer.Carried response := by
  let p : Peers URI := ⟨first, size, duration, service, date⟩
  have hp : p.Fit :=
    ⟨hlawful, hroom, hsize, fun request cseq =>
      ConnectionService.sendable_reply hops hservice hdate request cseq⟩
  have hs : Going p s := ⟨⟨ops, h⟩, hup, hlimits, hclient,
    within_of_run hlawful hops hservice h hsize hlimits hup.serverSender hdate hkept⟩
  obtain ⟨ops', s', hrun, hsame, hs', hq⟩ := hs.settles hp
  refine ⟨ops', s', hrun, hsame, hq, fun n hn r stage hr hstage => ?_⟩
  rw [← hsame.requests]
  exact hq.answered hlawful hservice (h.append hrun) hsize hs'.limits (hsame.sent ▸ hn)
    (hsame.futures ▸ hr) hstage (Phase.goesOn_handlesUpdates hs'.up.phase)

theorem isShort_date : date.IsShort := ⟨by decide +kernel, by decide +kernel⟩

/-- From where the request has only been sent the response is going to be found. -/
theorem peers_settle_sent : ∃ (ops : List (Op AsteriskURI Unit)) (s s' : Network AsteriskURI Unit)
    (r : SendRequest) (answer response : Response), Run (PromptStep asteriskService) s ops s' ∧
      s.handler.arrived = [] ∧ s.client.requests 0 = some (r, .waiting) ∧ s'.Quiet ∧
      @ConnectionService.answer .keeping AsteriskURI Unit _ asteriskURIs options = .ok answer ∧
      r.Receives s'.client.channels response ∧ answer.Carried response := by
  let _ : LinkedHashSetOps := .keeping
  obtain ⟨w, hw, hwritten, -⟩ :=
    @Wire.arrives_written AsteriskURI Unit _ Codec.lawful_asterisk _ sendable_sentOptions
  obtain ⟨ops, hrun⟩ := run_sent hw
  have hup : (sentNetwork w).Up :=
    ⟨rfl, rfl, rfl, ⟨nofun, nofun⟩, ⟨rfl, rfl⟩, rfl, Nat.succ_pos 0, nofun, nofun⟩
  obtain ⟨ops', s', hrest, -, hquiet, hfound⟩ := peers_settle Codec.lawful_asterisk
    LinkedHashSetOps.keeping_lawful call_asterisk hrun (by decide) (by decide) hup
    ⟨hwritten ▸ sendable_sentOptions, nofun, Nat.one_lt_pow (by decide) (by decide)⟩ isShort_date
    ⟨nofun, nofun⟩ nofun
  obtain ⟨request, answer, response, hrequest, hanswer, hreceives, hcarried⟩ :=
    hfound 0 (.head _) _ .waiting rfl rfl
  cases hrequest
  exact ⟨_, _, s', _, answer, response, hrest, rfl, rfl, hquiet, hanswer, hreceives, hcarried⟩

end Network
end Rtsp
