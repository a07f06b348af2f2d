import Rtsp.Network.Past
import Rtsp.Network.Responses

/-!
# Nothing is lost on the way

A final response that the client has read was given to the future of its request
(`Told`). So when nothing is on its way any more (`Quiet`), every request sent has
got its final response from the server's handler, and whoever still listens for
one has it (`all_answered`).

`Quiet` is a condition on a state and says nothing of how it was come by. Most of its
clauses say that something is empty, but that is not enough: a receiver that does not
take requests in any more reads them and drops them, and then every channel is empty too
and the requests are lost. So the server must still take them in (`allowed`), and its
forwarding receiver must be there, with nothing held back (`forwarded`).

The requests in service are not part of it. A service may take its time, with nothing on
its way meanwhile; so `all_answered` asks for that separately.
-/

namespace Rtsp

open Lib

namespace RequestHandler

variable {URI URIError : Type} [RequestURI URI URIError] {k : Account URI}
  {r : RequestHandler URI} {arrived : List (CSeq × Request URI)} {events : List (Event URI)}

/-- Something is said last about a request. -/
theorem Served.exists_final {x : CSeq × Request URI} (h : Served x events) :
    ∃ final, events.getLast? = some (.enqueued final) := by
  cases h with
  | rejected _ => exact ⟨_, rfl⟩
  | responded response _ => exact ⟨_, List.getLast?_concat⟩

/-- Whatever is done with has a last response, which has been enqueued. -/
theorem Account.Right.ends (hk : k.Right r arrived events) {i : Nat} {e : CSeq × Request URI}
    (hi : k.done[i]? = some e) :
    ∃ final, k.Ends i e final ∧ .enqueued final ∈ events ∧ Carries final e.1 := by
  obtain ⟨hlt, rfl⟩ := List.getElem?_eq_some_iff.mp hi
  have hlt' : i < k.served.length := hk.done.length_eq ▸ hlt
  have hserved : Served k.done[i] k.served[i] := hk.done.get hlt hlt'
  obtain ⟨final, hlast⟩ := hserved.exists_final
  have hmem : .enqueued final ∈ k.served[i] := List.mem_of_getLast? hlast
  refine ⟨final, ⟨hi, _, List.getElem?_eq_getElem hlt', hserved, hlast⟩, ?_,
    hserved.carries hmem⟩
  rw [hk.events, List.append_assoc]
  exact List.mem_append_left _ (List.mem_flatten.mpr ⟨_, List.getElem_mem hlt', hmem⟩)

/-- There is one last response. -/
theorem Account.Ends.unique {i : Nat} {e e' : CSeq × Request URI} {final final' : Response}
    (h : k.Ends i e final) (h' : k.Ends i e' final') : final = final' := by
  obtain ⟨about, habout, -, hlast⟩ := h.served
  obtain ⟨about', habout', -, hlast'⟩ := h'.served
  cases habout.symm.trans habout'
  cases hlast.symm.trans hlast'
  rfl

end RequestHandler

namespace Network

variable {URI URIError : Type} {s s' : Network URI URIError}

/-- Whoever a final response was for is done with. -/
def Told (s : Network URI URIError) : Prop :=
  ∀ response ∈ s.heard, response.statusCode ≠ .standard .«continue» →
    ∃ n ∈ s.client.sent, s.client.IsFor n response ∧ s.client.Past n

/-- What the client does, but for reading. -/
theorem Told.client (hs : s.Told) (hclient : s'.client = s.client ∨
    ∃ op, Exchange.Step s.client op s'.client) (hheard : s'.heard = s.heard) : s'.Told := by
  intro response hmem hfinal
  obtain ⟨n, hn, hfor, hpast⟩ := hs response (hheard ▸ hmem) hfinal
  rcases hclient with hsame | ⟨op, hstep⟩
  · rw [hsame]
    exact ⟨n, hn, hfor, hpast⟩
  · exact ⟨n, (Exchange.calls_of_step hstep).2.subset hn, hfor.of_step hstep, hpast.step hstep⟩

variable [RequestURI URI URIError] {first : CSeq} {size : Nat} {duration : Option Nat}
  {op : Op URI URIError}

/-! ## What a step does to the client -/

theorem client_of_step (h : Step s op s') :
    s'.client = s.client ∨ ∃ op, Exchange.Step s.client op s'.client := by
  cases h with
  | client _ h => exact .inr ⟨_, h⟩
  | call _ _ h => exact .inr ⟨_, h⟩
  | queueMessage _ _ h _ => exact .inr ⟨_, h⟩
  | write _ _ _ h => exact .inr ⟨_, h⟩
  | closeSender h _ => exact .inr ⟨_, h⟩
  | read _ h => exact .inr ⟨_, h⟩
  | _ => exact .inl rfl

/-- What was within the limits. -/
theorem WithinLimits.of_step (h : Step s op s') (hs' : s'.WithinLimits) : s.WithinLimits where
  up m hm := by
    refine hs'.up m ?_
    cases h with
    | write => exact List.mem_append_left _ hm
    | uplink _ h => exact h.arrived.1 ▸ hm
    | _ => exact hm
  down m hm := by
    refine hs'.down m ?_
    cases h with
    | serverSender => exact List.mem_append_left _ hm
    | downlink _ h => exact h.arrived.1 ▸ hm
    | _ => exact hm
  few := by
    refine Nat.lt_of_le_of_lt ?_ hs'.few
    rcases client_of_step h with hsame | ⟨_, hstep⟩
    · rw [hsame]
    · exact (Exchange.calls_of_step hstep).2.length_le

namespace Linked

/-- The handler has no more requests than the sink has accepted. -/
theorem arrived_le (hs : Linked first size duration s) (hlawful : RequestURI.Lawful URI)
    (hlimits : s.WithinLimits) : s.handler.arrived.length ≤ s.client.written := by
  obtain ⟨ops, hwire⟩ := hs.uplink
  have hcounted := hs.counted hlawful hlimits.up hlimits.few
  have hsequence := hs.server.sequence hcounted
  have hforwarded := (hsequence.forwarded hcounted hs.server.books).length_le
  have hdecoded := (Wire.decoded_of_run hlawful hwire hlimits.up).2.1.length_le
  have hread := hs.read.length_le
  have hrequests : s.server.2.requests.length = s.server.2.messages.length := by
    rw [hs.messages hlawful hlimits.up, List.length_map]
  rw [hsequence.accepted, List.length_mapIdx] at hforwarded
  rw [List.length_map, hs.uploaded] at hdecoded
  rw [hs.arrived, hs.written]
  exact hforwarded.trans (hsequence.handled.length_le.trans
    (hrequests ▸ hread.trans hdecoded))

/-- A final response is for a request that was written. -/
theorem source (hs : Linked first size duration s) (hlawful : RequestURI.Lawful URI)
    (hlimits : s.WithinLimits) {response : Response} (hheard : response ∈ s.heard)
    (hfinal : response.statusCode ≠ .standard .«continue») :
    ∃ n ∈ s.client.sent.take s.client.written, s.client.IsFor n response := by
  obtain ⟨k, hk⟩ := hs.accountable
  obtain ⟨i, e, -, harrived, -, -, hnumber⟩ := hs.origin hlawful hlimits hk hheard hfinal
  obtain ⟨n, hn, harrives⟩ := (hs.follows hlawful hlimits.up hlimits.few).source harrived
  have hlt := Nat.lt_of_lt_of_le (List.getElem?_eq_some_iff.mp harrived).1
    (hs.arrived_le hlawful hlimits)
  refine ⟨n, List.mem_of_getElem? (i := i) ?_, e.1, harrives.number, hnumber⟩
  rw [List.getElem?_take_of_lt hlt, hn]

end Linked

/-! ## What has been read -/

/-- **Every step tells whoever it is for.** -/
theorem Told.step (hs : s.Told) (hlinked : Linked first size duration s)
    (hlinked' : Linked first size duration s') (hlawful : RequestURI.Lawful URI)
    (hlimits : s'.WithinLimits) (h : Step s op s') : s'.Told := by
  have hclient := client_of_step h
  cases h with
  | @read response c hnext hstep =>
    intro response' hmem hfinal
    rcases List.mem_append.mp hmem with hmem | hmem
    · obtain ⟨n, hn, hfor, hpast⟩ := hs response' hmem hfinal
      exact ⟨n, (Exchange.calls_of_step hstep).2.subset hn, hfor.of_step hstep,
        hpast.step hstep⟩
    · cases List.mem_singleton.mp hmem
      obtain ⟨n, hn, hfor⟩ := hlinked'.source hlawful hlimits
        (List.mem_append_right _ (.head _)) hfinal
      obtain ⟨ops, hrun⟩ := hlinked.client
      have hmatches := Exchange.matches_run hrun
      refine ⟨n, List.mem_of_mem_take hn, hfor, ?_⟩
      cases hstep with
      | respond _ hreading =>
        exact Exchange.Past.respond hmatches.ledger hmatches.handled hreading hn hfor hfinal
  | _ => exact hs.client hclient rfl

theorem Told.of_run {ops : List (Op URI URIError)} (hlawful : RequestURI.Lawful URI)
    (hsize : size < 2 ^ 32) (h : Run Step (start first size duration) ops s)
    (hlimits : s.WithinLimits) : s.Told := by
  have hboth : Linked first size duration s ∧ (s.WithinLimits → s.Told) := by
    refine h.invariant (I := fun s => Linked first size duration s ∧ (s.WithinLimits → s.Told))
      ⟨linked_start first size duration, fun _ => nofun⟩ ?_
    rintro s₁ op s₂ ⟨hlinked, htold⟩ hstep
    have hlinked' := hlinked.step hsize hstep
    exact ⟨hlinked', fun hlimits =>
      (htold (hlimits.of_step hstep)).step hlinked hlinked' hlawful hlimits hstep⟩
  exact hboth.2 hlimits

/-! ## When nothing is on its way -/

/-- **Nothing is on its way**: all channels and buffers between the two peers are empty, and the
    server still takes requests in. -/
structure Quiet (s : Network URI URIError) : Prop where
  pushed : s.clientSender.accepted.length = s.clientSender.pushed.length
  uploaded : s.uplink.chunks.flatten = s.uplink.bytes
  read : s.server.2.messages = s.uplink.decoded
  allowed : s.server.1.requestsAllowed = true
  forwarded : ∃ f, s.server.1.forwardingReceiver = some f ∧ contents f.bufferedRequests = []
  incoming : s.handler.handler.incoming = []
  enqueued : s.serverSender.accepted.length = s.serverSender.pushed.length
  downloaded : s.downlink.chunks.flatten = s.downlink.bytes
  heard : s.heard.map .response = s.downlink.decoded

namespace Quiet

/-- Everything that was sent has arrived. -/
theorem arrives (hq : s.Quiet) (hs : Linked first size duration s)
    (hlawful : RequestURI.Lawful URI) (hlimits : s.WithinLimits) :
    List.Forall₂ s.Arrives s.client.sent s.handler.arrived := by
  obtain ⟨ops, hwire⟩ := hs.uplink
  have hcounted := hs.counted hlawful hlimits.up hlimits.few
  have hsequence := hs.server.sequence hcounted
  refine (hs.follows hlawful hlimits.up hlimits.few).all (Nat.le_of_eq ?_)
  have hdecoded := (Wire.decoded_of_run hlawful hwire hlimits.up).2.2 hq.uploaded
  have hrequests : s.server.2.requests.length = s.server.2.messages.length := by
    rw [hs.messages hlawful hlimits.up, List.length_map]
  obtain ⟨f, hf, hempty⟩ := hq.forwarded
  have haccount : s.server.2.accepted.Perm (s.server.2.forwarded ++ contents f.bufferedRequests) :=
    hs.server.books.account f hf
  calc s.client.sent.length
      = s.clientSender.pushed.length := hs.queued.length_eq
    _ = s.uplink.written.length := by rw [← hq.pushed, hs.uploaded]
    _ = s.server.2.messages.length := by rw [hq.read, hdecoded, List.length_map]
    _ = s.server.2.handled.length := by rw [hsequence.all hq.allowed, hrequests]
    _ = s.server.2.accepted.length := by rw [hsequence.accepted, List.length_mapIdx]
    _ = s.server.2.forwarded.length := by rw [haccount.length_eq, hempty, List.append_nil]
    _ = s.handler.arrived.length := by rw [hs.arrived]

/-- Everything that was enqueued has been read. -/
theorem returns (hq : s.Quiet) (hs : Linked first size duration s)
    (hlawful : RequestURI.Lawful URI) (hlimits : s.WithinLimits) :
    List.Forall₂ Returns s.responses s.heard := by
  obtain ⟨ops, hwire⟩ := hs.downlink
  have hreplies := hs.replies hlawful hlimits
  refine (hs.hears hlawful hlimits.down hreplies).all (Nat.le_of_eq ?_)
  have hdecoded := (Wire.decoded_of_run hlawful hwire hlimits.down).2.2 hq.downloaded
  calc s.responses.length
      = s.serverSender.pushed.length := by rw [hs.answered hreplies, List.length_map]
    _ = s.downlink.written.length := by rw [← hq.enqueued, hs.downloaded]
    _ = s.downlink.decoded.length := by rw [hdecoded, List.length_map]
    _ = s.heard.length := by rw [← hq.heard, List.length_map]

/-- The handler is done with all requests if none is in service. -/
theorem done (hq : s.Quiet) (hidle : s.handler.handler.servicedRequest = none)
    {k : RequestHandler.Account URI}
    (hk : k.Right s.handler.handler s.handler.arrived s.handler.events) :
    k.done = s.handler.arrived := by
  rw [hk.arrived, hk.serving_eq_none hidle, hq.incoming, Option.toList_none,
    List.append_nil, List.append_nil]

end Quiet

/-- A request has one place among those sent. -/
theorem Linked.place (hs : Linked first size duration s) (hlimits : s.WithinLimits) {n i j : Nat}
    (hi : s.client.sent[i]? = some n) (hj : s.client.sent[j]? = some n) : i = j := by
  obtain ⟨ops, hclient⟩ := hs.client
  have hnumbered := (Exchange.matches_run hclient).numbered
  have hissued : ∀ i : Nat, s.client.sent[i]? = some n → s.client.issued[i]? = some n := by
    intro i hi
    rw [Exchange.issued, List.getElem?_append_left (List.getElem?_eq_some_iff.mp hi).1, hi]
  have hlt : ∀ i : Nat, s.client.sent[i]? = some n → i < 10 ^ 9 := fun i hi =>
    Nat.lt_trans (List.getElem?_eq_some_iff.mp hi).1 hlimits.few
  refine first.ahead_injective (hlt i hi) (hlt j hj) (Option.some.inj ?_)
  exact (hnumbered.issued i n (hissued i hi)).symm.trans (hnumbered.issued j n (hissued j hj))

/-- **What has been read is found.** A future that still listens finds the response that the
    handler enqueued last, if the client has read it. -/
theorem Told.found (hs : s.Told) (hlinked : Linked first size duration s)
    (hlawful : RequestURI.Lawful URI) (hlimits : s.WithinLimits)
    {k : RequestHandler.Account URI}
    (hk : k.Right s.handler.handler s.handler.arrived s.handler.events) {i n : Nat}
    {e : CSeq × Request URI} {final heard : Response} (hn : s.client.sent[i]? = some n)
    (harrives : s.Arrives n e) (hends : k.Ends i e final)
    (hcarries : RequestHandler.Carries final e.1) (hheard : heard ∈ s.heard)
    (hreturns : Returns final heard) (hfinal : final.statusCode ≠ .standard .«continue»)
    {r : SendRequest} {stage : Stage} (hr : s.client.requests n = some (r, stage))
    (hstage : stage.listens = true) (hphase : s.client.phase.handlesUpdates = true) :
    ∃ response, r.Receives s.client.channels response ∧ final.Carried response := by
  obtain ⟨calls, hclient⟩ := hlinked.client
  have hmatches := Exchange.matches_run hclient
  -- It was for this request, which is done with.
  obtain ⟨m, hm, ⟨c, hc, hget⟩, hpast⟩ := hs heard hheard (hreturns.carried.statusCode ▸ hfinal)
  have hnumber : c = e.1 :=
    Option.some.inj (hget.symm.trans (hreturns.number.trans hcarries))
  have hsame : m = n := hmatches.numbered.unique hlimits.few (List.mem_append_left _ hm)
    (List.mem_append_left _ (List.mem_of_getElem? hn))
    (hc.trans (hnumber ▸ harrives.number.symm))
  subst hsame
  obtain ⟨response, rx, hreceives, hslot, hrequest⟩ :=
    hpast.receives hmatches hlimits.few hphase hr hstage
  -- What is in its channel has been read, and so is the answer to it.
  obtain ⟨hread, hreadFinal⟩ := hlinked.results.slots rx response hslot
  obtain ⟨j, e', final', hj, -, hends', hcarried⟩ := hlinked.answer hlawful hlimits hk hread
    hreadFinal hm (hrequest ▸ hmatches.resolved.replies rx response hslot)
  obtain rfl := hlinked.place hlimits hn hj
  exact ⟨response, hreceives, hends.unique hends' ▸ hcarried⟩

end Network
end Rtsp
