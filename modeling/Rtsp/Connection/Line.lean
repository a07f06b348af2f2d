import Mathlib.Logic.Relation
import Rtsp.Connection.Forwarding
import Rtsp.Connection.Window

/-!
# The line of requests to the handler

What a receiver does to its forwarding receiver, without the rest: requests are
handled while they are allowed, polls forward what is due, and shutting the
request receiver down drops the forwarding receiver unless a request is due. The
moves come in any order.

The line keeps the books on every request taken in (`Books`): it has been
forwarded, in order, or it is buffered; and the line is dropped only once
nothing is due.

It is for the sake of the proofs that the line is looked at by itself. A receiver does a
great deal that has nothing to do with requests, and its polls stop at many points; but
to the line it does one of three things, and what has to be shown about order needs no
more. The receiver's polls are then shown to be moves of the line and nothing else
(`Connection.InOrder`).

The moves have the handler listening, since a handler that is gone makes the receiver
drop the line with what is in it, and then nothing holds that could be said of order.

`DueRun` is there for the end. Requests that are due when the receiver is shut down are
still forwarded, however long it takes the handler to make room for them; those that are
not due are dropped, as the gap in front of them will not be filled any more.
-/

namespace Rtsp

open Lib

namespace CSeq

/-- The number `i` places on. -/
def ahead (c : CSeq) (i : Nat) : CSeq :=
  ⟨(c.val + i) % (MAX_CSEQ + 1), Nat.le_of_lt_succ (Nat.mod_lt _ (Nat.succ_pos _))⟩

@[simp] theorem ahead_zero (c : CSeq) : c.ahead 0 = c :=
  ext (Nat.mod_eq_of_lt (Nat.lt_succ_of_le c.le_max))

theorem ahead_ahead (c : CSeq) (i j : Nat) : (c.ahead i).ahead j = c.ahead (i + j) := by
  refine ext ?_
  show ((c.val + i) % (MAX_CSEQ + 1) + j) % (MAX_CSEQ + 1) = (c.val + (i + j)) % (MAX_CSEQ + 1)
  rw [Nat.mod_add_mod, Nat.add_assoc]

theorem wrappingIncrement_eq (c : CSeq) : c.wrappingIncrement = c.ahead 1 := rfl

/-- The `k` numbers from `c` on. -/
def consecutive (c : CSeq) (k : Nat) : List CSeq := (List.range k).map c.ahead

theorem consecutive_succ (c : CSeq) (k : Nat) :
    c.consecutive (k + 1) = c :: c.wrappingIncrement.consecutive k := by
  rw [consecutive, List.range_succ_eq_map, List.map_cons, ahead_zero, List.map_map]
  congr 1
  refine List.map_congr_left fun i _ => ?_
  rw [wrappingIncrement_eq, ahead_ahead, Nat.add_comm]
  rfl

theorem consecutive_add (c : CSeq) (j k : Nat) :
    c.consecutive (j + k) = c.consecutive j ++ (c.ahead j).consecutive k := by
  rw [consecutive, List.range_add, List.map_append, List.map_map]
  congr 1
  exact List.map_congr_left fun i _ => (ahead_ahead c j i).symm

end CSeq

namespace ForwardingReceiver

variable {URI : Type}

/-- The requests sent in one poll are those from the expected number on. -/
theorem Forwards.consecutive {f f' : ForwardingReceiver URI} {n n' : CSeq} {sent : Forwarded URI}
    (h : Forwards f n sent f' n') :
    sent.map (·.1) = n.consecutive sent.length ∧ n' = n.ahead sent.length := by
  induction h with
  | done => exact ⟨rfl, (CSeq.ahead_zero _).symm⟩
  | send _ _ ih =>
    obtain ⟨hsent, hnext⟩ := ih
    refine ⟨?_, ?_⟩
    · rw [List.map_cons, List.length_cons, CSeq.consecutive_succ, hsent]
    · rw [hnext, CSeq.wrappingIncrement_eq, CSeq.ahead_ahead, Nat.add_comm]
      rfl

/-- What was buffered is sent or still buffered. -/
theorem Forwards.perm {f f' : ForwardingReceiver URI} {n n' : CSeq} {sent : Forwarded URI}
    (h : Forwards f n sent f' n') :
    (contents f.bufferedRequests).Perm (sent ++ contents f'.bufferedRequests) := by
  induction h with
  | done => exact .refl _
  | send hlookup _ ih => exact (perm_cons_erase hlookup).trans (ih.cons _)

/-- What a poll leaves, once its sends are done and the handler still listens: the number
    is stored, no entry is lost, and it was ready only if nothing is due. -/
theorem Ends.kept {f f' : ForwardingReceiver URI} {n : CSeq} {r : Async Unit}
    (h : Ends f n (.ok r) f') : f'.incomingSequenceNumber = some n ∧
      (contents f'.bufferedRequests).Perm (contents f.bufferedRequests) ∧
      (∀ c, f'.bufferedRequests.lookup c = f.bufferedRequests.lookup c) ∧
      (r = .ready () → f'.bufferedRequests.lookup n = none) := by
  cases h with
  | ready hlookup => exact ⟨rfl, .refl _, fun _ => rfl, fun _ => hlookup⟩
  | notReady hlookup =>
    exact ⟨rfl, perm_insert_erase hlookup, lookup_insert_erase hlookup, nofun⟩

end ForwardingReceiver

/-- The forwarding receiver with what has passed through it. -/
structure Line (URI : Type) where
  allowed : Bool
  receiver : Option (ForwardingReceiver URI)
  handled : List (Request URI)
  accepted : Forwarded URI
  forwarded : Forwarded URI

namespace Line

variable {URI : Type}

def new (requestBufferSize : Nat) : Line URI := ⟨true, some (.new requestBufferSize), [], [], []⟩

/-- The moves of the line, as long as the handler listens. -/
inductive Step : Line URI → Line URI → Prop where
  | handle {l f} (request : Request URI) : l.allowed = true → l.receiver = some f →
      Step l
        { l with
          receiver := some (f.handleRequest request).2
          handled := l.handled ++ [request]
          accepted := l.accepted ++
            ForwardingReceiver.takenIn request (f.handleRequest request).1 }
  | forward {l f r} (answers : List SendAnswer) : l.receiver = some f →
      (f.poll answers).1 = .ok r →
      Step l
        { l with
          receiver := if l.allowed = false ∧ r = .ready () then none
            else some (f.poll answers).2.1
          forwarded := l.forwarded ++ (f.poll answers).2.2 }
  | shutdown {l} : Step l
      { l with allowed := false, receiver := l.receiver.filter (·.hasRequestsReady) }

theorem Step.forwarded {l l' : Line URI} (h : Step l l') :
    ∃ sent, l'.forwarded = l.forwarded ++ sent := by
  cases h with
  | handle => exact ⟨[], (List.append_nil _).symm⟩
  | forward => exact ⟨_, rfl⟩
  | shutdown => exact ⟨[], (List.append_nil _).symm⟩

/-- The `CSeq` of the first request handled that has one. -/
def firstCSeq (handled : List (Request URI)) : Option CSeq :=
  handled.findSome? fun request => request.headers.typedGet CSeq

theorem firstCSeq_append (handled : List (Request URI)) (request : Request URI) :
    firstCSeq (handled ++ [request]) =
      (firstCSeq handled).or (request.headers.typedGet CSeq) := by
  simp [firstCSeq, List.findSome?_append]

/-- The number that is due after so many requests. -/
def nextCSeq (l : Line URI) : Option CSeq :=
  (firstCSeq l.handled).map (·.ahead l.forwarded.length)

/-! ## The books -/

/-- Every request taken in is accounted for. -/
structure Books (l : Line URI) : Prop where
  /-- Requests are allowed only into a line that is there. -/
  present : l.allowed = true → l.receiver.isSome
  /-- No request is taken in before the first one with a number. -/
  first : firstCSeq l.handled = none → l.accepted = []
  /-- What is taken in was handled, and carries the number it is taken in under. -/
  genuine : ∀ e ∈ l.accepted, e.2 ∈ l.handled ∧ e.2.headers.typedGet CSeq = some e.1
  /-- The requests forwarded have the numbers from the first one on. -/
  numbers : ∀ c, firstCSeq l.handled = some c →
    l.forwarded.map (·.1) = c.consecutive l.forwarded.length
  /-- The number expected is the one after the last one forwarded. -/
  expected : ∀ f, l.receiver = some f → f.incomingSequenceNumber = l.nextCSeq
  /-- A request taken in has been forwarded or is buffered. -/
  account : ∀ f, l.receiver = some f →
    l.accepted.Perm (l.forwarded ++ contents f.bufferedRequests)
  /-- What was not forwarded before the line was dropped was not due. -/
  dropped : l.receiver = none → ∃ lost : Forwarded URI,
    l.accepted.Perm (l.forwarded ++ lost) ∧ ∀ e ∈ lost, some e.1 ≠ l.nextCSeq

theorem books_new (size : Nat) : Books (new size : Line URI) :=
  ⟨fun _ => rfl, fun _ => rfl, nofun, nofun, fun f hf => by cases hf; rfl,
    fun f hf => by cases hf; exact .refl _, nofun⟩

namespace Books

variable {l : Line URI} {f : ForwardingReceiver URI}

/-- Before the first request with a number there is nothing on the line. -/
theorem untouched (hl : Books l) (hf : l.receiver = some f) (h : firstCSeq l.handled = none) :
    l.forwarded = [] ∧ contents f.bufferedRequests = [] := by
  have haccount := hl.account f hf
  rw [hl.first h] at haccount
  exact List.append_eq_nil_iff.mp haccount.symm.eq_nil

/-- A request that is looked at fixes the number to start with, if there was none. -/
theorem expecting (hl : Books l) (hf : l.receiver = some f) {request : Request URI} {cseq : CSeq}
    (hcseq : request.headers.typedGet CSeq = some cseq) :
    (f.expecting cseq).incomingSequenceNumber =
      (firstCSeq (l.handled ++ [request])).map (·.ahead l.forwarded.length) := by
  rw [ForwardingReceiver.expecting, hl.expected f hf, nextCSeq, firstCSeq_append, hcseq]
  cases hfirst : firstCSeq l.handled with
  | some c => rfl
  | none =>
    rw [(hl.untouched hf hfirst).1]
    show some cseq = some (cseq.ahead 0)
    rw [CSeq.ahead_zero]

/-- The requests forwarded so far fit the number to start with. -/
theorem numbers_handle (hl : Books l) (hf : l.receiver = some f) (request : Request URI)
    {c : CSeq} (hc : firstCSeq (l.handled ++ [request]) = some c) :
    l.forwarded.map (·.1) = c.consecutive l.forwarded.length := by
  rw [firstCSeq_append] at hc
  cases hfirst : firstCSeq l.handled with
  | some c₀ =>
    rw [hfirst] at hc
    exact hl.numbers c (hfirst.trans hc)
  | none =>
    rw [(hl.untouched hf hfirst).1]
    rfl

/-- The books stay right when a request is turned away. -/
theorem refuse (hl : Books l) (hf : l.receiver = some f) {request : Request URI}
    {f' : ForwardingReceiver URI} (hbuffered : f'.bufferedRequests = f.bufferedRequests)
    (hfirst : firstCSeq (l.handled ++ [request]) = none → firstCSeq l.handled = none)
    (hexpected : f'.incomingSequenceNumber =
      (firstCSeq (l.handled ++ [request])).map (·.ahead l.forwarded.length)) :
    Books { l with receiver := some f', handled := l.handled ++ [request] } where
  present _ := rfl
  first h := hl.first (hfirst h)
  genuine e he := ⟨List.mem_append_left _ (hl.genuine e he).1, (hl.genuine e he).2⟩
  numbers _ := hl.numbers_handle hf request
  expected _ h := by cases h; exact hexpected
  account _ h := by
    cases h
    rw [hbuffered]
    exact hl.account f hf
  dropped := nofun

/-- The books stay right when a request is taken in. -/
theorem accept (hl : Books l) (hf : l.receiver = some f) {request : Request URI} {cseq : CSeq}
    (hcseq : request.headers.typedGet CSeq = some cseq)
    (hfree : f.bufferedRequests.lookup cseq = none) :
    Books { l with
      receiver := some { f.expecting cseq with
        bufferedRequests := f.bufferedRequests.insert cseq request }
      handled := l.handled ++ [request]
      accepted := l.accepted ++ [(cseq, request)] } where
  present _ := rfl
  first h := by
    rw [firstCSeq_append, hcseq] at h
    exact absurd h (by simp)
  genuine e he := by
    rcases List.mem_append.mp he with he | he
    · exact ⟨List.mem_append_left _ (hl.genuine e he).1, (hl.genuine e he).2⟩
    · obtain rfl := List.mem_singleton.mp he
      exact ⟨List.mem_append_right _ (.head _), hcseq⟩
  numbers _ := hl.numbers_handle hf request
  expected _ h := by cases h; exact hl.expecting hf hcseq
  account _ h := by
    cases h
    show (l.accepted ++ [(cseq, request)]).Perm
      (l.forwarded ++ contents (f.bufferedRequests.insert cseq request))
    rw [contents_insert hfree]
    exact (List.perm_append_singleton _ _).trans
      (((hl.account f hf).cons _).trans List.perm_middle.symm)
  dropped := nofun

theorem handle (hl : Books l) (hf : l.receiver = some f) (request : Request URI) :
    Books { l with
      receiver := some (f.handleRequest request).2
      handled := l.handled ++ [request]
      accepted := l.accepted ++
        ForwardingReceiver.takenIn request (f.handleRequest request).1 } := by
  generalize hresult : (f.handleRequest request).1 = result
  generalize hf' : (f.handleRequest request).2 = f'
  have hcases := f.handleRequest_cases request
  rw [hresult, hf'] at hcases
  cases hcases with
  | noCSeq hcseq =>
    rw [ForwardingReceiver.takenIn_error, List.append_nil]
    have hfirst : firstCSeq (l.handled ++ [request]) = firstCSeq l.handled := by
      rw [firstCSeq_append, hcseq, Option.or_none]
    exact hl.refuse hf rfl (fun h => hfirst ▸ h) (by rw [hfirst]; exact hl.expected f hf)
  | tooFar hcseq =>
    rw [ForwardingReceiver.takenIn_error, List.append_nil]
    exact hl.refuse hf rfl (by simp [firstCSeq_append, hcseq]) (hl.expecting hf hcseq)
  | occupied hcseq =>
    rw [ForwardingReceiver.takenIn_error, List.append_nil]
    exact hl.refuse hf rfl (by simp [firstCSeq_append, hcseq]) (hl.expecting hf hcseq)
  | accepted hcseq _ hfree =>
    rw [ForwardingReceiver.takenIn_ok hcseq]
    exact hl.accept hf hcseq hfree

/-- What a poll of the forwarding receiver leaves behind, in terms of the line. -/
theorem forwards (hl : Books l) (hf : l.receiver = some f) {answers : List SendAnswer}
    {r : Async Unit} (hr : (f.poll answers).1 = .ok r) {l' : Line URI}
    (hl' : l' = { l with forwarded := l.forwarded ++ (f.poll answers).2.2 }) :
    (∀ c, firstCSeq l'.handled = some c →
      l'.forwarded.map (·.1) = c.consecutive l'.forwarded.length) ∧
    (f.poll answers).2.1.incomingSequenceNumber = l'.nextCSeq ∧
    l'.accepted.Perm (l'.forwarded ++ contents (f.poll answers).2.1.bufferedRequests) ∧
    (r = .ready () → ∀ e ∈ contents (f.poll answers).2.1.bufferedRequests,
      some e.1 ≠ l'.nextCSeq) := by
  subst hl'
  rcases f.poll_cases answers with ⟨hnone, hpoll⟩ | ⟨n, f₁, n₁, hsome, hforwards, hends⟩
  · rw [hpoll]
    have hnext : l.nextCSeq = none := (hl.expected f hf).symm.trans hnone
    simp only [List.append_nil]
    refine ⟨hl.numbers, hl.expected f hf, hl.account f hf, fun _ e _ => ?_⟩
    show some e.1 ≠ l.nextCSeq
    simp [hnext]
  · rw [hr] at hends
    obtain ⟨hincoming, hsame, hlookup, hready⟩ := hends.kept
    obtain ⟨hsent, hn₁⟩ := hforwards.consecutive
    have hnext := (hl.expected f hf).symm.trans hsome
    obtain ⟨c, hc, hn⟩ := Option.map_eq_some_iff.mp hnext
    have hnext' : nextCSeq { l with forwarded := l.forwarded ++ (f.poll answers).2.2 } =
        some n₁ := by
      rw [nextCSeq, hc, hn₁, ← hn, CSeq.ahead_ahead, List.length_append]
      rfl
    refine ⟨?_, hincoming.trans hnext'.symm, ?_, ?_⟩
    · intro c' hc'
      obtain rfl : c = c' := Option.some.inj (hc.symm.trans hc')
      rw [List.map_append, hl.numbers c hc, hsent, ← hn, List.length_append,
        CSeq.consecutive_add]
    · rw [List.append_assoc]
      have hbuffered := hforwards.perm.trans (hsame.symm.append_left _)
      exact (hl.account f hf).trans (hbuffered.append_left _)
    · intro hr e he
      rw [hnext']
      rintro ⟨⟩
      have hnone := hready hr
      rw [mem_contents.mp he] at hnone
      cases hnone

/-- **Every move keeps the books.** -/
theorem step {l' : Line URI} (hl : Books l) (h : Step l l') : Books l' := by
  cases h with
  | handle request _ hf => exact hl.handle hf request
  | @forward f r answers hf hr =>
    obtain ⟨hnumbers, hexpected, haccount, hdue⟩ := hl.forwards hf hr rfl
    by_cases hdropped : l.allowed = false ∧ r = .ready ()
    · rw [if_pos hdropped]
      refine ⟨fun h => ?_, hl.first, hl.genuine, hnumbers, nofun, nofun,
        fun _ => ⟨_, haccount, hdue hdropped.2⟩⟩
      rw [hdropped.1] at h
      cases h
    · rw [if_neg hdropped]
      exact ⟨fun _ => rfl, hl.first, hl.genuine, hnumbers,
        fun _ h => by cases h; exact hexpected, fun _ h => by cases h; exact haccount, nofun⟩
  | shutdown =>
    refine ⟨nofun, hl.first, hl.genuine, hl.numbers,
      fun f hf => hl.expected f (Option.filter_eq_some_iff.mp hf).1,
      fun f hf => hl.account f (Option.filter_eq_some_iff.mp hf).1, fun hnone => ?_⟩
    · cases hf : l.receiver with
      | none => exact hl.dropped hf
      | some f =>
        refine ⟨contents f.bufferedRequests, hl.account f hf, fun e he hnext => ?_⟩
        have hincoming : f.incomingSequenceNumber = some e.1 := (hl.expected f hf).trans hnext.symm
        have hready : f.hasRequestsReady = true := by
          rw [ForwardingReceiver.hasRequestsReady, hincoming]
          simp [mem_contents.mp he]
        have hkept : l.receiver.filter (·.hasRequestsReady) = some f :=
          Option.filter_eq_some_iff.mpr ⟨hf, hready⟩
        rw [show l.receiver.filter (·.hasRequestsReady) = none from hnone] at hkept
        cases hkept

end Books

/-- **The books are right after every run of moves.** -/
theorem books_run {size : Nat} {l : Line URI} (h : Relation.ReflTransGen Step (new size) l) :
    Books l := by
  induction h with
  | refl => exact books_new size
  | tail _ hstep ih => exact ih.step hstep

/-! ## What is due -/

/-- A run of requests is due: they are buffered under the numbers from `n` on. -/
structure DueFrom (f : ForwardingReceiver URI) (n : CSeq) (run : Forwarded URI) : Prop where
  numbers : run.map (·.1) = n.consecutive run.length
  buffered : ∀ e ∈ run, f.bufferedRequests.lookup e.1 = some e.2
  nodup : run.Nodup

/-- A run of requests is due from the number that is expected next. -/
def DueRun (l : Line URI) (run : Forwarded URI) : Prop :=
  ∃ f n, l.receiver = some f ∧ f.incomingSequenceNumber = some n ∧ DueFrom f n run

namespace DueFrom

variable {f : ForwardingReceiver URI} {n : CSeq} {run : Forwarded URI}

/-- The first request of the run is the one that is buffered under the number. -/
theorem head {e : CSeq × Request URI} (h : DueFrom f n (e :: run)) :
    e.1 = n ∧ f.bufferedRequests.lookup n = some e.2 := by
  have hnumbers := h.numbers
  rw [List.map_cons, List.length_cons, CSeq.consecutive_succ] at hnumbers
  have he : e.1 = n := (List.cons.inj hnumbers).1
  exact ⟨he, he ▸ h.buffered e (.head _)⟩

/-- Once the first request is taken out, the others are due. -/
theorem tail {e : CSeq × Request URI} (h : DueFrom f n (e :: run)) :
    DueFrom (f.remove n) n.wrappingIncrement run := by
  have hnumbers := h.numbers
  rw [List.map_cons, List.length_cons, CSeq.consecutive_succ] at hnumbers
  obtain ⟨hnot, hnodup⟩ := List.nodup_cons.mp h.nodup
  refine ⟨(List.cons.inj hnumbers).2, fun e' he' => ?_, hnodup⟩
  have hbuffered := h.buffered e' (.tail _ he')
  have hne : e'.1 ≠ n := by
    intro heq
    -- Two requests of the run under one number would be the same one.
    have hsame := h.head.2.symm.trans (heq ▸ hbuffered)
    have : e = e' := Prod.ext (h.head.1.trans heq.symm) (Option.some.inj hsame)
    exact hnot (this ▸ he')
  exact (AList.lookup_erase_ne hne).trans hbuffered

/-- **The sends of a poll follow the run**: they send all of it, or a first part, and then
    the rest is due. -/
theorem forwards {sent : Forwarded URI} {f' : ForwardingReceiver URI} {n' : CSeq}
    (h : DueFrom f n run) (hf : ForwardingReceiver.Forwards f n sent f' n') :
    run <+: sent ∨ ∃ rest, run = sent ++ rest ∧ DueFrom f' n' rest := by
  induction hf generalizing run with
  | done => exact .inr ⟨run, rfl, h⟩
  | send hlookup _ ih =>
    cases run with
    | nil => exact .inl List.nil_prefix
    | cons e run =>
      obtain ⟨hn, he⟩ := h.head
      obtain rfl : e = (_, _) := Prod.ext hn (Option.some.inj (he.symm.trans hlookup))
      rcases ih h.tail with hall | ⟨rest, hrun, hrest⟩
      · exact .inl (List.prefix_cons_iff.mpr (.inr ⟨run, rfl, hall⟩))
      · exact .inr ⟨rest, by rw [hrun]; rfl, hrest⟩

/-- A request that is handled takes no other one's place. -/
theorem handle (h : DueFrom f n run) (hn : f.incomingSequenceNumber = some n)
    (request : Request URI) :
    (f.handleRequest request).2.incomingSequenceNumber = some n ∧
      DueFrom (f.handleRequest request).2 n run := by
  have hexpecting : ∀ cseq, (f.expecting cseq).incomingSequenceNumber = some n := fun cseq => by
    show some (f.incomingSequenceNumber.getD cseq) = some n
    rw [hn]
    rfl
  generalize hresult : (f.handleRequest request).1 = result
  generalize hf' : (f.handleRequest request).2 = f'
  have hcases := f.handleRequest_cases request
  rw [hresult, hf'] at hcases
  cases hcases with
  | noCSeq => exact ⟨hn, h⟩
  | tooFar => exact ⟨hexpecting _, h.numbers, h.buffered, h.nodup⟩
  | occupied => exact ⟨hexpecting _, h.numbers, h.buffered, h.nodup⟩
  | @accepted cseq _ _ hfree =>
    refine ⟨hexpecting _, h.numbers, fun e he => ?_, h.nodup⟩
    have hbuffered := h.buffered e he
    have hne : e.1 ≠ cseq := by
      rintro rfl
      rw [hfree] at hbuffered
      cases hbuffered
    exact (AList.lookup_insert_ne hne).trans hbuffered

end DueFrom

/-- **A move forwards no more than a first part of what is due without leaving the rest
    due**: what is due is not lost. -/
theorem DueRun.step {l l' : Line URI} {run : Forwarded URI} (h : l.DueRun run)
    (hstep : Step l l') : ∃ sent, l'.forwarded = l.forwarded ++ sent ∧
      (run <+: sent ∨ ∃ rest, run = sent ++ rest ∧ l'.DueRun rest) := by
  obtain ⟨f, n, hf, hn, hdue⟩ := h
  cases hstep with
  | @handle g request _ hg =>
    obtain rfl : f = g := Option.some.inj (hf.symm.trans hg)
    refine ⟨[], (List.append_nil _).symm, .inr ⟨run, rfl, _, n, rfl, hdue.handle hn request⟩⟩
  | @forward g r answers hg hr =>
    obtain rfl : f = g := Option.some.inj (hf.symm.trans hg)
    refine ⟨(f.poll answers).2.2, rfl, ?_⟩
    rcases f.poll_cases answers with ⟨hnone, -⟩ | ⟨n₀, f₁, n₁, hsome, hforwards, hends⟩
    · rw [hn] at hnone
      cases hnone
    · obtain rfl : n = n₀ := Option.some.inj (hn.symm.trans hsome)
      rw [hr] at hends
      obtain ⟨hincoming, -, hlookup, hready⟩ := hends.kept
      rcases hdue.forwards hforwards with hall | ⟨rest, hrun, hrest⟩
      · exact .inl hall
      · cases rest with
        | nil => exact .inl ⟨[], by rw [hrun, List.append_nil, List.append_nil]⟩
        | cons e rest =>
          -- A request is still due, so the poll was not ready, and the line stays.
          have hkept : ¬ (l.allowed = false ∧ r = .ready ()) := by
            intro hdropped
            have hnone := hready hdropped.2
            rw [hlookup, hrest.head.2] at hnone
            cases hnone
          refine .inr ⟨e :: rest, hrun, _, n₁, if_neg hkept, hincoming, hrest.numbers, ?_,
            hrest.nodup⟩
          exact fun e' he' => (hlookup e'.1).trans (hrest.buffered e' he')
  | shutdown =>
    refine ⟨[], (List.append_nil _).symm, ?_⟩
    cases run with
    | nil => exact .inl List.nil_prefix
    | cons e run =>
      refine .inr ⟨e :: run, rfl, f, n, ?_, hn, hdue⟩
      have hready : f.hasRequestsReady = true := by
        rw [ForwardingReceiver.hasRequestsReady, hn]
        simp [hdue.head.2]
      exact Option.filter_eq_some_iff.mpr ⟨hf, hready⟩

/-- **What is due is forwarded before the line is dropped.** -/
theorem DueRun.run {l l' : Line URI} {run : Forwarded URI} (h : l.DueRun run)
    (hmoves : Relation.ReflTransGen Step l l') : ∃ sent, l'.forwarded = l.forwarded ++ sent ∧
      (run <+: sent ∨ ∃ rest, run = sent ++ rest ∧ l'.DueRun rest) := by
  induction hmoves with
  | refl => exact ⟨[], (List.append_nil _).symm, .inr ⟨run, rfl, h⟩⟩
  | tail _ hstep ih =>
    obtain ⟨sent, hsent, hall | ⟨rest, hrun, hrest⟩⟩ := ih
    · obtain ⟨more, hmore⟩ := hstep.forwarded
      exact ⟨sent ++ more, by rw [hmore, hsent, List.append_assoc],
        .inl (hall.trans (List.prefix_append _ _))⟩
    · obtain ⟨more, hmore, hcases⟩ := hrest.step hstep
      refine ⟨sent ++ more, by rw [hmore, hsent, List.append_assoc], ?_⟩
      rcases hcases with hall | ⟨rest', hrest', hdue⟩
      · rw [hrun]
        exact .inl ((List.prefix_append_right_inj _).mpr hall)
      · exact .inr ⟨rest', by rw [hrun, hrest', List.append_assoc], hdue⟩

/-- **Once shut down, the line takes in no request any more.** -/
theorem shut_run {l l' : Line URI} (h : l.allowed = false)
    (hmoves : Relation.ReflTransGen Step l l') :
    l'.allowed = false ∧ l'.handled = l.handled ∧ l'.accepted = l.accepted := by
  induction hmoves with
  | refl => exact ⟨h, rfl, rfl⟩
  | tail _ hstep ih =>
    obtain ⟨hallowed, hhandled, haccepted⟩ := ih
    cases hstep with
    | handle _ hopen =>
      rw [hallowed] at hopen
      cases hopen
    | forward => exact ⟨hallowed, hhandled, haccepted⟩
    | shutdown => exact ⟨rfl, hhandled, haccepted⟩

end Line
end Rtsp
