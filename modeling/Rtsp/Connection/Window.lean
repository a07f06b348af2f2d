import Rtsp.Connection.Forwarding
import Rtsp.Lib.Trans

/-!
# The window of the forwarding receiver

A full buffer must hold the request that is expected next, or nothing is ever
forwarded or read again (`full_stays`). That is so as long as every request
accepted lies less than the buffer's size ahead of the expected number
(`hasRequestsReady_of_full`). The test of `handle_request` lets in more than
that (`admissible_iff`), and a buffer of any size can then fill up with requests
that are not due (`full_not_ready`).

What is at stake is whether a receiver can get stuck for good. Nothing is read into a
full buffer, and nothing is forwarded out of it but the request that is due, so a full
buffer without that request stays as it is whatever happens.

The test lets in a request whose distance is the size itself, which is one too many, and
where the numbers wrap, and the code's subtraction is one short, one more than that. (A
size of 2^32 or more is cast to 32 bits, which makes the test stricter and not looser.)
`Admissible` describes the inputs that it treats rightly, by the distance counted round
the circle of numbers; the code's subtraction comes in only for the requests that it
rejects.

The run that gets stuck is short and could happen with a client that skips a number.
Clients of this library do not (`Network.Intake`).
-/

namespace Rtsp

open Lib

namespace CSeq

/-- How far `b` is ahead of `a`, counting on from the largest number to zero. -/
def distance (a b : CSeq) : Nat := (b.val + (MAX_CSEQ + 1) - a.val) % (MAX_CSEQ + 1)

theorem distance_eq (a b : CSeq) :
    a.distance b = if a.val ≤ b.val then b.val - a.val else b.val + (MAX_CSEQ + 1) - a.val := by
  have ha := a.le_max
  have hb := b.le_max
  unfold distance MAX_CSEQ at *
  split <;> omega

theorem ext {a b : CSeq} (h : a.val = b.val) : a = b := by
  cases a
  cases b
  cases h
  rfl

@[simp] theorem distance_self (a : CSeq) : a.distance a = 0 := by
  simp [distance_eq]

theorem eq_of_distance {a b c : CSeq} (h : a.distance b = a.distance c) : b = c := by
  have ha := a.le_max
  have hb := b.le_max
  have hc := c.le_max
  refine ext ?_
  rw [distance_eq, distance_eq] at h
  unfold MAX_CSEQ at *
  split at h <;> split at h <;> omega

/-- The next number is one closer to every other one. -/
theorem distance_wrappingIncrement {a b : CSeq} (h : b ≠ a) :
    a.wrappingIncrement.distance b + 1 = a.distance b := by
  have ha := a.le_max
  have hb := b.le_max
  have hne : b.val ≠ a.val := fun heq => h (ext heq)
  have hval : a.wrappingIncrement.val = if a.val = MAX_CSEQ then 0 else a.val + 1 := by
    show (a.val + 1) % (MAX_CSEQ + 1) = _
    unfold MAX_CSEQ at *
    split <;> omega
  rw [distance_eq, distance_eq, hval]
  unfold MAX_CSEQ at *
  split <;> split <;> split <;> omega

/-- The subtraction of the code is the distance, but one short of it past the largest
    number. -/
theorem val_sub (a b : CSeq) :
    (b.sub a).val = if a.val ≤ b.val then a.distance b else a.distance b - 1 := by
  have ha := a.le_max
  have hb := b.le_max
  rw [distance_eq]
  show (if a.val ≤ b.val then b.val - a.val else MAX_CSEQ - (a.val - b.val)) = _
  unfold MAX_CSEQ at *
  split <;> omega

end CSeq

namespace ForwardingReceiver

variable {URI : Type}

/-- What happens to a forwarding receiver that the handler still listens to. -/
inductive Op (URI : Type) where
  | handle (request : Request URI)
  | poll (answers : List SendAnswer)

/-- Requests are handled only while the buffer is not full, as `poll_stream` does. -/
inductive Step : ForwardingReceiver URI → Op URI → ForwardingReceiver URI → Prop where
  | handle {f request} : f.isFull = false → Step f (.handle request) (f.handleRequest request).2
  | poll {f answers r} : (f.poll answers).1 = .ok r → Step f (.poll answers) (f.poll answers).2.1

/-- The request is less than the buffer's size ahead of the expected number, or the test of
    `handle_request` turns it away. -/
def Admissible (f : ForwardingReceiver URI) (request : Request URI) : Prop :=
  ∀ cseq n, request.headers.typedGet CSeq = some cseq → f.incomingSequenceNumber = some n →
    n.distance cseq < f.requestBufferSize ∨ f.requestBufferSize % 2 ^ 32 < (cseq.sub n).val

/-- A step that handles none but admissible requests. -/
def AdmissibleStep (f : ForwardingReceiver URI) (op : Op URI) (f' : ForwardingReceiver URI) :
    Prop :=
  Step f op f' ∧ ∀ request, op = .handle request → f.Admissible request

/-- The requests the test lets in though they are too far ahead: those exactly the
    buffer's size ahead, and past the largest number those one further. -/
theorem admissible_iff {f : ForwardingReceiver URI} {request : Request URI} {cseq n : CSeq}
    (hcseq : request.headers.typedGet CSeq = some cseq) (hn : f.incomingSequenceNumber = some n)
    (hsize : f.requestBufferSize < 2 ^ 32) :
    ¬ f.Admissible request ↔ n.distance cseq = f.requestBufferSize ∨
      (cseq.val < n.val ∧ n.distance cseq = f.requestBufferSize + 1) := by
  have hadm : f.Admissible request ↔ n.distance cseq < f.requestBufferSize ∨
      f.requestBufferSize < (cseq.sub n).val := by
    have hmod := Nat.mod_eq_of_lt hsize
    constructor
    · intro h
      have hnear := h cseq n hcseq hn
      rwa [hmod] at hnear
    · intro h c m hc hm
      rw [hcseq] at hc
      rw [hn] at hm
      cases hc
      cases hm
      rwa [hmod]
  have hsub := CSeq.val_sub n cseq
  rw [hadm, hsub]
  split <;> omega

/-! ## The window -/

/-- Every request buffered is less than the buffer's size ahead of the expected number. -/
structure Window (f : ForwardingReceiver URI) (size : Nat) : Prop where
  sized : f.requestBufferSize = size
  near : ∀ n, f.incomingSequenceNumber = some n → ∀ c ∈ f.bufferedRequests, n.distance c < size
  empty : f.incomingSequenceNumber = none → ∀ c, c ∉ f.bufferedRequests

theorem window_new (size : Nat) : (new size : ForwardingReceiver URI).Window size :=
  ⟨rfl, nofun, fun _ => AList.notMem_empty⟩

/-- The window moves on with the expected number. -/
theorem Forwards.near {size : Nat} {f f' : ForwardingReceiver URI} {n n' : CSeq}
    {sent : Forwarded URI} (h : Forwards f n sent f' n')
    (hnear : ∀ c ∈ f.bufferedRequests, n.distance c < size) :
    f'.requestBufferSize = f.requestBufferSize ∧
      ∀ c ∈ f'.bufferedRequests, n'.distance c < size := by
  induction h with
  | done => exact ⟨rfl, hnear⟩
  | send _ _ ih =>
    refine ih fun c hc => ?_
    obtain ⟨hne, hmem⟩ := AList.mem_erase.mp hc
    have hdistance := CSeq.distance_wrappingIncrement hne
    have := hnear c hmem
    omega

theorem window_poll {size : Nat} {f : ForwardingReceiver URI} {answers : List SendAnswer}
    {r : Async Unit} (hf : f.Window size) (hr : (f.poll answers).1 = .ok r) :
    (f.poll answers).2.1.Window size := by
  rcases f.poll_cases answers with ⟨-, hpoll⟩ | ⟨n, f₁, n₁, hn, hforwards, hends⟩
  · rw [hpoll]
    exact hf
  · obtain ⟨hsize, hnear⟩ := hforwards.near (hf.near n hn)
    rw [hr] at hends
    revert hends
    generalize (f.poll answers).2.1 = f'
    intro hends
    cases hends with
    | ready _ =>
      refine ⟨hsize.trans hf.sized, fun m hm => ?_, nofun⟩
      cases hm
      exact hnear
    | notReady hlookup =>
      refine ⟨hsize.trans hf.sized, fun m hm c hc => ?_, nofun⟩
      cases hm
      rcases (AList.mem_insert _).mp hc with rfl | hc
      · exact hnear _ (AList.lookup_isSome.mp (by rw [hlookup]; rfl))
      · exact hnear c (AList.mem_erase.mp hc).2

theorem window_handle {size : Nat} {f : ForwardingReceiver URI} {request : Request URI}
    (hsize : 0 < size) (hf : f.Window size) (hadm : f.Admissible request) :
    (f.handleRequest request).2.Window size := by
  -- Looking at the first request fixes the number it is expected under.
  have hexpecting : ∀ cseq, (f.expecting cseq).Window size := fun cseq => by
    refine ⟨hf.sized, fun m hm c hc => ?_, nofun⟩
    cases hn : f.incomingSequenceNumber with
    | none => exact absurd hc (hf.empty hn c)
    | some n =>
      simp only [expecting, hn, Option.getD_some, Option.some.injEq] at hm
      exact hf.near m (hm ▸ hn) c hc
  have hhandles := f.handleRequest_cases request
  revert hhandles
  generalize (f.handleRequest request).1 = r
  generalize (f.handleRequest request).2 = f'
  intro hhandles
  cases hhandles with
  | noCSeq _ => exact hf
  | tooFar _ _ => exact hexpecting _
  | occupied _ _ => exact hexpecting _
  | @accepted cseq hcseq hsub hfree =>
    refine ⟨hf.sized, fun m hm c hc => ?_, nofun⟩
    rcases (AList.mem_insert _).mp hc with rfl | hc
    · cases hn : f.incomingSequenceNumber with
      | none =>
        simp only [expecting, hn, Option.getD_none, Option.some.injEq] at hm
        rwa [← hm, CSeq.distance_self]
      | some n =>
        simp only [expecting, hn, Option.getD_some, Option.some.injEq] at hm hsub
        rcases hadm c n hcseq hn with hnear | hfar
        · rwa [← hm, ← hf.sized]
        · omega
    · exact (hexpecting cseq).near m hm c hc

/-- More distinct numbers than fit between two ends do not exist. -/
theorem length_le_of_near {size : Nat} {f : ForwardingReceiver URI} {n : CSeq}
    (hnear : ∀ c ∈ f.bufferedRequests, n.distance c < size) (hn : n ∉ f.bufferedRequests) :
    f.bufferedRequests.entries.length ≤ size - 1 := by
  have hnodup : (f.bufferedRequests.keys.map n.distance).Nodup :=
    f.bufferedRequests.keys_nodup.map fun a b => CSeq.eq_of_distance
  have hsubset : f.bufferedRequests.keys.map n.distance ⊆ List.range' 1 (size - 1) := by
    intro d hd
    obtain ⟨c, hc, rfl⟩ := List.mem_map.mp hd
    have hlt := hnear c (AList.mem_keys.mpr hc)
    have hpos : n.distance c ≠ 0 := fun hzero => by
      have heq := CSeq.eq_of_distance (hzero.trans n.distance_self.symm)
      exact hn (heq ▸ AList.mem_keys.mpr hc)
    rw [List.mem_range'_1]
    omega
  have hlength := (List.subperm_of_subset hnodup hsubset).length_le
  simpa [AList.keys, List.keys] using hlength

/-- **No head-of-line deadlock**, if only admissible requests arrive: a full buffer holds
    the request that is expected next. -/
theorem hasRequestsReady_of_full {size : Nat} (hsize : 0 < size) {ops : List (Op URI)}
    {f : ForwardingReceiver URI} (hrun : Run AdmissibleStep (new size) ops f)
    (hfull : f.isFull = true) : f.hasRequestsReady = true := by
  have hwindow : f.Window size := by
    refine hrun.invariant (I := fun f => f.Window size) (window_new size)
      fun f₁ op f₂ hf hstep => ?_
    obtain ⟨hstep, hadm⟩ := hstep
    cases hstep with
    | handle _ => exact window_handle hsize hf (hadm _ rfl)
    | poll hr => exact window_poll hf hr
  have hlength : size ≤ f.bufferedRequests.entries.length := by
    simpa [isFull, hwindow.sized] using hfull
  unfold hasRequestsReady
  split
  · next n hn =>
    rw [AList.lookup_isSome]
    refine Decidable.byContradiction fun hnot => ?_
    have := length_le_of_near (hwindow.near n hn) hnot
    omega
  · next hn =>
    cases hentries : f.bufferedRequests.entries with
    | nil =>
      rw [hentries] at hlength
      exact absurd hlength (Nat.not_le.mpr hsize)
    | cons e es =>
      refine absurd ?_ (hwindow.empty hn e.1)
      rw [AList.mem_keys, AList.keys, hentries]
      exact .head _

/-- A request for everything, under this `CSeq`. -/
def numbered (cseq : Nat) : Request AsteriskURI where
  body := []
  headers := HeaderMap.empty.append (.standard .cSeq) (.ofNumber cseq)
  method := .standard .options
  uri := .asterisk
  version := .rtsp2_0
  supported := rfl

theorem admissible_of_near {f : ForwardingReceiver URI} {request : Request URI} {cseq n : CSeq}
    (hcseq : request.headers.typedGet CSeq = some cseq) (hn : f.incomingSequenceNumber = some n)
    (hnear : n.distance cseq < f.requestBufferSize) : f.Admissible request := by
  intro cseq' n' hcseq' hn'
  obtain rfl := Option.some.inj (hcseq.symm.trans hcseq')
  obtain rfl := Option.some.inj (hn.symm.trans hn')
  exact .inl hnear

/-- A buffer for two requests that has forwarded the request 5. -/
def forwardedFirst : ForwardingReceiver AsteriskURI :=
  (((new 2).handleRequest (numbered 5)).2.poll [.ready]).2.1

/-- It holds the request 7 when the request 6 comes in. -/
def reordered : ForwardingReceiver AsteriskURI := (forwardedFirst.handleRequest (numbered 7)).2

theorem run_reordered : Run AdmissibleStep (new 2)
    [.handle (numbered 5), .poll [.ready], .handle (numbered 7)] reordered := by
  have hfirst : AdmissibleStep (new 2) (.handle (numbered 5))
      ((new 2).handleRequest (numbered 5)).2 := by
    refine ⟨.handle rfl, ?_⟩
    rintro _ - cseq n - hn
    cases hn
  have hforwarded : AdmissibleStep ((new 2).handleRequest (numbered 5)).2 (.poll [.ready])
      forwardedFirst :=
    ⟨.poll (r := .ready ()) (by decide +kernel), nofun⟩
  refine .snoc (.snoc (.snoc .start hfirst) hforwarded) ⟨.handle (by decide +kernel), ?_⟩
  rintro _ ⟨⟩
  have hcseq : (numbered 7).headers.typedGet CSeq = some ⟨7, by decide⟩ := by decide +kernel
  have hn : forwardedFirst.incomingSequenceNumber = some ⟨6, by decide⟩ := by decide +kernel
  exact admissible_of_near hcseq hn (by decide +kernel)

/-- The buffer is full with the requests 7 and 6, of which 6 is the one expected. -/
theorem hasRequestsReady_of_full_reordered :
    (reordered.handleRequest (numbered 6)).2.hasRequestsReady = true := by
  refine hasRequestsReady_of_full (by decide)
    (run_reordered.snoc ⟨.handle (by decide +kernel), ?_⟩) (by decide +kernel)
  rintro _ ⟨⟩
  have hcseq : (numbered 6).headers.typedGet CSeq = some ⟨6, by decide⟩ := by decide +kernel
  have hn : reordered.incomingSequenceNumber = some ⟨6, by decide⟩ := by decide +kernel
  exact admissible_of_near hcseq hn (by decide +kernel)

/-- **A full buffer without the expected request is for ever**: nothing is read and nothing
    is forwarded any more. -/
theorem full_stays {f f' : ForwardingReceiver URI} {n : CSeq} {ops : List (Op URI)}
    (hfull : f.isFull = true) (hn : f.incomingSequenceNumber = some n)
    (hready : f.hasRequestsReady = false) (hrun : Run Step f ops f') : f' = f := by
  refine hrun.invariant (I := (· = f)) rfl fun f₁ op f₂ heq hstep => ?_
  subst heq
  cases hstep with
  | handle hnot => simp [hfull] at hnot
  | poll hr =>
    have hlookup : f₁.bufferedRequests.lookup n = none := by
      simpa [hasRequestsReady, hn] using hready
    have hforward : ∀ answers, f₁.forward n answers = (.ok (.ready ()), f₁, []) := fun answers => by
      have hstored : { f₁ with incomingSequenceNumber := some n } = f₁ := by rw [← hn]
      cases answers <;> rw [forward, hlookup] <;> dsimp only <;> rw [hstored]
    rw [poll, hn]
    dsimp only
    rw [hforward]

/-- **The window test lets in one request too many.** A buffer for one request that has
    forwarded the request 5 takes in the request 7, and is full without the request 6. -/
theorem full_not_ready :
    ¬ ∀ size, 0 < size → ∀ ops (f : ForwardingReceiver AsteriskURI), Run Step (new size) ops f →
      f.isFull = true → f.hasRequestsReady = true := by
  intro h
  have hfirst : Run Step (new 1) [.handle (numbered 5)] ((new 1).handleRequest (numbered 5)).2 :=
    .snoc .start (.handle rfl)
  have hforwarded : Run Step (new 1) [.handle (numbered 5), .poll [.ready]]
      (((new 1).handleRequest (numbered 5)).2.poll [.ready]).2.1 :=
    hfirst.snoc (.poll (r := .ready ()) (by decide +kernel))
  have hfilled : Run Step (new 1) [.handle (numbered 5), .poll [.ready], .handle (numbered 7)]
      ((((new 1).handleRequest (numbered 5)).2.poll [.ready]).2.1.handleRequest (numbered 7)).2 :=
    hforwarded.snoc (.handle (by decide +kernel))
  have hready := h 1 (by decide) _ _ hfilled (by decide +kernel)
  revert hready
  decide +kernel

end ForwardingReceiver
end Rtsp
