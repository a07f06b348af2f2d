import Rtsp.Codec.Stability

/-!
# The decoders as resumable steps

`decode` of either decoder is a loop over turns. To speak of many calls of it on a
growing buffer, the loop is taken apart again: one turn is a step of the library's kind
(`stepOf`), which takes bytes off and goes on, or hands out a message, or asks for more,
or fails, and `decodeLoop_stopped` says that a call is a run of such steps up to one
that does not go on.

In the model the loop has a number of turns to spend, because the language wants to know
why it ends. `Moves` is that reason, and the one thing about turns that has to be looked
up in each of them: a turn takes only bytes that are there, keeps the configuration, and
brings `4 * bytes + rank` down. Fewer than four turns in a row take no byte, hence the
four. So the turns given always suffice, and a result never depends on their number.

Failure keeps panics apart from errors. No step is said to be free of panics here.
-/

namespace Rtsp

open Syntax Lib

/-- How a step can end a run: the code panicked, or it returned an error. -/
inductive Failure (ε : Type) where
  | panic (p : Panic)
  | error (e : ε)
  deriving DecidableEq

def Failure.map {ε ε' : Type} (f : ε → ε') : Failure ε → Failure ε'
  | .panic p => .panic p
  | .error e => .error (f e)

namespace Decoder

variable {δ μ ε κ : Type}

/-- What a turn may do to the decoder `d` on the buffer: take off bytes that are there,
    leave the configuration alone, and come closer to the end of the message. -/
inductive Moves (rank : δ → Nat) (config : δ → κ) (d : δ) (buffer : Bytes) :
    Turn δ μ ε → Prop where
  | complete {d' n} : n ≤ buffer.length → config d' = config d → 0 < rank d' →
      rank d' < 4 * n + rank d → Moves rank config d buffer (.complete d' n)
  | error {n e} : n ≤ buffer.length → Moves rank config d buffer (.error n e)
  | incomplete : Moves rank config d buffer .incomplete
  | message {m d'} : config d' = config d → rank d' < rank d →
      Moves rank config d buffer (.message m d')
  | failed {e} : Moves rank config d buffer (.failed e)

/-- One turn as a step. -/
def stepOf (turn : δ → Bytes → Rust (Turn δ μ ε)) (d : δ) (buffer : Bytes) :
    Step δ μ (Failure ε) :=
  match turn d buffer with
  | .error p => .fail (.panic p)
  | .ok (.complete d n) => .skip d n
  | .ok (.message m d) => .emit d 0 m
  | .ok (.error _ e) => .fail (.error e)
  | .ok (.failed e) => .fail (.error e)
  | .ok .incomplete => .need

theorem stepOf_eq_skip {turn : δ → Bytes → Rust (Turn δ μ ε)} {d d' : δ} {b : Bytes} {n : Nat}
    (h : stepOf turn d b = .skip d' n) : turn d b = .ok (.complete d' n) := by
  unfold stepOf at h
  split at h <;> cases h
  assumption

theorem stepOf_eq_emit {turn : δ → Bytes → Rust (Turn δ μ ε)} {d d' : δ} {b : Bytes} {n : Nat}
    {m : μ} (h : stepOf turn d b = .emit d' n m) : n = 0 ∧ turn d b = .ok (.message m d') := by
  unfold stepOf at h
  split at h <;> cases h
  exact ⟨rfl, by assumption⟩

theorem stepOf_eq_fail {turn : δ → Bytes → Rust (Turn δ μ ε)} {d : δ} {b : Bytes} {e : ε}
    (h : stepOf turn d b = .fail (.error e)) :
    (∃ n, turn d b = .ok (.error n e)) ∨ turn d b = .ok (.failed e) := by
  unfold stepOf at h
  split at h <;> cases h
  · exact .inl ⟨_, by assumption⟩
  · exact .inr (by assumption)

theorem stepOf_complete {turn : δ → Bytes → Rust (Turn δ μ ε)} {d d' : δ} {b : Bytes} {n : Nat}
    (h : turn d b = .ok (.complete d' n)) : stepOf turn d b = .skip d' n := by
  rw [stepOf, h]

/-- A turn that stands makes a steady step. -/
theorem Stands.steady {turn : δ → Bytes → Rust (Turn δ μ ε)} {d : δ} {b t : Bytes}
    (h : Stands .incomplete (turn d) b t) : Steady (stepOf turn) d b t := by
  unfold Steady stepOf
  rcases h with h | h
  · exact .inl (by rw [h])
  · exact .inr (by rw [h])

/-- The result of `decode` for the step a run of turns stops at. -/
def Stopped (turn : δ → Bytes → Rust (Turn δ μ ε)) (d : δ) (buffer : Bytes) (decoded : Nat)
    (r : Rust (DecodeResult μ ε × Nat × δ)) : Prop :=
  match stepOf turn d buffer with
  | .need => r = .ok (.incomplete, decoded, d)
  | .skip _ _ => False
  | .emit d' _ m => r = .ok (.complete m, decoded, d')
  | .fail (.panic p) => r = .error p
  | .fail (.error e) => ∃ n d', r = .ok (.error e, n, d') ∧ n ≤ decoded + buffer.length

/-- **The loop of `decode` is a run of its turns** up to one that does not go on, and it
    has turns enough for it. -/
theorem decodeLoop_stopped {turn : δ → Bytes → Rust (Turn δ μ ε)} (setError : δ → ε → δ)
    {rank : δ → Nat} {config : δ → κ}
    (hmoves : ∀ d b r, turn d b = .ok r → Moves rank config d b r) (turns : Nat) (d : δ)
    (b : Bytes) (decoded : Nat) (hturns : 4 * b.length + rank d < turns) :
    ∃ d₁ n, n ≤ b.length ∧ Skips (stepOf turn) Always d b d₁ (b.drop n) ∧
      Stopped turn d₁ (b.drop n) (decoded + n) (decodeLoop turn setError turns d b decoded) := by
  induction turns generalizing d b decoded with
  | zero => omega
  | succ turns ih =>
    unfold decodeLoop
    cases hturn : turn d b with
    | error p => exact ⟨d, 0, Nat.zero_le _, .refl, by simp [Stopped, stepOf, hturn]⟩
    | ok r =>
      have hm := hmoves d b r hturn
      cases hm with
      | @complete d' n hle _ _ hrank =>
        obtain ⟨d₁, n₁, hle₁, hskips, hstop⟩ :=
          ih d' (b.drop n) (decoded + n) (by simp only [List.length_drop]; omega)
        rw [List.length_drop] at hle₁
        rw [List.drop_drop] at hskips hstop
        refine ⟨d₁, n + n₁, by omega, .head trivial (by simp [stepOf, hturn]) hskips, ?_⟩
        rw [← Nat.add_assoc]
        exact hstop
      | @error n e hle =>
        refine ⟨d, 0, Nat.zero_le _, .refl, ?_⟩
        simp only [Stopped, stepOf, List.drop_zero, hturn]
        exact ⟨_, _, rfl, by omega⟩
      | incomplete => exact ⟨d, 0, Nat.zero_le _, .refl, by simp [Stopped, stepOf, hturn]⟩
      | message => exact ⟨d, 0, Nat.zero_le _, .refl, by simp [Stopped, stepOf, hturn]⟩
      | failed =>
        refine ⟨d, 0, Nat.zero_le _, .refl, ?_⟩
        simp only [Stopped, stepOf, List.drop_zero, hturn]
        exact ⟨_, _, rfl, Nat.zero_le _⟩

/-! ## What the shared steps can do -/

theorem readField_eq_ok {separator : Byte} {max : Nat} {tooLong : ε} {b : Bytes}
    {next : Bytes → Rust (Turn δ μ ε)} {r : Turn δ μ ε}
    (h : readField separator max tooLong b next = .ok r) :
    r = .incomplete ∨ (∃ e, r = .error 0 e) ∨ ∃ field, next field = .ok r := by
  obtain ⟨a, _, ha⟩ := bind_eq_ok h
  cases a with
  | complete field => exact .inr (.inr ⟨field, ha⟩)
  | error e => cases ha; exact .inr (.inl ⟨e, rfl⟩)
  | incomplete => cases ha; exact .inl rfl

variable {limits : Limits} {errors : HeaderErrors ε} {headers : HeaderMap} {b : Bytes}

/-- Which bytes a header line takes: some that are there. -/
inductive Takes (b : Bytes) : HeaderLine ε → Prop where
  | header {name value n} : 0 < n → n ≤ b.length → Takes b (.header name value n)
  | ended {contentLength} : 2 ≤ b.length → Takes b (.ended contentLength)
  | endedWithError {e} : 2 ≤ b.length → Takes b (.endedWithError e)
  | error {e} : Takes b (.error e)
  | incomplete : Takes b .incomplete

theorem decodeHeaderField_takes {name : Bytes} {l : HeaderLine ε}
    (h : decodeHeaderField limits errors headers name b = .ok l) : Takes b l := by
  unfold decodeHeaderField at h
  split at h
  · cases h; exact .error
  · obtain ⟨rest, hrest, h⟩ := bind_eq_ok h
    obtain ⟨v, hv, h⟩ := bind_eq_ok h
    cases v with
    | incomplete => cases h; exact .incomplete
    | error e => cases h; exact .error
    | complete value =>
      simp only at h
      split at h
      · cases h; exact .error
      · split at h
        · cases h; exact .error
        · obtain ⟨_, _, hok⟩ := bind_eq_ok h
          have hlt := decodeHeaderValue_lt hv
          unfold sliceFrom at hrest
          split at hrest
          · cases hrest
            cases hok
            rw [List.length_drop] at hlt
            exact .header (by omega) (by omega)
          · cases hrest

theorem decodeHeader_takes {l : HeaderLine ε}
    (h : decodeHeader limits errors headers b = .ok l) : Takes b l := by
  obtain ⟨name, _, h⟩ := bind_eq_ok h
  cases name with
  | incomplete => cases h; exact .incomplete
  | error e => cases h; exact .error
  | complete name =>
    cases name with
    | some name => exact decodeHeaderField_takes h
    | none =>
      obtain ⟨_, hslice, h⟩ := bind_eq_ok h
      unfold sliceFrom at hslice
      split at hslice
      · next hle =>
        split at h
        · cases h; exact .ended hle
        · cases h; exact .endedWithError hle
      · cases hslice

end Decoder

namespace RequestDecoder

open Decoder

variable {URI URIError : Type} {d : RequestDecoder URI URIError} {b : Bytes}

/-- How far the decoder is from the end of a message, less than four turns of which take
    no byte. -/
def rank (d : RequestDecoder URI URIError) : Nat :=
  match d.state with
  | .uri | .version | .header => 3
  | .body => 2
  | .end => 1
  | .method | .error _ => 0

theorem rank_le (d : RequestDecoder URI URIError) : d.rank ≤ 3 := by
  unfold rank
  split <;> omega

theorem turn_moves [RequestURI URI URIError] {r : Turn URI URIError} (h : d.turn b = .ok r) :
    Moves rank config d b r := by
  unfold turn at h
  cases hstate : d.state with
  | header =>
    rw [hstate] at h
    obtain ⟨l, hl, h⟩ := bind_eq_ok h
    have ht := decodeHeader_takes hl
    cases ht with
    | header hpos hle =>
      cases h
      exact .complete hle rfl (by simp [rank, hstate]) (by simp [rank, hstate]; omega)
    | ended hle => cases h; exact .complete hle rfl (by simp [rank]) (by simp [rank, hstate])
    | endedWithError hle => cases h; exact .error hle
    | error => cases h; exact .error (Nat.zero_le _)
    | incomplete => cases h; exact .incomplete
  | method =>
    rw [hstate] at h
    rcases readField_eq_ok h with rfl | ⟨e, rfl⟩ | ⟨name, h⟩
    · exact .incomplete
    · exact .error (Nat.zero_le _)
    · split at h
      · obtain ⟨rfl, hle⟩ := consume_eq_ok h
        exact .complete hle rfl (by simp [rank]) (by simp [rank, hstate]; omega)
      · cases h; exact .error (Nat.zero_le _)
  | uri =>
    rw [hstate] at h
    rcases readField_eq_ok h with rfl | ⟨e, rfl⟩ | ⟨text, h⟩
    · exact .incomplete
    · exact .error (Nat.zero_le _)
    · split at h
      · obtain ⟨rfl, hle⟩ := consume_eq_ok h
        exact .complete hle rfl (by simp [rank]) (by simp [rank, hstate])
      · cases h; exact .error (Nat.zero_le _)
  | version =>
    rw [hstate] at h
    simp only [decodeVersion] at h
    split at h
    · cases h; exact .incomplete
    · obtain ⟨_, _, h⟩ := bind_eq_ok h
      split at h
      · cases h; exact .error (Nat.zero_le _)
      · obtain ⟨_, _, h⟩ := bind_eq_ok h
        split at h
        · cases h; exact .error (Nat.zero_le _)
        · obtain ⟨rfl, hle⟩ := consume_eq_ok h
          exact .complete hle rfl (by simp [rank]) (by simp [rank, hstate])
        · cases h; exact .error (Nat.zero_le _)
  | body =>
    rw [hstate] at h
    simp only [decodeBody] at h
    split at h
    · cases h; exact .incomplete
    · obtain ⟨rfl, hle⟩ := consume_eq_ok h
      exact .complete hle rfl (by simp [rank]) (by simp [rank, hstate])
  | «end» =>
    rw [hstate] at h
    obtain ⟨request, _, h⟩ := bind_eq_ok h
    cases h
    exact .message rfl (by simp [rank, hstate])
  | error e =>
    rw [hstate] at h
    cases h
    exact .failed

theorem not_isInitial (h : 0 < d.rank) : d.isInitial = false := by
  unfold rank at h
  unfold isInitial
  split <;> simp_all

end RequestDecoder

namespace ResponseDecoder

open Decoder

variable {d : ResponseDecoder} {b : Bytes}

/-- How far the decoder is from the end of a message. -/
def rank (d : ResponseDecoder) : Nat :=
  match d.state with
  | .statusCode | .reasonPhrase | .header => 3
  | .body => 2
  | .end => 1
  | .version | .error _ => 0

theorem rank_le (d : ResponseDecoder) : d.rank ≤ 3 := by
  unfold rank
  split <;> omega

theorem turn_moves {r : Turn} (h : d.turn b = .ok r) : Moves rank config d b r := by
  unfold turn at h
  cases hstate : d.state with
  | header =>
    rw [hstate] at h
    obtain ⟨l, hl, h⟩ := bind_eq_ok h
    have ht := decodeHeader_takes hl
    cases ht with
    | header hpos hle =>
      cases h
      exact .complete hle rfl (by simp [rank, hstate]) (by simp [rank, hstate]; omega)
    | ended hle => cases h; exact .complete hle rfl (by simp [rank]) (by simp [rank, hstate])
    | endedWithError hle => cases h; exact .error hle
    | error => cases h; exact .error (Nat.zero_le _)
    | incomplete => cases h; exact .incomplete
  | statusCode =>
    rw [hstate] at h
    simp only [decodeStatusCode] at h
    split at h
    · cases h; exact .incomplete
    · obtain ⟨_, _, h⟩ := bind_eq_ok h
      split at h
      · cases h; exact .error (Nat.zero_le _)
      · obtain ⟨_, _, h⟩ := bind_eq_ok h
        split at h
        · cases h; exact .error (Nat.zero_le _)
        · obtain ⟨rfl, hle⟩ := consume_eq_ok h
          exact .complete hle rfl (by simp [rank]) (by simp [rank, hstate])
  | reasonPhrase =>
    rw [hstate] at h
    obtain ⟨_, _, h⟩ := bind_eq_ok h
    split at h
    · obtain ⟨_, _, h⟩ := bind_eq_ok h
      split at h
      · cases h; exact .error (Nat.zero_le _)
      · obtain ⟨rfl, hle⟩ := consume_eq_ok h
        exact .complete hle rfl (by simp [rank]) (by simp [rank, hstate])
    · split at h
      · cases h; exact .error (Nat.zero_le _)
      · cases h; exact .incomplete
  | version =>
    rw [hstate] at h
    simp only [decodeVersion] at h
    split at h
    · cases h; exact .incomplete
    · obtain ⟨_, _, h⟩ := bind_eq_ok h
      split at h
      · cases h; exact .error (Nat.zero_le _)
      · obtain ⟨_, _, h⟩ := bind_eq_ok h
        split at h
        · cases h; exact .error (Nat.zero_le _)
        · obtain ⟨rfl, hle⟩ := consume_eq_ok h
          exact .complete hle rfl (by simp [rank]) (by simp [rank, hstate])
        · cases h; exact .error (Nat.zero_le _)
  | body =>
    rw [hstate] at h
    simp only [decodeBody] at h
    split at h
    · cases h; exact .incomplete
    · obtain ⟨rfl, hle⟩ := consume_eq_ok h
      exact .complete hle rfl (by simp [rank]) (by simp [rank, hstate])
  | «end» =>
    rw [hstate] at h
    obtain ⟨response, _, h⟩ := bind_eq_ok h
    cases h
    exact .message rfl (by simp [rank, hstate])
  | error e =>
    rw [hstate] at h
    cases h
    exact .failed

theorem not_isInitial (h : 0 < d.rank) : d.isInitial = false := by
  unfold rank at h
  unfold isInitial
  split <;> simp_all

end ResponseDecoder

end Rtsp
