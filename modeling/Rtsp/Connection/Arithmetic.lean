import Mathlib.Logic.Function.Iterate
import Rtsp.Connection.Line

/-!
# The arithmetic of sequence numbers

Sequence numbers are counted modulo `MAX_CSEQ + 1`: so do `wrapping_increment`
and the addition of `header/types/cseq.rs`. The subtraction takes its other
constant, `MAX_CSEQ`, where it passes zero: it inverts the addition exactly
where it does not (`sub_eq_distance_iff`), and what it gives after `n`
increments is `n` exactly where these do not (`sub_ahead_iff`). None of the
three leaves the range of a `u32` on the way.

Elsewhere a `CSeq` is a number with its bound, and the operators are the sums and
differences of the code taken in `Nat`. Here each is written out a second time, with the
sums and differences of a `u32`, any of which would panic where it left the range
(`addU32`, `subU32`); that they come out the same is what entitles the rest of the
development to the plain ones.

What the subtraction ought to be is not said by an example: `IsDifference` asks for the
number that leads from one to the other, and that there is only one. The distance round
the circle is that number, always, so the question is where the code's subtraction gives
the distance.

The result is about the operator. What follows for the receiver, which uses it to see
how far ahead of its turn a request is, is told in `Connection.Window`.
-/

namespace Rtsp

namespace CSeq

variable {a b d : CSeq}

/-! ## In `u32` -/

/-- `CSeq::wrapping_increment`, by the sums it takes. -/
def wrappingIncrementU32 (c : CSeq) : Rust Nat := do
  let sum ← u32Add c.val 1
  let modulus ← u32Add MAX_CSEQ 1
  .ok (sum % modulus)

/-- `Add for CSeq`, by the sums it takes. -/
def addU32 (a b : CSeq) : Rust Nat := do
  let sum ← u32Add a.val b.val
  let modulus ← u32Add MAX_CSEQ 1
  .ok (sum % modulus)

/-- `Sub for CSeq`, by the differences it takes. -/
def subU32 (a b : CSeq) : Rust Nat :=
  if b.val ≤ a.val then u32Sub a.val b.val
  else do
    let difference ← u32Sub b.val a.val
    u32Sub MAX_CSEQ difference

theorem modulus_eq : u32Add MAX_CSEQ 1 = .ok (MAX_CSEQ + 1) := u32Add_of_le (by decide)

theorem wrappingIncrementU32_eq (c : CSeq) :
    c.wrappingIncrementU32 = .ok c.wrappingIncrement.val := by
  have hle : c.val + 1 ≤ u32Max := Nat.le_trans (Nat.succ_le_succ c.le_max) (by decide)
  rw [wrappingIncrementU32, u32Add_of_le hle, modulus_eq]
  rfl

theorem addU32_eq (a b : CSeq) : addU32 a b = .ok (a.add b).val := by
  have hle : a.val + b.val ≤ u32Max :=
    Nat.le_trans (Nat.add_le_add a.le_max b.le_max) (by decide)
  rw [addU32, u32Add_of_le hle, modulus_eq]
  rfl

theorem subU32_eq (a b : CSeq) : subU32 a b = .ok (a.sub b).val := by
  unfold subU32 sub
  dsimp only
  split
  · next h => exact u32Sub_of_le h
  · next h =>
    have hlt : a.val < b.val := Nat.not_le.mp h
    have hle : b.val - a.val ≤ MAX_CSEQ := Nat.le_trans (Nat.sub_le _ _) b.le_max
    rw [u32Sub_of_le (Nat.le_of_lt hlt), ok_bind, u32Sub_of_le hle]

/-! ## Differences -/

/-- The number that leads from `b` to `a`, and the only one. -/
def IsDifference (a b d : CSeq) : Prop := b.add d = a ∧ ∀ d', b.add d' = a → d' = d

/-- Addition counts on, so there is one difference. -/
theorem add_eq_iff : b.add d = a ↔ b.distance a = d.val := by
  have ha := a.le_max
  have hb := b.le_max
  have hd := d.le_max
  have hval : (b.add d).val = (b.val + d.val) % (MAX_CSEQ + 1) := rfl
  constructor
  · intro h
    rw [← h, distance, hval]
    unfold MAX_CSEQ at *
    omega
  · intro h
    apply ext
    rw [hval, ← h, distance]
    unfold MAX_CSEQ at *
    omega

theorem isDifference_iff : IsDifference a b d ↔ d.val = b.distance a := by
  constructor
  · intro h
    exact (add_eq_iff.mp h.1).symm
  · intro h
    refine ⟨add_eq_iff.mpr h.symm, fun d' hd' => ext ?_⟩
    rw [h, add_eq_iff.mp hd']

/-- **The subtraction inverts the addition where it does not pass zero**, and only there. -/
theorem sub_eq_distance_iff : (a.sub b).val = b.distance a ↔ b.val ≤ a.val := by
  rw [val_sub]
  constructor
  · intro h
    by_contra hlt
    -- The distance past zero is not zero, so one less is another number.
    rw [if_neg hlt, distance_eq, if_neg hlt] at h
    have hb := b.le_max
    omega
  · intro h
    rw [if_pos h]

theorem iterate_wrappingIncrement (b : CSeq) (n : Nat) : wrappingIncrement^[n] b = b.ahead n := by
  induction n with
  | zero => exact (ahead_zero b).symm
  | succ n ih => rw [Function.iterate_succ_apply', ih, wrappingIncrement_eq, ahead_ahead]

/-- After `n` increments that did not pass zero the difference is `n`. -/
theorem sub_ahead_iff (b : CSeq) (n : Nat) :
    ((b.ahead n).sub b).val = n ↔ b.val + n ≤ MAX_CSEQ := by
  have hb := b.le_max
  have hval : (b.ahead n).val = (b.val + n) % (MAX_CSEQ + 1) := rfl
  constructor
  · intro h
    have hn : n ≤ MAX_CSEQ := h ▸ ((b.ahead n).sub b).le_max
    by_contra hwraps
    have hwrapped : (b.ahead n).val = b.val + n - (MAX_CSEQ + 1) := by
      rw [hval]
      unfold MAX_CSEQ at *
      omega
    rw [val_sub, distance_eq, hwrapped] at h
    split at h <;> omega
  · intro h
    have hahead : (b.ahead n).val = b.val + n := hval.trans (Nat.mod_eq_of_lt (Nat.lt_succ_of_le h))
    have hle : b.val ≤ (b.ahead n).val := by omega
    rw [val_sub, if_pos hle, distance_eq, if_pos hle, hahead]
    omega

/-- **Subtraction is modular where it does not pass zero.** -/
theorem sub_modular (a b : CSeq) (n : Nat) :
    (b.wrappingIncrementU32 = .ok b.wrappingIncrement.val ∧ addU32 a b = .ok (a.add b).val ∧
      subU32 a b = .ok (a.sub b).val) ∧
    ((a.sub b).val = (a.val + 10 ^ 9 - b.val) % 10 ^ 9 ∧ IsDifference a b (a.sub b) ↔
      b.val ≤ a.val) ∧
    (((wrappingIncrement^[n] b).sub b).val = n ↔ b.val + n < 10 ^ 9) := by
  refine ⟨⟨wrappingIncrementU32_eq b, addU32_eq a b, subU32_eq a b⟩, ?_, ?_⟩
  · have hsame : (a.sub b).val = (a.val + 10 ^ 9 - b.val) % 10 ^ 9 ↔
        (a.sub b).val = b.distance a := Iff.rfl
    rw [hsame, isDifference_iff, and_self, sub_eq_distance_iff]
  · rw [iterate_wrappingIncrement, sub_ahead_iff]
    exact Nat.lt_succ_iff.symm

/-- Fifty less hundred is one short of what leads from hundred to fifty. -/
theorem sub_past_zero :
    let a : CSeq := ⟨50, by decide⟩
    let b : CSeq := ⟨100, by decide⟩
    (a.sub b).val = 999999949 ∧ (a.val + 10 ^ 9 - b.val) % 10 ^ 9 = 999999950 ∧
      (b.add (a.sub b)).val = 49 ∧ ((wrappingIncrement^[999999950] b).sub b).val ≠ 999999950 := by
  refine ⟨by decide, by decide, by decide, ?_⟩
  rw [iterate_wrappingIncrement]
  decide

end CSeq

end Rtsp
