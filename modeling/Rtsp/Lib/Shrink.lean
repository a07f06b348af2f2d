/-!
# Passes that are repeated until they take nothing away

A loop that applies a pass to its state and compares the size with what it was
before, as `while s.len() != old { old = s.len(); s = pass(s) }` does. A pass does
not make the state larger, so the loop ends.

The loop compares sizes and not states, as comparing sizes is what such code does. That
a pass which takes nothing away changes nothing is therefore a hypothesis, where it is
needed; without it the loop still ends, and its result is some state that a pass leaves
as large as it is.

The size before the first pass is up to the caller and may happen to be the size of the
state, and then no pass is made. That is the second part of the measure.
-/

namespace Rtsp
namespace Lib

structure Pass (σ : Type) where
  size : σ → Nat
  run : σ → σ
  size_run : ∀ s, size (run s) ≤ size s

namespace Pass

variable {σ : Type} (p : Pass σ)

/-- The loop, with the size before the last pass. -/
def shrink (old : Nat) (s : σ) : σ :=
  if p.size s = old then s else shrink (p.size s) (p.run s)
termination_by 2 * p.size s + if p.size s = old then 0 else 1
decreasing_by
  have := p.size_run s
  split <;> omega

/-- What every pass keeps is kept by the loop. -/
theorem shrink_induction {P : σ → Prop} (hkept : ∀ s, P s → P (p.run s)) (old : Nat) (s : σ)
    (h : P s) : P (p.shrink old s) := by
  fun_induction shrink p old s with
  | case1 => exact h
  | case2 old s _ ih => exact ih (hkept s h)

/-- **The loop ends where a pass has nothing to take away**, if a pass that leaves the size as it
    was leaves everything as it was. -/
theorem run_shrink (hfixed : ∀ s, p.size (p.run s) = p.size s → p.run s = s) (s : σ) :
    p.run (p.shrink 0 s) = p.shrink 0 s := by
  -- The state is what a pass made of one of the size `old`, but at the very beginning.
  have hrun : ∀ old s, (p.size s = old → p.run s = s) →
      p.run (p.shrink old s) = p.shrink old s := by
    intro old s hs
    fun_induction shrink p old s with
    | case1 s => exact hs rfl
    | case2 old s _ ih =>
      apply ih
      intro hsize
      rw [hfixed s hsize, hfixed s hsize]
  apply hrun
  intro hempty
  apply hfixed
  have := p.size_run s
  omega

end Pass
end Lib
end Rtsp
