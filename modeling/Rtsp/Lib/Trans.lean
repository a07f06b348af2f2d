import Mathlib.Data.List.Induction

/-!
# Labelled transition systems

A system is a relation between a state, the label of what happens next, and the
state after it. What holds at the start and is kept by every step holds after
every run (`Run.invariant`); what a step keeps may depend on what has happened
so far (`Run.history`). Where some step always leaves less to do, some run gets it
done (`Run.reaches`).

The labels are in the run because much is to be said of them: what has been sent, which
answers were given, that every step met a condition. A history is the list of labels so
far, and is no part of the state, so a system does not have to be changed to be
observed.

Runs are finite and grow at the end, so an induction on a run takes away the last step.
There is no fairness here. `Run.reaches` is about what is possible: from each state that
is not done some step can be chosen that leaves less to do.
-/

namespace Rtsp
namespace Lib

section Trans

variable {σ α : Type} {step : σ → α → σ → Prop}

/-- The labels of the steps that lead from one state to another, in order. -/
inductive Run (step : σ → α → σ → Prop) (s : σ) : List α → σ → Prop where
  | start : Run step s [] s
  | snoc {as s₁ a s₂} : Run step s as s₁ → step s₁ a s₂ → Run step s (as ++ [a]) s₂

/-- One run after the other. -/
theorem Run.append {s s₁ s' : σ} {as bs : List α} (h : Run step s as s₁)
    (h' : Run step s₁ bs s') : Run step s (as ++ bs) s' := by
  induction h' with
  | start => rwa [List.append_nil]
  | snoc _ hlast ih =>
    rw [← List.append_assoc]
    exact ih.snoc hlast

/-- **The rule of history invariants**: each step keeps what holds of the labels so far
    and the state they led to. -/
theorem Run.history {I : List α → σ → Prop} {s s' : σ} {as : List α} (h : Run step s as s')
    (hs : I [] s)
    (hstep : ∀ as s₁ a s₂, Run step s as s₁ → I as s₁ → step s₁ a s₂ → I (as ++ [a]) s₂) :
    I as s' := by
  induction h with
  | start => exact hs
  | snoc hrun hlast ih => exact hstep _ _ _ _ hrun ih hlast

/-- **The rule of invariants.** -/
theorem Run.invariant {I : σ → Prop} {s s' : σ} {as : List α} (h : Run step s as s') (hs : I s)
    (hstep : ∀ s₁ a s₂, I s₁ → step s₁ a s₂ → I s₂) : I s' :=
  h.history (I := fun _ => I) hs fun _ _ _ _ _ => hstep _ _ _

/-- A run of a system is a run of every system with at least its steps. -/
theorem Run.mono {step' : σ → α → σ → Prop} {s s' : σ} {as : List α} (h : Run step s as s')
    (hstep : ∀ s₁ a s₂, step s₁ a s₂ → step' s₁ a s₂) : Run step' s as s' := by
  induction h with
  | start => exact .start
  | snoc _ hlast ih => exact .snoc ih (hstep _ _ _ hlast)

/-- **The rule of progress**: where from each state that is not done yet some step keeps the
    invariant and leaves less to do, some run gets there. -/
theorem Run.reaches (I done : σ → Prop) (left : σ → Nat)
    (hstep : ∀ s₁, I s₁ → ¬ done s₁ → ∃ a s₂, step s₁ a s₂ ∧ I s₂ ∧ left s₂ < left s₁) {s : σ}
    (hs : I s) : ∃ as s', Run step s as s' ∧ I s' ∧ done s' := by
  induction hn : left s using Nat.strongRecOn generalizing s with
  | ind n ih =>
    by_cases hdone : done s
    · exact ⟨[], s, .start, hs, hdone⟩
    · obtain ⟨a, s₂, hfirst, hs₂, hless⟩ := hstep s hs hdone
      obtain ⟨as, s', hrun, hs', hdone'⟩ := ih (left s₂) (hn ▸ hless) hs₂ rfl
      exact ⟨_, s', (Run.snoc .start hfirst).append hrun, hs', hdone'⟩

/-- The last step of a run. -/
theorem Run.last {s s' : σ} {as : List α} {a : α} (h : Run step s (as ++ [a]) s') :
    ∃ s₁, Run step s as s₁ ∧ step s₁ a s' := by
  generalize hlabels : as ++ [a] = labels at h
  cases h with
  | start => simp at hlabels
  | snoc hrun hstep =>
    obtain ⟨rfl, ha⟩ := List.append_inj' hlabels rfl
    cases ha
    exact ⟨_, hrun, hstep⟩

/-- The state that labels lead to, where each step is computed. -/
def replay (exec : σ → α → Option σ) (s : σ) (as : List α) : Option σ := as.foldlM exec s

/-- What is computed is a run. -/
theorem Run.of_replay {exec : σ → α → Option σ} {s s' : σ} {as : List α}
    (hexec : ∀ s₁ a s₂, exec s₁ a = some s₂ → step s₁ a s₂) (h : replay exec s as = some s') :
    Run step s as s' := by
  induction as using List.reverseRecOn generalizing s' with
  | nil =>
    cases h
    exact .start
  | append_singleton as a ih =>
    rw [replay, List.foldlM_append] at h
    obtain ⟨s₁, hs₁, hlast⟩ := Option.bind_eq_some_iff.mp h
    refine .snoc (ih hs₁) (hexec s₁ a s' ?_)
    simpa using hlast

end Trans

end Lib
end Rtsp
