/-!
# Resumable decoders

A resumable decoder is a step function over a state and the bytes buffered so
far. A step either asks for more input and changes nothing, or moves on past
some bytes (with or without a result), or fails for good. The driver appends a
chunk to the buffer and steps until it is asked for more input or fails.

The one thing such a driver owes its caller is that the cuts do not matter:
however the stream is split into chunks, the same results come out and the same
failure ends it. That is a property of the *step*: what it answers on a buffer
it must also answer on every longer one (`Steady`). `Feeds.drain` is the
theorem that pays for it: a feed that only meets steady configurations is the
drain of the whole stream, and `Drain.unique` then says there is only one.
-/

namespace Rtsp
namespace Lib

/-- What one step does with the bytes it can see. -/
inductive Step (σ α ε : Type) where
  /-- More input is needed; nothing is consumed and nothing changes. -/
  | need
  /-- `n` bytes are consumed without a result. -/
  | skip (s : σ) (n : Nat)
  /-- `n` bytes are consumed and a result comes out. -/
  | emit (s : σ) (n : Nat) (a : α)
  | fail (e : ε)
  deriving DecidableEq

/-- The same step under other names for states, results and failures. -/
def Step.map {σ σ' α α' ε ε' : Type} (f : σ → σ') (g : α → α') (h : ε → ε') :
    Step σ α ε → Step σ' α' ε'
  | .need => .need
  | .skip s n => .skip (f s) n
  | .emit s n a => .emit (f s) n (g a)
  | .fail e => .fail (h e)

section Map

variable {σ σ' α α' ε ε' : Type} {f : σ → σ'} {g : α → α'} {h : ε → ε'} {x : Step σ α ε}

theorem Step.map_eq_skip {s' : σ'} {n : Nat} (hx : x.map f g h = .skip s' n) :
    ∃ s, x = .skip s n ∧ f s = s' := by
  cases x with
  | skip s n' => cases hx; exact ⟨s, rfl, rfl⟩
  | _ => cases hx

theorem Step.map_eq_emit {s' : σ'} {n : Nat} {a' : α'} (hx : x.map f g h = .emit s' n a') :
    ∃ s a, x = .emit s n a ∧ f s = s' ∧ g a = a' := by
  cases x with
  | emit s n' a => cases hx; exact ⟨s, a, rfl, rfl, rfl⟩
  | _ => cases hx

theorem Step.map_eq_fail {e' : ε'} (hx : x.map f g h = .fail e') : ∃ e, x = .fail e ∧ h e = e' := by
  cases x with
  | fail e => cases hx; exact ⟨e, rfl, rfl⟩
  | _ => cases hx

end Map

section Resume

variable {β σ α ε : Type} (step : σ → List β → Step σ α ε)

/-- Stepping until more input is needed: `.ok` holds the state and the bytes left
    over, `.error` the failure. -/
inductive Drain : σ → List β → List α → Except ε (σ × List β) → Prop where
  | need {s b} : step s b = .need → Drain s b [] (.ok (s, b))
  | fail {s b e} : step s b = .fail e → Drain s b [] (.error e)
  | skip {s b s' n as o} : step s b = .skip s' n → Drain s' (b.drop n) as o → Drain s b as o
  | emit {s b s' n a as o} : step s b = .emit s' n a → Drain s' (b.drop n) as o →
      Drain s b (a :: as) o

/-- Appending the chunks one by one and draining after each, up to the first failure. -/
inductive Feeds : σ → List β → List (List β) → List α → Except ε (σ × List β) → Prop where
  | nil {s b} : Feeds s b [] [] (.ok (s, b))
  | chunk {s b s' b' c cs as as' o} : Drain step s (b ++ c) as (.ok (s', b')) →
      Feeds s' b' cs as' o → Feeds s b (c :: cs) (as ++ as') o
  | stop {s b c cs as e} : Drain step s (b ++ c) as (.error e) → Feeds s b (c :: cs) as (.error e)

/-- Steps that only skip, each from a configuration with `P`. -/
inductive Skips (P : σ → List β → Prop) : σ → List β → σ → List β → Prop where
  | refl {s b} : Skips P s b s b
  | head {s b s' n s₁ b₁} : P s b → step s b = .skip s' n → Skips P s' (b.drop n) s₁ b₁ →
      Skips P s b s₁ b₁

/-- No condition on the configurations of a run. -/
def Always (_ : σ) (_ : List β) : Prop := True

/-- The configurations a drain steps through. -/
inductive Visits : σ → List β → σ → List β → Prop where
  | here {s b} : Visits s b s b
  | skip {s b s' n s₁ b₁} : step s b = .skip s' n → Visits s' (b.drop n) s₁ b₁ → Visits s b s₁ b₁
  | emit {s b s' n a s₁ b₁} : step s b = .emit s' n a → Visits s' (b.drop n) s₁ b₁ →
      Visits s b s₁ b₁

/-- The configurations a feed steps through, each with the bytes of the stream
    that are still to come. -/
inductive Meets : σ → List β → List (List β) → σ → List β → List β → Prop where
  | here {s b c cs s₁ b₁} : Visits step s (b ++ c) s₁ b₁ → Meets s b (c :: cs) s₁ b₁ cs.flatten
  | later {s b c cs s' b' as s₁ b₁ t} : Drain step s (b ++ c) as (.ok (s', b')) →
      Meets s' b' cs s₁ b₁ t → Meets s b (c :: cs) s₁ b₁ t

/-- The step's answer on `b` stands when `t` is appended, unless it asked for more. -/
def Steady (s : σ) (b t : List β) : Prop :=
  step s b = .need ∨ step s (b ++ t) = step s b

/-- A step never consumes more than it was shown. -/
def Bounded : Prop :=
  ∀ s b s' n, (step s b = .skip s' n ∨ ∃ a, step s b = .emit s' n a) → n ≤ b.length

/-- Every step that moves on makes `μ` smaller. -/
def Decreasing (μ : σ → List β → Nat) : Prop :=
  ∀ s b s' n, (step s b = .skip s' n ∨ ∃ a, step s b = .emit s' n a) →
    μ s' (b.drop n) < μ s b

variable {step}

theorem Steady.eq {s : σ} {b t : List β} (h : Steady step s b t) (hn : step s b ≠ .need) :
    step s (b ++ t) = step s b := h.resolve_left hn

section Skips

variable {P : σ → List β → Prop}

theorem Skips.trans {s s₁ s₂ : σ} {b b₁ b₂ : List β} (h : Skips step P s b s₁ b₁)
    (h' : Skips step P s₁ b₁ s₂ b₂) : Skips step P s b s₂ b₂ := by
  induction h with
  | refl => exact h'
  | head hp hs _ ih => exact .head hp hs (ih h')

/-- One step, with the bytes behind it spelled out. -/
theorem Skips.single {s s' : σ} {b b' : List β} {n : Nat} (hp : P s b)
    (hs : step s b = .skip s' n) (hb : b.drop n = b') : Skips step P s b s' b' :=
  .head hp hs (hb ▸ .refl)

theorem Skips.drain {s s₁ : σ} {b b₁ : List β} {as : List α} {o : Except ε (σ × List β)}
    (h : Skips step P s b s₁ b₁) (hd : Drain step s₁ b₁ as o) : Drain step s b as o := by
  induction h with
  | refl => exact hd
  | head _ hs _ ih => exact .skip hs (ih hd)

theorem Skips.le {μ : σ → List β → Nat} (hμ : Decreasing step μ) {s s₁ : σ} {b b₁ : List β}
    (h : Skips step P s b s₁ b₁) : μ s₁ b₁ ≤ μ s b := by
  induction h with
  | refl => exact Nat.le_refl _
  | head _ hs _ ih => exact Nat.le_trans ih (Nat.le_of_lt (hμ _ _ _ _ (.inl hs)))

/-- Two runs of skips that go as far as they can end in one place. -/
theorem Skips.unique {Q : σ → List β → Prop} {s s₁ s₂ : σ} {b b₁ b₂ : List β}
    (h : Skips step P s b s₁ b₁) (h' : Skips step Q s b s₂ b₂)
    (h₁ : ∀ s' n, step s₁ b₁ ≠ .skip s' n) (h₂ : ∀ s' n, step s₂ b₂ ≠ .skip s' n) :
    s₁ = s₂ ∧ b₁ = b₂ := by
  induction h with
  | refl =>
    cases h' with
    | refl => exact ⟨rfl, rfl⟩
    | head _ hs => exact absurd hs (h₁ _ _)
  | head _ hs _ ih =>
    cases h' with
    | refl => exact absurd hs (h₂ _ _)
    | head _ hs' htail =>
      rw [hs] at hs'
      cases hs'
      exact ih htail h₁

/-- What is visited past a run of skips is on the run, where `P` holds, or behind it. -/
theorem Skips.visits_cases {s s₁ s₂ : σ} {b b₁ b₂ : List β} (h : Skips step P s b s₁ b₁)
    (hv : Visits step s b s₂ b₂) : P s₂ b₂ ∨ Visits step s₁ b₁ s₂ b₂ := by
  induction h with
  | refl => exact .inr hv
  | head hp hs _ ih =>
    cases hv with
    | here => exact .inl hp
    | skip hs' hv =>
      rw [hs] at hs'
      cases hs'
      exact ih hv
    | emit hs' => simp [hs] at hs'

end Skips

/-- A step that is another one on both buffers is steady where that one is. -/
theorem Steady.congr {step' : σ → List β → Step σ α ε} {s : σ} {b t : List β}
    (h : Steady step s b t) (hb : step' s b = step s b) (ht : step' s (b ++ t) = step s (b ++ t)) :
    Steady step' s b t := by
  unfold Steady
  rw [hb, ht]
  exact h

theorem Steady.map {σ' α' ε' : Type} {f : σ → σ'} {g : α → α'} {h : ε → ε'}
    {step' : σ' → List β → Step σ' α' ε'} {s : σ} {s' : σ'} {b t : List β}
    (hs : Steady step s b t) (hstep : ∀ b, step' s' b = (step s b).map f g h) :
    Steady step' s' b t := by
  rcases hs with hs | hs
  · exact .inl (by rw [hstep, hs]; rfl)
  · exact .inr (by rw [hstep, hstep, hs])

/-! ## A drain has one outcome -/

theorem Drain.unique {s : σ} {b : List β} {as as' : List α} {o o' : Except ε (σ × List β)}
    (h : Drain step s b as o) (h' : Drain step s b as' o') : as = as' ∧ o = o' := by
  induction h generalizing as' o' with
  | need hs => cases h' <;> simp_all
  | fail hs => cases h' <;> simp_all
  | skip hs _ ih =>
    cases h' with
    | skip hs' hd =>
      rw [hs] at hs'
      cases hs'
      exact ih hd
    | _ hs' => simp [hs] at hs'
  | emit hs _ ih =>
    cases h' with
    | emit hs' hd =>
      rw [hs] at hs'
      cases hs'
      obtain ⟨rfl, rfl⟩ := ih hd
      exact ⟨rfl, rfl⟩
    | _ hs' => simp [hs] at hs'

/-- What a drain stops at is a configuration that asks for more. -/
theorem Drain.stops {s s' : σ} {b b' : List β} {as : List α} {o : Except ε (σ × List β)}
    (h : Drain step s b as o) (ho : o = .ok (s', b')) : step s' b' = .need := by
  induction h with
  | need hs => cases ho; exact hs
  | fail hs => cases ho
  | skip _ _ ih => exact ih ho
  | emit _ _ ih => exact ih ho

/-! ## What a run keeps -/

section Invariant

variable {I : σ → Prop}
  (hI : ∀ s b s' n, (step s b = .skip s' n ∨ ∃ a, step s b = .emit s' n a) → I s → I s')

include hI

theorem Visits.invariant {s s₁ : σ} {b b₁ : List β} (h : Visits step s b s₁ b₁) (hs : I s) :
    I s₁ := by
  induction h with
  | here => exact hs
  | skip hstep _ ih => exact ih (hI _ _ _ _ (.inl hstep) hs)
  | emit hstep _ ih => exact ih (hI _ _ _ _ (.inr ⟨_, hstep⟩) hs)

theorem Drain.invariant {s s' : σ} {b b' : List β} {as : List α} {o : Except ε (σ × List β)}
    (h : Drain step s b as o) (ho : o = .ok (s', b')) (hs : I s) : I s' := by
  induction h with
  | need => cases ho; exact hs
  | fail => cases ho
  | skip hstep _ ih => exact ih ho (hI _ _ _ _ (.inl hstep) hs)
  | emit hstep _ ih => exact ih ho (hI _ _ _ _ (.inr ⟨_, hstep⟩) hs)

theorem Meets.invariant {s s₁ : σ} {b b₁ t : List β} {cs : List (List β)}
    (h : Meets step s b cs s₁ b₁ t) (hs : I s) : I s₁ := by
  induction h with
  | here hv => exact hv.invariant hI hs
  | later hd _ ih => exact ih (hd.invariant hI rfl hs)

end Invariant

theorem Visits.length_le {s s₁ : σ} {b b₁ : List β}
    (h : Visits step s b s₁ b₁) : b₁.length ≤ b.length := by
  induction h with
  | here => exact Nat.le_refl _
  | skip _ _ ih | emit _ _ ih => exact Nat.le_trans ih (by simp)

theorem Drain.length_le {s s' : σ} {b b' : List β} {as : List α} {o : Except ε (σ × List β)}
    (h : Drain step s b as o) (ho : o = .ok (s', b')) : b'.length ≤ b.length := by
  induction h with
  | need => cases ho; exact Nat.le_refl _
  | fail => cases ho
  | skip _ _ ih | emit _ _ ih => exact Nat.le_trans (ih ho) (by simp)

/-- No configuration of a feed has seen more than the stream. -/
theorem Meets.length_le {s s₁ : σ} {b b₁ t : List β} {cs : List (List β)}
    (h : Meets step s b cs s₁ b₁ t) : b₁.length + t.length ≤ b.length + cs.flatten.length := by
  induction h with
  | here hv =>
    have := hv.length_le
    simp only [List.length_append, List.flatten_cons] at this ⊢
    omega
  | later hd _ ih =>
    have := hd.length_le rfl
    simp only [List.length_append, List.flatten_cons] at this ⊢
    omega

/-! ## Draining a longer buffer -/

/-- A drain that met only steady configurations goes through on the longer buffer,
    and carries on from what it had left over. -/
theorem Drain.extend (hb : Bounded step) {s : σ} {b t : List β} {as : List α}
    {o : Except ε (σ × List β)} (h : Drain step s b as o)
    (hst : ∀ s₁ b₁, Visits step s b s₁ b₁ → Steady step s₁ b₁ t) :
    (∀ e, o = .error e → Drain step s (b ++ t) as (.error e)) ∧
      ∀ s' b' as' o', o = .ok (s', b') → Drain step s' (b' ++ t) as' o' →
        Drain step s (b ++ t) (as ++ as') o' := by
  induction h with
  | need hs =>
    refine ⟨fun e he => (by cases he), fun s' b' as' o' ho hd => ?_⟩
    cases ho
    exact hd
  | fail hs =>
    refine ⟨fun e he => ?_, fun s' b' as' o' ho => by cases ho⟩
    cases he
    have := (hst _ _ .here).eq (by simp [hs])
    exact .fail (this.trans hs)
  | skip hs _ ih =>
    have hstep := ((hst _ _ .here).eq (by simp [hs])).trans hs
    have hle := hb _ _ _ _ (.inl hs)
    have hdrop := @List.drop_append_of_le_length _ _ t _ hle
    obtain ⟨he, hk⟩ := ih fun s₁ b₁ hv => hst s₁ b₁ (.skip hs hv)
    exact ⟨fun e h => .skip hstep (hdrop ▸ he e h),
      fun s' b' as' o' ho hd => .skip hstep (hdrop ▸ hk s' b' as' o' ho hd)⟩
  | emit hs _ ih =>
    have hstep := ((hst _ _ .here).eq (by simp [hs])).trans hs
    have hle := hb _ _ _ _ (.inr ⟨_, hs⟩)
    have hdrop := @List.drop_append_of_le_length _ _ t _ hle
    obtain ⟨he, hk⟩ := ih fun s₁ b₁ hv => hst s₁ b₁ (.emit hs hv)
    exact ⟨fun e h => .emit hstep (hdrop ▸ he e h),
      fun s' b' as' o' ho hd => .emit hstep (hdrop ▸ hk s' b' as' o' ho hd)⟩

/-- **A feed is the drain of the whole stream**, as long as every configuration it
    meets is steady. -/
theorem Feeds.drain (hb : Bounded step) {s : σ} {b : List β} {cs : List (List β)}
    {as : List α} {o : Except ε (σ × List β)} (h : Feeds step s b cs as o)
    (hq : step s b = .need)
    (hst : ∀ s₁ b₁ t, Meets step s b cs s₁ b₁ t → Steady step s₁ b₁ t) :
    Drain step s (b ++ cs.flatten) as o := by
  induction h with
  | nil => simpa using Drain.need hq
  | @chunk s b s' b' c cs as as' o hd _ ih =>
    have htail := ih (hd.stops rfl) fun s₁ b₁ t hm => hst s₁ b₁ t (.later hd hm)
    have := (hd.extend hb (t := cs.flatten) fun s₁ b₁ hv => hst s₁ b₁ _ (.here hv)).2
    simpa using this _ _ _ _ rfl htail
  | @stop s b c cs as e hd =>
    have := (hd.extend hb (t := cs.flatten) fun s₁ b₁ hv => hst s₁ b₁ _ (.here hv)).1
    simpa using this e rfl

/-- A run goes nowhere from where more input is needed. -/
theorem Visits.of_need {s s₁ : σ} {b b₁ : List β} (h : Visits step s b s₁ b₁)
    (hs : step s b = .need) : s₁ = s ∧ b₁ = b := by
  cases h with
  | here => exact ⟨rfl, rfl⟩
  | skip hs' | emit hs' => simp [hs] at hs'

theorem Visits.of_emit {s s' s₁ : σ} {b b₁ : List β} {n : Nat} {a : α}
    (h : Visits step s b s₁ b₁) (hs : step s b = .emit s' n a) :
    (s₁ = s ∧ b₁ = b) ∨ Visits step s' (b.drop n) s₁ b₁ := by
  cases h with
  | here => exact .inl ⟨rfl, rfl⟩
  | skip hs' => simp [hs] at hs'
  | emit hs' hv =>
    rw [hs] at hs'
    cases hs'
    exact .inr hv

/-- What a drain stops at is visited. -/
theorem Drain.visits {s s' : σ} {b b' : List β} {as : List α} {o : Except ε (σ × List β)}
    (h : Drain step s b as o) (ho : o = .ok (s', b')) : Visits step s b s' b' := by
  induction h with
  | need => cases ho; exact .here
  | fail => cases ho
  | skip hs _ ih => exact .skip hs (ih ho)
  | emit hs _ ih => exact .emit hs (ih ho)

theorem Visits.trans {s s₁ s₂ : σ} {b b₁ b₂ : List β} (h : Visits step s b s₁ b₁)
    (h' : Visits step s₁ b₁ s₂ b₂) : Visits step s b s₂ b₂ := by
  induction h with
  | here => exact h'
  | skip hs _ ih => exact .skip hs (ih h')
  | emit hs _ ih => exact .emit hs (ih h')

/-- What is visited on a buffer is visited on the longer one, as long as the answers on
    the way stand. -/
theorem Visits.extend (hb : Bounded step) {s s₁ : σ} {b b₁ t : List β}
    (h : Visits step s b s₁ b₁)
    (hst : ∀ s₂ b₂, Visits step s (b ++ t) s₂ (b₂ ++ t) → Steady step s₂ b₂ t) :
    Visits step s (b ++ t) s₁ (b₁ ++ t) := by
  induction h with
  | here => exact .here
  | skip hs _ ih =>
    have hstep := ((hst _ _ .here).eq (by simp [hs])).trans hs
    have hdrop := @List.drop_append_of_le_length _ _ t _ (hb _ _ _ _ (.inl hs))
    exact .skip hstep (hdrop ▸ ih fun s₂ b₂ hv => hst s₂ b₂ (.skip hstep (hdrop ▸ hv)))
  | emit hs _ ih =>
    have hstep := ((hst _ _ .here).eq (by simp [hs])).trans hs
    have hdrop := @List.drop_append_of_le_length _ _ t _ (hb _ _ _ _ (.inr ⟨_, hs⟩))
    exact .emit hstep (hdrop ▸ ih fun s₂ b₂ hv => hst s₂ b₂ (.emit hstep (hdrop ▸ hv)))

/-- What a feed meets, the drain of the whole stream visits. -/
theorem Meets.visits (hb : Bounded step) {s s₁ : σ} {b b₁ t : List β} {cs : List (List β)}
    (h : Meets step s b cs s₁ b₁ t)
    (hst : ∀ s₂ b₂ t, Visits step s (b ++ cs.flatten) s₂ (b₂ ++ t) → Steady step s₂ b₂ t) :
    Visits step s (b ++ cs.flatten) s₁ (b₁ ++ t) := by
  induction h with
  | here hv =>
    rw [List.flatten_cons, ← List.append_assoc] at hst ⊢
    exact hv.extend hb fun s₂ b₂ => hst s₂ b₂ _
  | later hd _ ih =>
    rw [List.flatten_cons, ← List.append_assoc] at hst ⊢
    have hfirst := (hd.visits rfl).extend hb fun s₂ b₂ => hst s₂ b₂ _
    exact hfirst.trans (ih fun s₂ b₂ t hv => hst s₂ b₂ t (hfirst.trans hv))

/-- **Draining the whole stream tells what every feed of it does**, if the drain visits
    only configurations whose answers stood on the bytes before. -/
theorem Feeds.eq_of_drain (hb : Bounded step) {s : σ} {b : List β} {cs : List (List β)}
    {as as' : List α} {o o' : Except ε (σ × List β)} (h : Feeds step s b cs as o)
    (hd : Drain step s (b ++ cs.flatten) as' o') (hq : step s b = .need)
    (hst : ∀ s₁ b₁ t, Visits step s (b ++ cs.flatten) s₁ (b₁ ++ t) → Steady step s₁ b₁ t) :
    as = as' ∧ o = o' :=
  (h.drain hb hq fun s₁ b₁ t hm => hst s₁ b₁ t (hm.visits hb hst)).unique hd

/-- A drain of the longer buffer begins with the drain of the shorter one, if the answers
    on the way stand. -/
theorem Drain.split (hb : Bounded step) {s : σ} {b t : List β} {as as' : List α}
    {o : Except ε (σ × List β)} {r : σ × List β} (h : Drain step s b as o)
    (hd : Drain step s (b ++ t) as' (.ok r))
    (hst : ∀ s₁ b₁, Visits step s b s₁ b₁ → Steady step s₁ b₁ t) :
    ∃ s₁ b₁ as₁, o = .ok (s₁, b₁) ∧ as' = as ++ as₁ ∧ Drain step s₁ (b₁ ++ t) as₁ (.ok r) := by
  induction h generalizing as' with
  | need => exact ⟨_, _, as', rfl, rfl, hd⟩
  | fail hs =>
    have hstep := ((hst _ _ .here).eq (by simp [hs])).trans hs
    cases hd <;> simp_all
  | skip hs _ ih =>
    have hstep := ((hst _ _ .here).eq (by simp [hs])).trans hs
    have hdrop := @List.drop_append_of_le_length _ _ t _ (hb _ _ _ _ (.inl hs))
    cases hd with
    | skip hs' hd =>
      rw [hstep] at hs'
      cases hs'
      exact ih (hdrop ▸ hd) fun s₁ b₁ hv => hst s₁ b₁ (.skip hs hv)
    | _ hs' => simp [hstep] at hs'
  | emit hs _ ih =>
    have hstep := ((hst _ _ .here).eq (by simp [hs])).trans hs
    have hdrop := @List.drop_append_of_le_length _ _ t _ (hb _ _ _ _ (.inr ⟨_, hs⟩))
    cases hd with
    | emit hs' hd =>
      rw [hstep] at hs'
      cases hs'
      obtain ⟨s₁, b₁, as₁, ho, rfl, hrest⟩ :=
        ih (hdrop ▸ hd) fun s₁ b₁ hv => hst s₁ b₁ (.emit hs hv)
      exact ⟨s₁, b₁, as₁, ho, rfl, hrest⟩
    | _ hs' => simp [hstep] at hs'

/-- **A feed of the first part of a stream is the first part of the drain of the whole**,
    if that drain does not fail and visits only configurations whose answers stood. -/
theorem Feeds.split (hb : Bounded step) {s : σ} {b rest : List β} {cs : List (List β)}
    {as as' : List α} {o : Except ε (σ × List β)} {r : σ × List β} (h : Feeds step s b cs as o)
    (hd : Drain step s (b ++ (cs.flatten ++ rest)) as' (.ok r))
    (hst : ∀ s₁ b₁ t, Visits step s (b ++ (cs.flatten ++ rest)) s₁ (b₁ ++ t) →
      Steady step s₁ b₁ t) :
    ∃ s₁ b₁ as₁, o = .ok (s₁, b₁) ∧ as' = as ++ as₁ ∧
      Drain step s₁ (b₁ ++ rest) as₁ (.ok r) := by
  induction h generalizing as' with
  | nil => exact ⟨_, _, as', rfl, rfl, hd⟩
  | @chunk s b s' b' c cs as₁ as₂ o hfirst _ ih =>
    rw [List.flatten_cons, List.append_assoc, ← List.append_assoc] at hd hst
    have hsteady : ∀ s₁ b₁, Visits step s (b ++ c) s₁ b₁ →
        Steady step s₁ b₁ (cs.flatten ++ rest) := fun s₁ b₁ hv =>
      hst s₁ b₁ _ (hv.extend hb fun s₂ b₂ => hst s₂ b₂ _)
    obtain ⟨s₁, b₁, as₃, ho, rfl, hd'⟩ := hfirst.split hb hd hsteady
    cases ho
    have hvisits := (hfirst.visits rfl).extend hb fun s₂ b₂ => hst s₂ b₂ (cs.flatten ++ rest)
    obtain ⟨s₂, b₂, as₄, ho, rfl, hrest⟩ := ih hd' fun s₂ b₂ t hv => hst s₂ b₂ t (hvisits.trans hv)
    exact ⟨s₂, b₂, as₄, ho, (List.append_assoc ..).symm, hrest⟩
  | @stop s b c cs as₁ e hfirst =>
    rw [List.flatten_cons, List.append_assoc, ← List.append_assoc] at hd hst
    obtain ⟨s₁, b₁, as₃, ho, -⟩ := hfirst.split hb hd fun s₁ b₁ hv =>
      hst s₁ b₁ _ (hv.extend hb fun s₂ b₂ => hst s₂ b₂ _)
    cases ho

/-- **The cuts do not matter.** Two feeds of one stream that meet only steady
    configurations give the same results, the same failure and, when there is
    none, stop in the same state with the same bytes left over. -/
theorem Feeds.unique (hb : Bounded step) {s : σ} {b : List β} {cs ds : List (List β)}
    {as as' : List α} {o o' : Except ε (σ × List β)} (h : Feeds step s b cs as o)
    (h' : Feeds step s b ds as' o') (hcut : cs.flatten = ds.flatten) (hq : step s b = .need)
    (hst : ∀ s₁ b₁ t, Meets step s b cs s₁ b₁ t → Steady step s₁ b₁ t)
    (hst' : ∀ s₁ b₁ t, Meets step s b ds s₁ b₁ t → Steady step s₁ b₁ t) :
    as = as' ∧ o = o' :=
  (h.drain hb hq hst).unique (hcut ▸ h'.drain hb hq hst')

end Resume

end Lib
end Rtsp
