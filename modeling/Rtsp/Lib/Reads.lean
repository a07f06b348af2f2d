/-!
# Parsers that read off the front

A parser takes a part off the front of its input and returns a value with what is
left. `Reads p R` says which parts those are: `R c a rest` if `c` is read as `a`
where `rest` follows. Parsers look ahead, so what follows matters.

A reading is a relation on the part, its value and what follows. What follows is in it
because of parsers that take as much as they can: where a run of digits ends depends on
the character behind it, which is not part of it. `Reads p R` is an equivalence, so it
settles both what a parser accepts and where it stops, and sequences of parsers are
described by sequences of readings (`Reads.bind`).

Errors are told apart only as far as `Reads.bind_eq_error_iff` goes. It says where in
the input the second of two parsers failed, by what the first one reads in front.
-/

namespace Rtsp
namespace Lib

section Reads

variable {σ ε α β : Type}

abbrev Parser (σ ε α : Type) := List σ → Except ε (α × List σ)

/-- Which parts of its inputs a parser reads, as what, and in front of what. -/
abbrev Reading (σ α : Type) := List σ → α → List σ → Prop

def Reads (p : Parser σ ε α) (R : Reading σ α) : Prop :=
  ∀ s a rest, p s = .ok (a, rest) ↔ ∃ c, s = c ++ rest ∧ R c a rest

/-- One part, and then another. -/
def Reading.seq (R : Reading σ α) (S : α → Reading σ β) : Reading σ β := fun c b rest =>
  ∃ c₁ a c₂, c = c₁ ++ c₂ ∧ R c₁ a (c₂ ++ rest) ∧ S a c₂ b rest

/-- There is such a part at the front, with this behind it. -/
def Reading.Behind (R : Reading σ α) (P : α → List σ → Prop) (s : List σ) : Prop :=
  ∃ c a rest, s = c ++ rest ∧ R c a rest ∧ P a rest

theorem Reading.behind_or {R : Reading σ α} {P Q : α → List σ → Prop} {s : List σ} :
    R.Behind (fun a rest => P a rest ∨ Q a rest) s ↔ R.Behind P s ∨ R.Behind Q s := by
  constructor
  · rintro ⟨c, a, rest, hs, hR, h | h⟩
    · exact .inl ⟨c, a, rest, hs, hR, h⟩
    · exact .inr ⟨c, a, rest, hs, hR, h⟩
  · rintro (⟨c, a, rest, hs, hR, h⟩ | ⟨c, a, rest, hs, hR, h⟩)
    · exact ⟨c, a, rest, hs, hR, .inl h⟩
    · exact ⟨c, a, rest, hs, hR, .inr h⟩

theorem Reading.behind_seq {R : Reading σ α} {S : α → Reading σ β} {P : β → List σ → Prop}
    {s : List σ} : (R.seq S).Behind P s ↔ R.Behind (fun a => (S a).Behind P) s := by
  constructor
  · rintro ⟨c, b, rest, rfl, ⟨c₁, a, c₂, rfl, hR, hS⟩, h⟩
    exact ⟨c₁, a, c₂ ++ rest, List.append_assoc .., hR, c₂, b, rest, rfl, hS, h⟩
  · rintro ⟨c₁, a, t, rfl, hR, c₂, b, rest, rfl, hS, h⟩
    exact ⟨c₁ ++ c₂, b, rest, (List.append_assoc ..).symm, ⟨c₁, a, c₂, rfl, hR, hS⟩, h⟩

theorem Reading.behind_congr {R : Reading σ α} {P Q : α → List σ → Prop} {s : List σ}
    (h : ∀ c a rest, R c a rest → (P a rest ↔ Q a rest)) : R.Behind P s ↔ R.Behind Q s := by
  constructor
  · rintro ⟨c, a, rest, hs, hR, hP⟩
    exact ⟨c, a, rest, hs, hR, (h c a rest hR).mp hP⟩
  · rintro ⟨c, a, rest, hs, hR, hQ⟩
    exact ⟨c, a, rest, hs, hR, (h c a rest hR).mpr hQ⟩

theorem Reads.bind {p : Parser σ ε α} {R : Reading σ α} {q : α → Parser σ ε β}
    {S : α → Reading σ β} (hp : Reads p R) (hq : ∀ a, Reads (q a) (S a)) :
    Reads (fun s => p s >>= fun r => q r.1 r.2) (R.seq S) := by
  intro s b rest
  dsimp only
  constructor
  · intro h
    cases hr : p s with
    | error e =>
      rw [hr] at h
      cases h
    | ok r =>
      rw [hr] at h
      obtain ⟨c₁, rfl, hR⟩ := (hp s r.1 r.2).mp hr
      obtain ⟨c₂, heq, hS⟩ := (hq r.1 r.2 b rest).mp h
      rw [heq] at hR ⊢
      exact ⟨c₁ ++ c₂, (List.append_assoc ..).symm, c₁, r.1, c₂, rfl, hR, hS⟩
  · rintro ⟨c, rfl, c₁, a, c₂, rfl, hR, hS⟩
    have hfirst : p (c₁ ++ c₂ ++ rest) = .ok (a, c₂ ++ rest) :=
      (hp _ _ _).mpr ⟨c₁, List.append_assoc .., hR⟩
    rw [hfirst]
    exact (hq a _ b rest).mpr ⟨c₂, rfl, hS⟩

/-- A value that is made of what was read. -/
theorem Reads.map {p : Parser σ ε α} {R : Reading σ α} (hp : Reads p R) (f : α → β) :
    Reads (fun s => p s >>= fun r => .ok (f r.1, r.2))
      fun c b rest => ∃ a, R c a rest ∧ b = f a := by
  intro s b rest
  dsimp only
  constructor
  · intro h
    cases hr : p s with
    | error e =>
      rw [hr] at h
      cases h
    | ok r =>
      rw [hr] at h
      cases h
      obtain ⟨c, hs, hR⟩ := (hp s r.1 r.2).mp hr
      exact ⟨c, hs, r.1, hR, rfl⟩
  · rintro ⟨c, hs, a, hR, rfl⟩
    rw [(hp s a rest).mpr ⟨c, hs, hR⟩]
    rfl

/-- A parser that reads everything there is to read in some way. -/
theorem Reads.intro {p : Parser σ ε α} {R : Reading σ α}
    (hsound : ∀ s a rest, p s = .ok (a, rest) → ∃ c, s = c ++ rest ∧ R c a rest)
    (hcomplete : ∀ c a rest, R c a rest → p (c ++ rest) = .ok (a, rest)) : Reads p R := by
  intro s a rest
  constructor
  · exact hsound s a rest
  · rintro ⟨c, rfl, hR⟩
    exact hcomplete c a rest hR

/-- Where a sequence of two parsers fails: in the first, or in the second behind what the first
    reads. -/
theorem Reads.bind_eq_error_iff {p : Parser σ ε α} {R : Reading σ α} (hp : Reads p R)
    {f : α × List σ → Except ε β} {s : List σ} {e : ε} :
    (p s >>= f) = .error e ↔
      p s = .error e ∨ R.Behind (fun a rest => f (a, rest) = .error e) s := by
  cases hr : p s with
  | error e' =>
    refine ⟨fun h => .inl (by cases h; rfl), ?_⟩
    rintro (h | ⟨c, a, rest, hs, hR, -⟩)
    · cases h
      rfl
    · rw [(hp s a rest).mpr ⟨c, hs, hR⟩] at hr
      cases hr
  | ok r =>
    constructor
    · intro h
      obtain ⟨c, hs, hR⟩ := (hp s r.1 r.2).mp hr
      exact .inr ⟨c, r.1, r.2, hs, hR, h⟩
    · rintro (h | ⟨c, a, rest, hs, hR, h⟩)
      · cases h
      · rw [(hp s a rest).mpr ⟨c, hs, hR⟩] at hr
        cases hr
        exact h

/-- A parser that returns nothing but what is left. -/
def Leaves (p : List σ → Except ε (List σ)) (R : List σ → List σ → Prop) : Prop :=
  ∀ s rest, p s = .ok rest ↔ ∃ c, s = c ++ rest ∧ R c rest

theorem Leaves.bind {p : List σ → Except ε (List σ)} {R : List σ → List σ → Prop}
    {q : Parser σ ε β} {S : Reading σ β} (hp : Leaves p R) (hq : Reads q S) :
    Reads (fun s => p s >>= q) fun c b rest =>
      ∃ c₁ c₂, c = c₁ ++ c₂ ∧ R c₁ (c₂ ++ rest) ∧ S c₂ b rest := by
  intro s b rest
  dsimp only
  constructor
  · intro h
    cases hr : p s with
    | error e =>
      rw [hr] at h
      cases h
    | ok r =>
      rw [hr] at h
      obtain ⟨c₁, rfl, hR⟩ := (hp s r).mp hr
      obtain ⟨c₂, rfl, hS⟩ := (hq r b rest).mp h
      exact ⟨c₁ ++ c₂, (List.append_assoc ..).symm, c₁, c₂, rfl, hR, hS⟩
  · rintro ⟨c, rfl, c₁, c₂, rfl, hR, hS⟩
    have hfirst : p (c₁ ++ c₂ ++ rest) = .ok (c₂ ++ rest) :=
      (hp _ _).mpr ⟨c₁, List.append_assoc .., hR⟩
    rw [hfirst]
    exact (hq _ b rest).mpr ⟨c₂, rfl, hS⟩

end Reads
end Lib
end Rtsp
