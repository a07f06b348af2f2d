import Mathlib.Data.List.Forall2
import Mathlib.Logic.Relation

/-!
# What comes out of a channel

A channel that keeps order and loses nothing lets out one element for each of the
first ones that went in (`Follows`). Channels in a row are again such a channel
(`Follows.comp`), whatever each does to the elements that pass through it.

What is in the channel is not mentioned. It is the difference between the two lists,
less what has been kept or buffered on the way, and composing needs to know nothing of
it: that the first list is longer is all there is to say of elements that are still
under way.

The relation says what a channel does to an element. With channels in a row it is
composed, and can then be replaced by whatever it implies (`Follows.imp`), so that a
chain of five does not end in five existential quantifiers.
-/

namespace Rtsp
namespace Lib

section Follows

variable {α β γ : Type} {R S : α → β → Prop} {T : β → γ → Prop} {l l₁ : List α} {l' l₁' : List β}
  {l'' : List γ}

/-- The second list has, in order, an element for each of the first elements of the first list. -/
def Follows (R : α → β → Prop) (l : List α) (l' : List β) : Prop :=
  ∃ taken, taken <+: l ∧ List.Forall₂ R taken l'

theorem Follows.of_forall₂ (h : List.Forall₂ R l l') : Follows R l l' :=
  ⟨l, List.prefix_rfl, h⟩

/-- What passes unchanged, or through a function. -/
theorem Follows.of_map {f : α → β} (h : l' <+: l.map f) : Follows (fun a b => b = f a) l l' := by
  obtain ⟨taken, htaken, rfl⟩ := List.prefix_map_iff.mp h
  refine ⟨taken, htaken, List.forall₂_map_right_iff.mpr ?_⟩
  exact List.forall₂_same.mpr fun _ _ => rfl

theorem Follows.imp (h : Follows R l l') (hrel : ∀ a b, R a b → S a b) : Follows S l l' := by
  obtain ⟨taken, htaken, hpairs⟩ := h
  exact ⟨taken, htaken, hpairs.imp hrel⟩

theorem Follows.of_shorter (h : Follows R l l') (hshorter : l₁' <+: l') : Follows R l l₁' := by
  obtain ⟨taken, htaken, hpairs⟩ := h
  obtain ⟨more, rfl⟩ := hshorter
  have hfirst := List.forall₂_take_append taken l₁' more hpairs
  exact ⟨_, (List.take_prefix _ _).trans htaken, hfirst⟩

/-- Nothing is left in the channel. -/
theorem Follows.all (h : Follows R l l') (hlength : l.length ≤ l'.length) :
    List.Forall₂ R l l' := by
  obtain ⟨taken, htaken, hpairs⟩ := h
  have hsame : taken = l := htaken.eq_of_length_le (hpairs.length_eq ▸ hlength)
  exact hsame ▸ hpairs

/-- Each element that has come out has gone in, in the same place. -/
theorem Follows.source (h : Follows R l l') {i : Nat} {b : β} (hb : l'[i]? = some b) :
    ∃ a, l[i]? = some a ∧ R a b := by
  obtain ⟨taken, htaken, hpairs⟩ := h
  obtain ⟨hlt', rfl⟩ := List.getElem?_eq_some_iff.mp hb
  have hlt : i < taken.length := hpairs.length_eq ▸ hlt'
  exact ⟨taken[i], List.prefix_iff_getElem?.mp htaken i hlt, hpairs.get hlt hlt'⟩

theorem Follows.of_source
    (h : ∀ (i : Nat) b, l'[i]? = some b → ∃ a, l[i]? = some a ∧ R a b) : Follows R l l' := by
  have hlength : l'.length ≤ l.length := by
    cases hlast : l'.length with
    | zero => exact Nat.zero_le _
    | succ i =>
      have hlt : i < l'.length := hlast ▸ Nat.lt_succ_self i
      obtain ⟨a, ha, -⟩ := h i _ (List.getElem?_eq_getElem hlt)
      exact (List.getElem?_eq_some_iff.mp ha).1
  refine ⟨l.take l'.length, List.take_prefix _ _, List.forall₂_of_length_eq_of_get ?_ ?_⟩
  · rw [List.length_take, Nat.min_eq_left hlength]
  · intro i _ hi'
    obtain ⟨a, ha, hrel⟩ := h i _ (List.getElem?_eq_getElem hi')
    obtain ⟨_, rfl⟩ := List.getElem?_eq_some_iff.mp ha
    simpa using hrel

/-- What comes out, as such. -/
theorem Follows.with_mem (h : Follows R l l') : Follows (fun a b => R a b ∧ b ∈ l') l l' :=
  .of_source fun _ _ hb =>
    let ⟨a, ha, hrel⟩ := h.source hb
    ⟨a, ha, hrel, List.mem_of_getElem? hb⟩

/-- **One channel behind the other.** -/
theorem Follows.comp (h : Follows R l l') (h' : Follows T l' l'') :
    Follows (Relation.Comp R T) l l'' := by
  obtain ⟨taken', htaken', hpairs'⟩ := h'
  obtain ⟨taken, htaken, hpairs⟩ := h.of_shorter htaken'
  refine ⟨taken, htaken, ?_⟩
  clear htaken htaken'
  induction hpairs generalizing l'' with
  | nil =>
    cases hpairs'
    exact .nil
  | cons hfirst _ ih =>
    cases hpairs' with
    | cons hfirst' hrest' => exact .cons ⟨_, hfirst, hfirst'⟩ (ih hrest')

end Follows

end Lib
end Rtsp
