import Mathlib.Computability.Language
import Mathlib.Order.CompletePartialOrder

/-!
# Grammars

The operators of an augmented Backus-Naur form on languages. Sequence, choice and
repetition are the product, the sum and the star of `Language`.

Languages are those of Mathlib, ordered by inclusion, and its Kleene algebra does most
of what is wanted. A rule is written with operators, so that it can be held against a
text that has it in the usual notation, and there is no parser in it: whether a string
is in a language is a proposition, and in general not a decidable one.

The lemmas are of two kinds. Some put strings into a language, part by part; the others
bound a language by a star. To know which characters can occur in a rule, it is enough
to bound each of its parts by the star of a range (`char_le`, `mul_le_kstar` and the
like).
-/

namespace Rtsp.Lib.Abnf

open Computability

section Abnf

variable {α : Type} {a b l : Language α} {x y : List α}

/-- `[l]` -/
def opt (l : Language α) : Language α := 1 + l

/-- `1*l` -/
def plus (l : Language α) : Language α := l * l∗

/-- A range of characters. -/
def char (p : α → Bool) : Language α := {s | ∃ c, s = [c] ∧ p c = true}

theorem mem_opt_iff : x ∈ opt l ↔ x = [] ∨ x ∈ l := Iff.rfl

theorem nil_mem_opt : [] ∈ opt l := .inl rfl

theorem mem_opt (h : x ∈ l) : x ∈ opt l := .inr h

theorem mem_char {p : α → Bool} {c : α} (h : p c = true) : [c] ∈ char p := ⟨c, rfl, h⟩

theorem plus_le_kstar : plus l ≤ l∗ := mul_kstar_le_kstar

theorem append_mem_plus (hx : x ∈ l) (hy : y ∈ l∗) : x ++ y ∈ plus l :=
  Language.append_mem_mul hx hy

theorem append_mem_kstar (hx : x ∈ l) (hy : y ∈ l∗) : x ++ y ∈ l∗ :=
  plus_le_kstar (append_mem_plus hx hy)

theorem mem_plus (h : x ∈ l) : x ∈ plus l := by
  have hplus := append_mem_plus h (Language.nil_mem_kstar l)
  rwa [List.append_nil] at hplus

theorem mem_kstar (h : x ∈ l) : x ∈ l∗ := plus_le_kstar (mem_plus h)

/-! A repetition takes in whatever is made of what it takes in. -/

theorem mul_le_kstar (ha : a ≤ l∗) (hb : b ≤ l∗) : a * b ≤ l∗ :=
  (mul_le_mul' ha hb).trans_eq (kstar_mul_kstar l)

theorem kstar_le_kstar (ha : a ≤ l∗) : a∗ ≤ l∗ :=
  kstar_le_of_mul_le_left one_le_kstar (mul_le_kstar le_rfl ha)

theorem plus_le (ha : a ≤ l∗) : plus a ≤ l∗ := mul_le_kstar ha (kstar_le_kstar ha)

theorem opt_le (ha : a ≤ l∗) : opt a ≤ l∗ := add_le one_le_kstar ha

theorem pow_le_kstar (ha : a ≤ l∗) (n : Nat) : a ^ n ≤ l∗ := by
  induction n with
  | zero => exact one_le_kstar
  | succ n ih =>
    rw [pow_succ]
    exact mul_le_kstar ih ha

/-- All of the characters are in the range. -/
theorem mem_kstar_char {p : α → Bool} {s : List α} (h : ∀ c ∈ s, p c = true) : s ∈ (char p)∗ := by
  induction s with
  | nil => exact Language.nil_mem_kstar _
  | cons c s ih =>
    have hs := ih fun d hd => h d (List.mem_cons_of_mem c hd)
    exact append_mem_kstar (mem_char (h c (by simp))) hs

theorem char_le {p q : α → Bool} (h : ∀ c, p c = true → q c = true) : char p ≤ (char q)∗ := by
  rintro s ⟨c, rfl, hc⟩
  exact mem_kstar_char (by simpa using h c hc)

theorem forall_of_mem_kstar_char {p : α → Bool} {s : List α} (h : s ∈ (char p)∗) :
    ∀ c ∈ s, p c = true := by
  obtain ⟨L, rfl, hL⟩ := Language.mem_kstar.mp h
  intro c hc
  obtain ⟨t, ht, hct⟩ := List.mem_flatten.mp hc
  obtain ⟨d, rfl, hd⟩ := hL t ht
  rwa [List.mem_singleton.mp hct]

theorem forall_of_mem_plus_char {p : α → Bool} {s : List α} (h : s ∈ plus (char p)) :
    ∀ c ∈ s, p c = true :=
  forall_of_mem_kstar_char (plus_le_kstar h)

/-- Any number of parts and an optional end, where at least one of them was asked for. -/
theorem opt_parts : opt (plus a * opt b + b) = a∗ * opt b := by
  have hstar := Language.one_add_self_mul_kstar_eq_kstar a
  calc opt (plus a * opt b + b) = 1 + b + plus a * opt b := by
        rw [opt, add_comm (plus a * opt b), ← add_assoc]
    _ = (1 + a * a∗) * opt b := by rw [add_mul, one_mul, opt, plus]
    _ = a∗ * opt b := by rw [hstar]

end Abnf

end Rtsp.Lib.Abnf
