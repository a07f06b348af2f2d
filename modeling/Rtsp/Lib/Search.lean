/-!
# Searching the beginning of a list

What a bounded search of a prefix says once the list grows: `findIdx?` on the
first `n` elements, and the list of adjacent pairs (`windows2`) that a search
for a two-element separator runs over. The pairs are the interesting case: the
last element seen so far makes a new pair with the first one that arrives.

The lemmas come in pairs: what holds for a buffer that has enough elements, so that the
result is settled, and what is still open when it has not. For one element these are
`findIdx?_take_append` and its like. For pairs the boundary is off by one, and in the
open case the pair that decides is made half of the old elements and half of the new.
-/

namespace Rtsp
namespace Lib

section Search

variable {α : Type}

/-! ## Searching for one element -/

theorem take_append_of_le {n : Nat} {b t : List α} (h : n ≤ b.length) :
    (b ++ t).take n = b.take n := by
  rw [List.take_append, Nat.sub_eq_zero_of_le h, List.take_zero, List.append_nil]

/-- What was found stays found. -/
theorem findIdx?_take_append {p : α → Bool} {n i : Nat} {b t : List α}
    (h : (b.take n).findIdx? p = some i) : ((b ++ t).take n).findIdx? p = some i := by
  rw [List.take_append, List.findIdx?_append, h]
  rfl

theorem findIdx?_lt {p : α → Bool} {n i : Nat} {b : List α}
    (h : (b.take n).findIdx? p = some i) : i < b.length := by
  have := (List.findIdx?_eq_some_iff_getElem.mp h).1
  simp only [List.length_take] at this
  omega

/-- An element with nothing like it before it is found at its place. -/
theorem findIdx?_append_cons {p : α → Bool} {n : Nat} {b : List α} {a : α} {t : List α}
    (hb : ∀ x ∈ b, p x = false) (ha : p a = true) (hn : b.length < n) :
    ((b ++ a :: t).take n).findIdx? p = some b.length := by
  obtain ⟨k, rfl⟩ : ∃ k, n = b.length + (k + 1) := ⟨n - b.length - 1, by omega⟩
  rw [List.take_length_add_append, List.take_succ_cons, List.findIdx?_append,
    List.findIdx?_eq_none_iff.mpr hb, List.findIdx?_cons, ha]
  simp

/-! ## Adjacent pairs -/

/-- `windows(2)` -/
def windows2 : List α → List (α × α)
  | a :: b :: rest => (a, b) :: windows2 (b :: rest)
  | _ => []

@[simp] theorem windows2_nil : windows2 ([] : List α) = [] := rfl

@[simp] theorem windows2_singleton (a : α) : windows2 [a] = [] := rfl

@[simp] theorem windows2_cons_cons (a b : α) (rest : List α) :
    windows2 (a :: b :: rest) = (a, b) :: windows2 (b :: rest) := rfl

@[simp] theorem windows2_length (b : List α) : (windows2 b).length = b.length - 1 := by
  induction b with
  | nil => rfl
  | cons a b ih =>
    cases b with
    | nil => rfl
    | cons c b => simp only [windows2_cons_cons, List.length_cons, ih]; omega

/-- The pairs of a longer list: those seen already, and those from the last element on. -/
theorem windows2_append (b t : List α) (a : α) :
    windows2 (b ++ a :: t) = windows2 (b ++ [a]) ++ windows2 (a :: t) := by
  induction b with
  | nil => rfl
  | cons c b ih =>
    cases b with
    | nil => rfl
    | cons d b => simpa using ih

theorem windows2_prefix (b t : List α) : windows2 b <+: windows2 (b ++ t) := by
  rcases List.eq_nil_or_concat b with rfl | ⟨b, a, rfl⟩
  · simp
  · rw [List.concat_eq_append, List.append_assoc, List.singleton_append, windows2_append b t a]
    exact List.prefix_append _ _

/-- A pair is two neighbours. -/
theorem windows2_getElem? {b : List α} {i : Nat} {x y : α} :
    (windows2 b)[i]? = some (x, y) ↔ b[i]? = some x ∧ b[i + 1]? = some y := by
  induction b generalizing i with
  | nil => simp
  | cons a b ih =>
    cases b with
    | nil => simp
    | cons c b =>
      cases i with
      | zero => simp
      | succ i => simpa using ih

/-- The first `n` pairs are settled by `n + 1` elements. -/
theorem take_windows2_of_lt {n : Nat} {b t : List α} (h : n < b.length) :
    (windows2 (b ++ t)).take n = (windows2 b).take n := by
  obtain ⟨w, hw⟩ := windows2_prefix b t
  rw [← hw, take_append_of_le (by simp only [windows2_length]; omega)]

/-- With `n` elements the last of the first `n` pairs is still open: it is made by the
    next one. -/
theorem take_windows2_open {b t : List α} {a c : α} :
    (windows2 (b ++ [a] ++ c :: t)).take (b.length + 1) = windows2 (b ++ [a]) ++ [(a, c)] := by
  have hlen : (windows2 (b ++ [a])).length = b.length := by simp
  rw [List.append_assoc, List.singleton_append, windows2_append, windows2_cons_cons,
    List.take_append, hlen, Nat.add_sub_cancel_left, List.take_of_length_le (by omega)]
  simp

end Search

end Lib
end Rtsp
