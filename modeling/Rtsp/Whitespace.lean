import Rtsp.Lib.Shrink
import Rtsp.Str

/-!
# Trimming whitespace

`trim_whitespace` of `syntax.rs`: a space, a tab and a `CRLF` are whitespace, a
`CR` or an `LF` on its own is not. The code alternates between the two kinds
until nothing is left to trim; what that comes to is `trimUnits`, which goes over
the string once.

The string is trimmed from the left and then, in the same way, from the right. For the
right side the model reads the string backwards, with `CR` and `LF` in the other order,
so that one set of lemmas does for both.

The loop compares lengths in bytes to see whether a pass took something away. That it
ends is a property of `Pass`; that it ends where no whitespace is left is shown through
`trimUnits`, which has no passes and could not be mistaken for the code.
-/

namespace Rtsp
namespace Syntax

open Lib

/-- `|c| c == ' ' || c == '\t'` -/
def isBlank (c : Char) : Bool := c == ' ' || c == '\t'

section Units

variable {α : Type} [DecidableEq α] (blank : α → Bool) (a b : α)

/-- `trim_start_matches` of the string of `a` and `b` -/
def trimStartPair : List α → List α
  | x :: y :: s => if x = a ∧ y = b then trimStartPair s else x :: y :: s
  | s => s

/-- The body of the loop of `trim_whitespace_left`. -/
def trimPass (s : List α) : List α := (trimStartPair a b s).dropWhile blank

/-- The longest prefix of blanks and of `a` with `b` behind it is taken away. -/
def trimUnits : List α → List α
  | [] => []
  | [x] => if blank x then [] else [x]
  | x :: y :: s =>
    if blank x then trimUnits (y :: s)
    else if x = a ∧ y = b then trimUnits s
    else x :: y :: s

theorem trimStartPair_suffix (s : List α) : trimStartPair a b s <:+ s := by
  fun_induction trimStartPair a b s with
  | case1 x y s _ ih => exact ih.trans ⟨[x, y], rfl⟩
  | case2 => exact List.suffix_rfl
  | case3 => exact List.suffix_rfl

theorem trimPass_suffix (s : List α) : trimPass blank a b s <:+ s :=
  (List.dropWhile_suffix blank).trans (trimStartPair_suffix a b s)

variable {blank a b}

theorem trimUnits_of_blank {x : α} (s : List α) (hx : blank x = true) :
    trimUnits blank a b (x :: s) = trimUnits blank a b s := by
  cases s with
  | nil => simp [trimUnits, hx]
  | cons y s => simp [trimUnits, hx]

theorem trimUnits_of_pair (s : List α) (ha : blank a = false) :
    trimUnits blank a b (a :: b :: s) = trimUnits blank a b s := by
  simp [trimUnits, ha]

theorem trimUnits_trimStartPair (s : List α) (ha : blank a = false) :
    trimUnits blank a b (trimStartPair a b s) = trimUnits blank a b s := by
  fun_induction trimStartPair a b s with
  | case1 x y s hxy ih => rw [ih, hxy.1, hxy.2, trimUnits_of_pair s ha]
  | case2 => rfl
  | case3 => rfl

theorem trimUnits_dropWhile (s : List α) :
    trimUnits blank a b (s.dropWhile blank) = trimUnits blank a b s := by
  induction s with
  | nil => rfl
  | cons x s ih =>
    rw [List.dropWhile_cons]
    split
    · next hx => rw [ih, trimUnits_of_blank s hx]
    · rfl

/-- A pass takes away nothing but whitespace. -/
theorem trimUnits_trimPass (s : List α) (ha : blank a = false) :
    trimUnits blank a b (trimPass blank a b s) = trimUnits blank a b s := by
  rw [trimPass, trimUnits_dropWhile, trimUnits_trimStartPair s ha]

/-- Where there is no whitespace in front there is nothing to trim. -/
theorem trimUnits_of_front {s : List α} (hblank : ∀ x t, s = x :: t → blank x = false)
    (hpair : ∀ t, s ≠ a :: b :: t) : trimUnits blank a b s = s := by
  match s with
  | [] => rfl
  | [x] => simp [trimUnits, hblank x [] rfl]
  | x :: y :: t =>
    have hnot : ¬ (x = a ∧ y = b) := by
      rintro ⟨rfl, rfl⟩
      exact hpair t rfl
    rw [trimUnits, hblank x _ rfl, if_neg Bool.false_ne_true, if_neg hnot]

/-- A pass that takes nothing away has no whitespace in front of it. -/
theorem trimUnits_of_trimPass {s : List α} (h : trimPass blank a b s = s) :
    trimUnits blank a b s = s := by
  -- Both halves of the pass take nothing away.
  have hpair : trimStartPair a b s = s := by
    apply (trimStartPair_suffix a b s).eq_of_length_le
    have hlen := (List.dropWhile_suffix (l := trimStartPair a b s) blank).length_le
    rw [← trimPass, h] at hlen
    exact hlen
  have hblank : s.dropWhile blank = s := by
    rwa [trimPass, hpair] at h
  apply trimUnits_of_front
  · rintro x t rfl
    by_cases hx : blank x = true
    · rw [List.dropWhile_cons_of_pos hx] at hblank
      have hlen := (List.dropWhile_suffix (l := t) blank).length_le
      rw [hblank, List.length_cons] at hlen
      exact absurd hlen (Nat.not_succ_le_self _)
    · exact Bool.eq_false_iff.mpr hx
  · rintro t rfl
    rw [trimStartPair, if_pos ⟨rfl, rfl⟩] at hpair
    have hlen := (trimStartPair_suffix a b t).length_le
    rw [hpair, List.length_cons, List.length_cons] at hlen
    omega

/-- What a pass has to do for its repetition to trim. -/
structure Trims (blank : α → Bool) (a b : α) (run : List α → List α) : Prop where
  suffix : ∀ s, run s <:+ s
  /-- It takes away nothing but whitespace. -/
  units : ∀ s, trimUnits blank a b (run s) = trimUnits blank a b s
  /-- It takes something away as long as there is whitespace. -/
  fixed : ∀ s, run s = s → trimUnits blank a b s = s

theorem trims_trimPass (ha : blank a = false) : Trims blank a b (trimPass blank a b) where
  suffix := trimPass_suffix blank a b
  units s := trimUnits_trimPass s ha
  fixed _ h := trimUnits_of_trimPass h

/-- **Passes that are repeated until they take nothing away trim**, be it at the front or, where
    `view` reads backwards, at the end. -/
theorem Trims.shrink_eq {σ : Type} {run : List α → List α} (h : Trims blank a b run) (p : Pass σ)
    (view : σ → List α) (hrun : ∀ s, view (p.run s) = run (view s))
    (hsize : ∀ s s', view s <:+ view s' → p.size s = p.size s' → s = s') (s : σ) :
    view (p.shrink 0 s) = trimUnits blank a b (view s) := by
  have hfixed : p.run (p.shrink 0 s) = p.shrink 0 s := by
    refine p.run_shrink (fun t hlen => hsize _ _ ?_ hlen) s
    rw [hrun]
    exact h.suffix (view t)
  have hunits : trimUnits blank a b (view (p.shrink 0 s)) = trimUnits blank a b (view s) := by
    refine p.shrink_induction (P := fun t => trimUnits blank a b (view t) = _)
      (fun t ht => ?_) 0 s rfl
    rw [← ht, hrun, h.units]
  have hfixed := congrArg view hfixed
  rw [hrun] at hfixed
  rw [← hunits, h.fixed _ hfixed]

end Units

/-! ## The code's loops -/

/-- A sublist is no longer in bytes either. -/
theorem len_le_of_suffix {s t : Str} (h : s <:+ t) : Str.len s ≤ Str.len t := by
  obtain ⟨pre, rfl⟩ := h
  rw [Str.len_append]
  exact Nat.le_add_left _ _

theorem eq_of_suffix_of_len {s t : Str} (h : s <:+ t) (hlen : Str.len s = Str.len t) : s = t := by
  obtain ⟨pre, rfl⟩ := h
  cases pre with
  | nil => rfl
  | cons c pre =>
    have hpos := Str.len_pos (c := c) pre
    rw [Str.len_append] at hlen
    omega

/-- The loop of `trim_whitespace_left` -/
def passLeft : Pass Str where
  size := Str.len
  run := trimPass isBlank '\r' '\n'
  size_run s := len_le_of_suffix (trimPass_suffix isBlank '\r' '\n' s)

def trimWhitespaceLeft (s : Str) : Str := passLeft.shrink 0 s

theorem len_reverse (s : Str) : Str.len s.reverse = Str.len s := by
  simp [Str.len, List.sum_reverse]

/-- The loop of `trim_whitespace_right`. Matches at the end are those of the string read
    backwards. -/
def passRight : Pass Str where
  size := Str.len
  run s := (trimPass isBlank '\n' '\r' s.reverse).reverse
  size_run s := by
    rw [len_reverse, ← len_reverse s]
    exact len_le_of_suffix (trimPass_suffix isBlank '\n' '\r' s.reverse)

def trimWhitespaceRight (s : Str) : Str := passRight.shrink 0 s

/-- `trim_whitespace` -/
def trimWhitespace (s : Str) : Str := trimWhitespaceRight (trimWhitespaceLeft s)

theorem trimWhitespaceLeft_eq (s : Str) :
    trimWhitespaceLeft s = trimUnits isBlank '\r' '\n' s := by
  have htrims : Trims isBlank '\r' '\n' (trimPass isBlank '\r' '\n') := trims_trimPass (by decide)
  exact htrims.shrink_eq passLeft id (fun _ => rfl) (fun _ _ => eq_of_suffix_of_len) s

theorem trimWhitespaceRight_eq (s : Str) :
    trimWhitespaceRight s = (trimUnits isBlank '\n' '\r' s.reverse).reverse := by
  have htrims : Trims isBlank '\n' '\r' (trimPass isBlank '\n' '\r') := trims_trimPass (by decide)
  have hsize : ∀ t t' : Str, t.reverse <:+ t'.reverse → Str.len t = Str.len t' → t = t' := by
    intro t t' hsuffix hlen
    rw [← len_reverse t, ← len_reverse t'] at hlen
    exact List.reverse_inj.mp (eq_of_suffix_of_len hsuffix hlen)
  rw [← htrims.shrink_eq passRight List.reverse
    (fun t => List.reverse_reverse (trimPass isBlank '\n' '\r' t.reverse)) hsize s,
    List.reverse_reverse]
  rfl

/-! ## Words -/

/-- A text without whitespace, and without what can be a part of it. -/
def IsWord (s : Str) : Prop := ∀ c ∈ s, isBlank c = false ∧ c ≠ '\r' ∧ c ≠ '\n'

theorem trimUnits_of_head {α : Type} [DecidableEq α] {blank : α → Bool} {a b x : α} (s : List α)
    (hx : blank x = false) (hne : x ≠ a) : trimUnits blank a b (x :: s) = x :: s := by
  cases s with
  | nil => simp [trimUnits, hx]
  | cons y s => simp [trimUnits, hx, hne]

theorem trimUnits_word {s : Str} {a b : Char} (h : IsWord s) (ha : a = '\r' ∨ a = '\n') :
    trimUnits isBlank a b s = s := by
  cases s with
  | nil => rfl
  | cons c s =>
    obtain ⟨hblank, hcr, hlf⟩ := h c (by simp)
    apply trimUnits_of_head s hblank
    rintro rfl
    rcases ha with ha | ha
    · exact hcr ha
    · exact hlf ha

theorem trimWhitespaceRight_word {s : Str} (h : IsWord s) : trimWhitespaceRight s = s := by
  have hreverse : IsWord s.reverse := fun c hc => h c (List.mem_reverse.mp hc)
  rw [trimWhitespaceRight_eq, trimUnits_word hreverse (.inr rfl), List.reverse_reverse]

/-- There is nothing to trim at a word. -/
theorem trimWhitespace_word {s : Str} (h : IsWord s) : trimWhitespace s = s := by
  rw [trimWhitespace, trimWhitespaceLeft_eq, trimUnits_word h (.inl rfl),
    trimWhitespaceRight_word h]

/-- The space in front of a word is trimmed. -/
theorem trimWhitespace_space_word {s : Str} (h : IsWord s) : trimWhitespace (' ' :: s) = s := by
  rw [trimWhitespace, trimWhitespaceLeft_eq, trimUnits_of_blank s (by decide),
    trimUnits_word h (.inl rfl), trimWhitespaceRight_word h]

/-- A character of a token is one of the token's bytes. -/
theorem not_mem_ofAscii {bs : Bytes} {c : Byte} (h : isToken bs = true)
    (hc : isTokenChar c = false) : Char.ofUInt8 c ∉ Str.ofAscii bs := by
  intro hmem
  obtain ⟨b, hb, heq⟩ := List.mem_map.mp hmem
  have hnat : b.toNat = c.toNat := congrArg Char.toNat heq
  rw [UInt8.toNat_inj.mp hnat] at hb
  exact isToken_not_mem h hc hb

theorem isWord_of_isToken {bs : Bytes} (h : isToken bs = true) : IsWord (Str.ofAscii bs) := by
  intro c hc
  have hnot : ∀ b, isTokenChar b = false → c ≠ Char.ofUInt8 b := by
    rintro b hb rfl
    exact not_mem_ofAscii h hb hc
  have hspace : c ≠ ' ' := hnot SP (by decide)
  have htab : c ≠ '\t' := hnot HT (by decide)
  exact ⟨by simp [isBlank, hspace, htab], hnot CR (by decide), hnot LF (by decide)⟩

end Syntax
end Rtsp
