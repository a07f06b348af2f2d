import Rtsp.Header.Common.Gaps

/-!
# What is read as digits

`parse_2_digit_number` and `parse_day` of `date.rs`. Each is given by the texts it takes
off (`TwoDigits`, `DayText`) and the number it makes of them, and by `Reads`, which says
that it takes off these texts and no others. That is all a caller is to know of a
parser; none of the modules behind this one unfolds it.

A reading is a relation of three arguments, the text, its value and what follows it, and
for a day the last one matters: one digit is a day only if no digit stands behind it,
since the parser looks at the next character and takes it if it can. Behind two digits
it does not look any further, and `"10000"` is the day 10 with `"000"` left over (a test
of `date.rs`).

That a number is a day of some month, or an hour, is not said here and not checked by
these functions. It is `chrono` that refuses the 45th.
-/

namespace Rtsp.Common

open Syntax Lib

/-- The value of a digit. -/
def digitValue (c : Char) : Nat := c.toNat - 48

theorem toDigit_eq_some_iff {c : Char} {d : Nat} :
    toDigit c = some d ↔ c.isDigit = true ∧ d = digitValue c := by
  unfold toDigit
  split
  · next h => simp [h, digitValue, eq_comm]
  · next h => simp [h]

theorem toDigit_of_isDigit {c : Char} (h : c.isDigit = true) : toDigit c = some (digitValue c) :=
  toDigit_eq_some_iff.mpr ⟨h, rfl⟩

theorem toDigit_eq_none {c : Char} (h : c.isDigit = false) : toDigit c = none := by
  simp [toDigit, h]

theorem digitValue_le {c : Char} (h : c.isDigit = true) : digitValue c ≤ 9 := by
  have h := (Char.isDigit_iff_toNat.mp h).2
  have hnine : '9'.toNat = 57 := rfl
  unfold digitValue
  omega

theorem u32_of_le {n : Nat} (h : n ≤ 99) : u32 n = .ok n :=
  if_pos (Nat.le_trans h (by decide))

theorem i32_of_le {n : Int} (hlo : -2 ^ 31 ≤ n) (hhi : n ≤ i32Max) : i32 n = .ok n :=
  if_pos ⟨hlo, hhi⟩

theorem splitAt_digits {a rest : Str} {n : Nat} (h : ∀ c ∈ a, c.isDigit = true)
    (hn : a.length = n) : splitAt (a ++ rest) n = .ok (a, rest) := by
  have hlen : Str.len a = n := by
    rw [Str.len_of_ascii fun c hc => ?_, hn]
    exact Nat.lt_of_le_of_lt (Char.isDigit_iff_toNat.mp (h c hc)).2 (by decide)
  rw [← hlen, splitAt_len]

/-- Two digits. -/
def TwoDigits : Reading Char Nat := fun c n _ =>
  ∃ x y, c = [x, y] ∧ x.isDigit = true ∧ y.isDigit = true ∧ n = digitValue x * 10 + digitValue y

/-- One digit with no other behind it, or two. -/
def DayText : Reading Char Nat := fun c n rest =>
  (∃ x, c = [x] ∧ x.isDigit = true ∧ startsWith Char.isDigit rest = false ∧ n = digitValue x) ∨
    TwoDigits c n rest

theorem head?_bind_toDigit (chars : Str) :
    (startsWith Char.isDigit chars = false ∧ chars.head?.bind toDigit = none) ∨
      ∃ y rest, chars = y :: rest ∧ y.isDigit = true ∧
        chars.head?.bind toDigit = some (digitValue y) := by
  cases chars with
  | nil => exact .inl ⟨rfl, rfl⟩
  | cons y rest =>
    by_cases hy : y.isDigit = true
    · exact .inr ⟨y, rest, rfl, hy, toDigit_of_isDigit hy⟩
    · exact .inl ⟨Bool.eq_false_iff.mpr hy, toDigit_eq_none (Bool.eq_false_iff.mpr hy)⟩

theorem twoDigits_le {x y : Char} (hx : x.isDigit = true) (hy : y.isDigit = true) :
    digitValue x * 10 + digitValue y ≤ 99 := by
  have := digitValue_le hx
  have := digitValue_le hy
  omega

theorem parse2DigitNumber_of_digits {x y : Char} (hx : x.isDigit = true) (hy : y.isDigit = true)
    (rest : Str) :
    parse2DigitNumber (x :: y :: rest) = .ok (digitValue x * 10 + digitValue y, rest) := by
  have hle := twoDigits_le hx hy
  have hsplit : splitAt (x :: y :: rest) 2 = .ok ([x, y], rest) :=
    splitAt_digits (a := [x, y]) (by simp [hx, hy]) rfl
  have hhead : (y :: rest).head?.bind toDigit = some (digitValue y) := toDigit_of_isDigit hy
  rw [parse2DigitNumber, toDigit_of_isDigit hx, hhead]
  simp only [okOr, ok_bind, u32_of_le hle, hsplit]
  rfl

theorem sound_twoDigits : Sound parse2DigitNumber TwoDigits := by
  intro s
  cases s with
  | nil => exact .inr rfl
  | cons x chars =>
    by_cases hx : x.isDigit = true
    · rcases head?_bind_toDigit chars with ⟨-, hnone⟩ | ⟨y, rest, rfl, hy, -⟩
      · refine .inr ?_
        rw [parse2DigitNumber, hnone, toDigit_of_isDigit hx]
        rfl
      · exact .inl ⟨[x, y], _, rest, rfl, ⟨x, y, rfl, hx, hy, rfl⟩,
          parse2DigitNumber_of_digits hx hy rest⟩
    · refine .inr ?_
      rw [parse2DigitNumber, toDigit_eq_none (Bool.eq_false_iff.mpr hx)]
      rfl

theorem reads_twoDigits : Reads parse2DigitNumber TwoDigits := by
  refine sound_twoDigits.reads ?_
  rintro c n rest ⟨x, y, rfl, hx, hy, rfl⟩
  exact parse2DigitNumber_of_digits hx hy rest

theorem parseDay_of_one {x : Char} {rest : Str} (hx : x.isDigit = true)
    (hrest : rest.head?.bind toDigit = none) : parseDay (x :: rest) = .ok (digitValue x, rest) := by
  have hsplit : splitAt (x :: rest) 1 = .ok ([x], rest) :=
    splitAt_digits (a := [x]) (by simp [hx]) rfl
  rw [parseDay, toDigit_of_isDigit hx]
  simp only [okOr, ok_bind, hrest, hsplit]
  rfl

theorem parseDay_of_two {x y : Char} (hx : x.isDigit = true) (hy : y.isDigit = true)
    (rest : Str) : parseDay (x :: y :: rest) = .ok (digitValue x * 10 + digitValue y, rest) := by
  have hle := twoDigits_le hx hy
  have hsplit : splitAt (x :: y :: rest) 2 = .ok ([x, y], rest) :=
    splitAt_digits (a := [x, y]) (by simp [hx, hy]) rfl
  have hhead : (y :: rest).head?.bind toDigit = some (digitValue y) := toDigit_of_isDigit hy
  rw [parseDay, toDigit_of_isDigit hx, hhead]
  simp only [okOr, ok_bind, u32_of_le hle, hsplit]
  rfl

theorem sound_day : Sound parseDay DayText := by
  intro s
  cases s with
  | nil => exact .inr rfl
  | cons x chars =>
    by_cases hx : x.isDigit = true
    · rcases head?_bind_toDigit chars with ⟨hnot, hnone⟩ | ⟨y, rest, rfl, hy, -⟩
      · exact .inl ⟨[x], _, chars, rfl, .inl ⟨x, rfl, hx, hnot, rfl⟩, parseDay_of_one hx hnone⟩
      · exact .inl ⟨[x, y], _, rest, rfl, .inr ⟨x, y, rfl, hx, hy, rfl⟩,
          parseDay_of_two hx hy rest⟩
    · refine .inr ?_
      rw [parseDay, toDigit_eq_none (Bool.eq_false_iff.mpr hx)]
      rfl

theorem reads_day : Reads parseDay DayText := by
  refine sound_day.reads ?_
  rintro c n rest (⟨x, rfl, hx, hrest, rfl⟩ | ⟨x, y, rfl, hx, hy, rfl⟩)
  · rcases head?_bind_toDigit rest with ⟨-, hnone⟩ | ⟨y, t, rfl, hy, -⟩
    · exact parseDay_of_one hx hnone
    · rw [startsWith, hy] at hrest
      cases hrest
  · exact parseDay_of_two hx hy rest

end Rtsp.Common
