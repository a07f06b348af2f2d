import Rtsp.Header.Common.Fields.Names

/-!
# What is read as a year

`parse_year` takes all the digits there are. It multiplies by ten with `checked_mul` and
returns `DateTimeError` if that is too much, but adds the next digit without a check.
There is one number that can be multiplied and not added to, 214748364, and only with 8
or 9 for the digit; `YearOverflows` names these strings, and `parseYear_panics_iff` says
that the parser panics on them and on no others. Without overflow checks the addition
would wrap instead; the model has the checks throughout.

The loop is described from the number it has so far (`yearLoop_outcome`): it stops
behind the last digit, or in front of a digit with which the number cannot be
multiplied, or at the one it cannot add. `parseYear_outcome` is the same for the whole
parser, which then looks at how many digits there were.

`fullYear` is `expandYear` of the model without the overflow checks. Two and three
digits cannot come near the bound (`expandYear_eq`), so nothing is lost by leaving them
out, and the reading can be held against the `match` at the end of `parse_year`.
-/

namespace Rtsp.Common

open Syntax Lib

/-- The number that digits denote behind those of `acc`. -/
def numberFrom (acc : Nat) (ds : Str) : Nat := ds.foldl (fun acc c => acc * 10 + digitValue c) acc

/-- What a number of so many digits stands for, as `expandYear` has it. -/
def fullYear : Nat → Nat → Int
  | 2, year => if year ≤ 49 then year + 2000 else year + 1900
  | 3, year => year + 1900
  | _, year => year

/-- At least two digits, with none behind them, that denote an `i32`. -/
def YearText : Reading Char Int := fun c y rest =>
  (∀ x ∈ c, x.isDigit = true) ∧ startsWith Char.isDigit rest = false ∧ 2 ≤ c.length ∧
    numberFrom 0 c ≤ i32Max ∧ y = fullYear c.length (numberFrom 0 c)

/-- The digits of the largest `i32` but the last, and a digit that is too large for the last. -/
def YearOverflows (s : Str) : Prop := ∃ p d t, s = p ++ d :: t ∧ (∀ x ∈ p, x.isDigit = true) ∧
  numberFrom 0 p = 214748364 ∧ (d = '8' ∨ d = '9')

theorem numberFrom_cons (acc : Nat) (d : Char) (ds : Str) :
    numberFrom acc (d :: ds) = numberFrom (acc * 10 + digitValue d) ds :=
  List.foldl_cons ..

theorem le_numberFrom (acc : Nat) (ds : Str) : acc ≤ numberFrom acc ds := by
  induction ds generalizing acc with
  | nil => exact Nat.le_refl acc
  | cons d ds ih =>
    rw [numberFrom_cons]
    exact Nat.le_trans (by omega) (ih (acc * 10 + digitValue d))

theorem yearLoop_of_not_digit {rest : Str} (h : startsWith Char.isDigit rest = false)
    (year : Int) (n : Nat) : yearLoop year n rest = .ok (year, n) := by
  cases rest with
  | nil => rfl
  | cons c t => rw [yearLoop, toDigit_eq_none h]

/-- One turn, as long as the number still is an `i32`. -/
theorem yearLoop_cons {d : Char} (hd : d.isDigit = true) {acc : Nat}
    (h : acc * 10 + digitValue d ≤ i32Max) (n : Nat) (s : Str) :
    yearLoop acc n (d :: s) = yearLoop ((acc * 10 + digitValue d : Nat) : Int) (n + 1) s := by
  have hmul : (acc : Int) * 10 ≤ i32Max := by omega
  have hsum : i32 ((acc : Int) * 10 + digitValue d) =
      .ok ((acc * 10 + digitValue d : Nat) : Int) := by
    rw [i32_of_le (by omega) (by omega)]
    exact congrArg Except.ok (by omega)
  rw [yearLoop, toDigit_of_isDigit hd]
  dsimp only
  rw [if_pos hmul, hsum, ok_bind]

theorem yearLoop_append {c : Str} (hc : ∀ x ∈ c, x.isDigit = true) {acc : Nat}
    (h : numberFrom acc c ≤ i32Max) (n : Nat) (rest : Str) :
    yearLoop acc n (c ++ rest) = yearLoop (numberFrom acc c : Int) (n + c.length) rest := by
  induction c generalizing acc n with
  | nil => rfl
  | cons d c ih =>
    have hle := Nat.le_trans (le_numberFrom (acc * 10 + digitValue d) c) h
    have hc' : ∀ x ∈ c, x.isDigit = true := fun x hx => hc x (List.mem_cons_of_mem _ hx)
    rw [List.cons_append, yearLoop_cons (hc d (by simp)) hle, ih hc' h, numberFrom_cons,
      List.length_cons, Nat.add_right_comm, Nat.add_assoc]

theorem yearLoop_digits {c rest : Str} (hc : ∀ x ∈ c, x.isDigit = true)
    (hrest : startsWith Char.isDigit rest = false) {acc : Nat} (h : numberFrom acc c ≤ i32Max)
    (n : Nat) : yearLoop acc n (c ++ rest) = .ok ((numberFrom acc c : Int), n + c.length) := by
  rw [yearLoop_append hc h, yearLoop_of_not_digit hrest]

theorem yearLoop_overflow {d : Char} (hd : d.isDigit = true) {acc : Nat}
    (hmul : acc * 10 ≤ i32Max) (hover : i32Max < acc * 10 + digitValue d) (n : Nat) (s : Str) :
    yearLoop acc n (d :: s) = .error (.panic .overflow) := by
  have hsum : i32 ((acc : Int) * 10 + digitValue d) = .error (.panic .overflow) :=
    if_neg (by omega)
  rw [yearLoop, toDigit_of_isDigit hd]
  dsimp only
  rw [if_pos (by omega), hsum]
  rfl

/-- How the loop ends: behind the digits, in front of a digit with which the number cannot be
    multiplied, or at a digit with which it overflows. -/
theorem yearLoop_outcome (acc n : Nat) (s : Str) (hacc : acc ≤ i32Max) :
    (∃ c rest, s = c ++ rest ∧ (∀ x ∈ c, x.isDigit = true) ∧
      startsWith Char.isDigit rest = false ∧ numberFrom acc c ≤ i32Max ∧
      yearLoop acc n s = .ok ((numberFrom acc c : Int), n + c.length)) ∨
    yearLoop acc n s = invalid ∨
    yearLoop acc n s = .error (.panic .overflow) ∧ ∃ p d t, s = p ++ d :: t ∧
      (∀ x ∈ p, x.isDigit = true) ∧ d.isDigit = true ∧ numberFrom acc p * 10 ≤ i32Max ∧
      i32Max < numberFrom acc p * 10 + digitValue d := by
  induction s generalizing acc n with
  | nil => exact .inl ⟨[], [], rfl, by simp, rfl, hacc, rfl⟩
  | cons d s ih =>
    by_cases hd : d.isDigit = true
    · by_cases hmul : acc * 10 ≤ i32Max
      · by_cases hle : acc * 10 + digitValue d ≤ i32Max
        · rw [yearLoop_cons hd hle]
          rcases ih (acc * 10 + digitValue d) (n + 1) hle with
            ⟨c, rest, rfl, hc, hrest, hnum, hok⟩ | hinvalid | ⟨hpanic, p, e, t, rfl, hp, h⟩
          · refine .inl ⟨d :: c, rest, rfl, ?_, hrest, hnum, ?_⟩
            · exact List.forall_mem_cons.mpr ⟨hd, hc⟩
            · rw [hok, numberFrom_cons, List.length_cons, Nat.add_right_comm, Nat.add_assoc]
          · exact .inr (.inl hinvalid)
          · exact .inr (.inr ⟨hpanic, d :: p, e, t, rfl, List.forall_mem_cons.mpr ⟨hd, hp⟩, h⟩)
        · have hover := Nat.lt_of_not_le hle
          exact .inr (.inr ⟨yearLoop_overflow hd hmul hover n s, [], d, s, rfl, by simp, hd, hmul,
            hover⟩)
      · refine .inr (.inl ?_)
        rw [yearLoop, toDigit_of_isDigit hd]
        exact if_neg (by omega)
    · have hd : startsWith Char.isDigit (d :: s) = false := Bool.eq_false_iff.mpr hd
      exact .inl ⟨[], d :: s, rfl, by simp, hd, hacc, yearLoop_of_not_digit hd acc n⟩

/-- A number of few digits is small. -/
theorem numberFrom_lt {ds : Str} (h : ∀ x ∈ ds, x.isDigit = true) (acc : Nat) :
    numberFrom acc ds < (acc + 1) * 10 ^ ds.length := by
  induction ds generalizing acc with
  | nil =>
    show acc < (acc + 1) * 10 ^ 0
    omega
  | cons d ds ih =>
    have hd := digitValue_le (h d (by simp))
    have hds : ∀ x ∈ ds, x.isDigit = true := fun x hx => h x (List.mem_cons_of_mem _ hx)
    refine Nat.lt_of_lt_of_le (ih hds (acc * 10 + digitValue d)) ?_
    rw [List.length_cons, Nat.pow_succ', ← Nat.mul_assoc]
    exact Nat.mul_le_mul_right _ (by omega)

/-- No overflow is left to the rules for years in two and three digits. -/
theorem expandYear_eq {c : Str} (hc : ∀ x ∈ c, x.isDigit = true) :
    expandYear c.length (numberFrom 0 c) =
      if 2 ≤ c.length then .ok (fullYear c.length (numberFrom 0 c)) else invalid := by
  have hlt := numberFrom_lt hc 0
  match h : c.length with
  | 0 => rfl
  | 1 => rfl
  | 2 =>
    rw [h] at hlt
    simp only [expandYear, fullYear, Int.natCast_nonneg, true_and, Nat.le_refl, if_true]
    by_cases hle : numberFrom 0 c ≤ 49
    · rw [if_pos (by omega), if_pos hle, i32_of_le (by omega) (by unfold i32Max; omega)]
    · rw [if_neg (by omega), if_neg hle, i32_of_le (by omega) (by unfold i32Max; omega)]
  | 3 =>
    rw [h] at hlt
    simp only [expandYear, fullYear]
    rw [i32_of_le (by omega) (by unfold i32Max; omega), if_pos (by decide)]
  | n + 4 =>
    rw [if_pos (by omega)]
    rfl

theorem parseYear_of_digits {c rest : Str} (hc : ∀ x ∈ c, x.isDigit = true)
    (hrest : startsWith Char.isDigit rest = false) (h : numberFrom 0 c ≤ i32Max) :
    parseYear (c ++ rest) =
      if 2 ≤ c.length then .ok (fullYear c.length (numberFrom 0 c), rest) else invalid := by
  have hloop := yearLoop_digits hc hrest h 0
  have hsplit : splitAt (c ++ rest) c.length = .ok (c, rest) := splitAt_digits hc rfl
  rw [Int.natCast_zero, Nat.zero_add] at hloop
  rw [parseYear, hloop, ok_bind]
  dsimp only
  rw [expandYear_eq hc]
  by_cases hlen : 2 ≤ c.length
  · rw [if_pos hlen, if_pos hlen, ok_bind, hsplit]
    rfl
  · rw [if_neg hlen, if_neg hlen]
    rfl

/-- How the parser ends on any string. -/
theorem parseYear_outcome (s : Str) :
    (∃ c rest, s = c ++ rest ∧ (∀ x ∈ c, x.isDigit = true) ∧
      startsWith Char.isDigit rest = false ∧ numberFrom 0 c ≤ i32Max) ∨
    parseYear s = invalid ∨ parseYear s = .error (.panic .overflow) ∧ YearOverflows s := by
  have hloop := yearLoop_outcome 0 0 s (by decide)
  rw [Int.natCast_zero] at hloop
  rcases hloop with ⟨c, rest, hs, hc, hrest, hnum, -⟩ | hinvalid | ⟨hpanic, p, d, t, hs, hp, h⟩
  · exact .inl ⟨c, rest, hs, hc, hrest, hnum⟩
  · refine .inr (.inl ?_)
    rw [parseYear, hinvalid]
    rfl
  · refine .inr (.inr ⟨?_, p, d, t, hs, hp, ?_, ?_⟩)
    · rw [parseYear, hpanic]
      rfl
    · have := digitValue_le h.1
      unfold i32Max at h
      omega
    · have hvalue : 8 ≤ digitValue d := by
        unfold i32Max at h
        omega
      have hdigit := (Char.isDigit_iff_toNat.mp h.1).2
      have hnine : '9'.toNat = 57 := rfl
      unfold digitValue at hvalue
      have htoNat : d.toNat = '8'.toNat ∨ d.toNat = '9'.toNat := by
        show d.toNat = 56 ∨ d.toNat = 57
        omega
      exact htoNat.imp Char.toNat_inj.mp Char.toNat_inj.mp

theorem reads_year : Reads parseYear YearText := by
  refine Reads.intro (fun s y rest h => ?_) ?_
  · rcases parseYear_outcome s with ⟨c, t, rfl, hc, ht, hnum⟩ | hinvalid | ⟨hpanic, -⟩
    · rw [parseYear_of_digits hc ht hnum] at h
      split at h
      · next hlen =>
        cases h
        exact ⟨c, rfl, hc, ht, hlen, hnum, rfl⟩
      · cases h
    · rw [hinvalid] at h
      cases h
    · rw [hpanic] at h
      cases h
  · rintro c y rest ⟨hc, hrest, hlen, hnum, rfl⟩
    rw [parseYear_of_digits hc hrest hnum, if_pos hlen]

/-- **Adding a digit overflows exactly behind `214748364`.** -/
theorem parseYear_panics_iff {s : Str} :
    (∃ p, parseYear s = .error (.panic p)) ↔ YearOverflows s := by
  constructor
  · rintro ⟨q, h⟩
    rcases parseYear_outcome s with ⟨c, t, rfl, hc, ht, hnum⟩ | hinvalid | ⟨-, hover⟩
    · rw [parseYear_of_digits hc ht hnum] at h
      split at h
      · cases h
      · cases h
    · rw [hinvalid] at h
      cases h
    · exact hover
  · rintro ⟨p, d, t, rfl, hp, hnum, hd⟩
    have hdigit : d.isDigit = true ∧ 8 ≤ digitValue d := by
      rcases hd with rfl | rfl
      · decide
      · decide
    have hle : numberFrom 0 p ≤ i32Max := by
      rw [hnum]
      decide
    have hloop := yearLoop_append hp hle 0 (d :: t)
    rw [hnum, Int.natCast_zero,
      yearLoop_overflow hdigit.1 (by decide) (by unfold i32Max; omega)] at hloop
    refine ⟨.overflow, ?_⟩
    rw [parseYear, hloop]
    rfl

end Rtsp.Common
