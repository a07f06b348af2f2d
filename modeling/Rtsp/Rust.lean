import Mathlib.Algebra.Group.Int.Defs
import Mathlib.Algebra.GroupWithZero.Nat
import Mathlib.Control.Monad.Basic

/-!
# The parts of Rust the code leans on

What the language and its standard library contribute: the ways a call can fail
to return (`Panic`), checked slicing and indexing, `usize` arithmetic, and
`str::parse` for unsigned integers. Lengths and indices are `Nat`; the width of
`usize` matters only where the code adds to a number it was given (`usizeAdd`)
or parses one (`parseUnsigned`).

A panic ends the computation. There is no unwinding, and no destructor runs: what a
panic leaves behind is not modelled, and the results say either that none occurs or
exactly when one does. Overflow is a panic throughout, as in a debug build. A release
build would wrap and go on.

`str::parse` takes a plus sign and any number of zeros, which is in its documentation
and is easy to forget. `IntErrorKind` has the variants that an unsigned parse can
return.
-/

namespace Rtsp

/-- Why a call did not return. -/
inductive Panic where
  | sliceOutOfRange
  | overflow
  /-- An `expect` on an `Option` or a `Result` that held nothing, or a `panic!`. -/
  | expect (msg : String)
  /-- A `debug_assert!` that did not hold. -/
  | assertion (text : String)
  /-- A loop that was given no more steps. No call ends this way: where a loop is
      modelled with a number of steps, that number is shown to suffice. -/
  | diverged
  deriving DecidableEq

/-- A computation of the code: it returns a value or panics. -/
abbrev Rust (α : Type) := Except Panic α

/-- How a function that returns a `Result` ends without a value. -/
inductive Fallible.Failure (ε : Type) where
  | panic (p : Panic)
  | error (e : ε)
  deriving DecidableEq

/-- A computation that returns a `Result`. -/
abbrev Fallible (ε α : Type) := Except (Fallible.Failure ε) α

/-- A call in it that does not return a `Result`. -/
def Fallible.call {ε α : Type} : Rust α → Fallible ε α
  | .ok a => .ok a
  | .error p => .error (.panic p)

abbrev Byte := UInt8
abbrev Bytes := List UInt8

/-- `str::as_bytes` of a literal. The code's own literals are all ASCII. -/
def ascii (s : String) : Bytes := s.toByteArray.data.toList

def u32Max : Nat := 2 ^ 32 - 1
def usizeMax : Nat := 2 ^ 64 - 1

/-- `a + b` on `usize`. -/
def usizeAdd (a b : Nat) : Rust Nat :=
  if a + b ≤ usizeMax then .ok (a + b) else .error .overflow

/-- `a + b` on `u32`. -/
def u32Add (a b : Nat) : Rust Nat :=
  if a + b ≤ u32Max then .ok (a + b) else .error .overflow

/-- `a - b` on `u32`. -/
def u32Sub (a b : Nat) : Rust Nat :=
  if b ≤ a then .ok (a - b) else .error .overflow

section Slices

variable {α : Type}

/-- `&b[i..]` -/
def sliceFrom (b : List α) (i : Nat) : Rust (List α) :=
  if i ≤ b.length then .ok (b.drop i) else .error .sliceOutOfRange

/-- `&b[i..j]` -/
def slice (b : List α) (i j : Nat) : Rust (List α) :=
  if i ≤ j ∧ j ≤ b.length then .ok ((b.take j).drop i) else .error .sliceOutOfRange

/-- `b[i]` -/
def index (b : List α) (i : Nat) : Rust α :=
  match b[i]? with
  | some a => .ok a
  | none => .error .sliceOutOfRange

/-- `Option::expect` -/
def expect (msg : String) : Option α → Rust α
  | some a => .ok a
  | none => .error (.expect msg)

/-- `debug_assert!` -/
def debugAssert (text : String) (condition : Bool) : Rust Unit :=
  if condition then .ok () else .error (.assertion text)

theorem expect_toOption_eq_ok {ε : Type} {msg : String} {r : Except ε α} {a : α}
    (h : expect msg r.toOption = .ok a) : r = .ok a := by
  cases r with
  | error e => cases h
  | ok a' =>
    cases h
    rfl

@[simp] theorem sliceFrom_of_le {b : List α} {i : Nat} (h : i ≤ b.length) :
    sliceFrom b i = .ok (b.drop i) := if_pos h

theorem sliceFrom_eq_ok {b b' : List α} {i : Nat} (h : sliceFrom b i = .ok b') : b' = b.drop i := by
  unfold sliceFrom at h
  split at h
  · cases h
    rfl
  · cases h

@[simp] theorem slice_zero {b : List α} {j : Nat} (h : j ≤ b.length) :
    slice b 0 j = .ok (b.take j) := by
  simp [slice, h]

theorem slice_of_le {b : List α} {i j : Nat} (hi : i ≤ j) (hj : j ≤ b.length) :
    slice b i j = .ok ((b.take j).drop i) := if_pos ⟨hi, hj⟩

theorem index_of_lt {b : List α} {i : Nat} (h : i < b.length) : index b i = .ok b[i] := by
  simp [index, h]

end Slices

@[simp] theorem usizeAdd_of_le {a b : Nat} (h : a + b ≤ usizeMax) :
    usizeAdd a b = .ok (a + b) := if_pos h

theorem usizeAdd_eq_ok {a b c : Nat} (h : usizeAdd a b = .ok c) : a + b ≤ usizeMax ∧ c = a + b := by
  unfold usizeAdd at h
  split at h
  · next hle =>
    cases h
    exact ⟨hle, rfl⟩
  · cases h

@[simp] theorem u32Add_of_le {a b : Nat} (h : a + b ≤ u32Max) : u32Add a b = .ok (a + b) := if_pos h

@[simp] theorem u32Sub_of_le {a b : Nat} (h : b ≤ a) : u32Sub a b = .ok (a - b) := if_pos h

/-! ## Sequencing -/

section Bind

variable {ε α β : Type}

@[simp] theorem ok_bind (a : α) (f : α → Except ε β) : (Except.ok a >>= f) = f a := rfl

@[simp] theorem error_bind (e : ε) (f : α → Except ε β) : (Except.error e >>= f) = .error e := rfl

/-- What a bind that returned did: both halves returned. -/
theorem bind_eq_ok {x : Except ε α} {f : α → Except ε β} {b : β} (h : (x >>= f) = .ok b) :
    ∃ a, x = .ok a ∧ f a = .ok b := by
  cases x with
  | error e => simp at h
  | ok a => exact ⟨a, rfl, h⟩

theorem bind_eq_error_iff {x : Except ε α} {f : α → Except ε β} {e : ε} :
    (x >>= f) = .error e ↔ x = .error e ∨ ∃ a, x = .ok a ∧ f a = .error e := by
  cases x <;> simp

/-- The value of a call that is known to return. -/
def returned (x : Except ε α) (h : x.toOption.isSome = true) : α := x.toOption.get h

theorem eq_ok_returned {x : Except ε α} (h : x.toOption.isSome = true) :
    x = .ok (returned x h) := by
  cases x with
  | error e => cases h
  | ok a => rfl

attribute [irreducible] returned

/-- Why a call did not return, if it did not. -/
def panicOf : Except ε α → Option ε
  | .error e => some e
  | .ok _ => none

theorem eq_error_of_panicOf {x : Except ε α} {e : ε} (h : panicOf x = some e) :
    x = .error e := by
  cases x with
  | error e' => rw [Option.some.inj h]
  | ok a => cases h

theorem eq_ok_of_returned {x : Except ε (α × β)} {a : α} (h : x.toOption.isSome = true)
    (ha : (returned x h).1 = a) : x = .ok (a, (returned x h).2) := by
  rw [← ha]
  exact eq_ok_returned h

end Bind

/-! ## Unsigned integers in text -/

def isDigit (b : Byte) : Bool := 48 ≤ b && b ≤ 57

/-- Why `str::parse` refused a number. -/
inductive IntErrorKind where
  | empty
  | invalidDigit
  | posOverflow
  deriving DecidableEq

/-- The digits of `str::parse`, most significant first. -/
def parseDigits (max : Nat) (acc : Nat) : Bytes → Except IntErrorKind Nat
  | [] => .ok acc
  | b :: bs =>
    if isDigit b then
      let acc := acc * 10 + (b.toNat - 48)
      if acc ≤ max then parseDigits max acc bs else .error .posOverflow
    else .error .invalidDigit

/-- `str::parse` at an unsigned type with the given maximum. One leading `+` is
    accepted, a sign on its own is not. -/
def parseUnsigned (max : Nat) : Bytes → Except IntErrorKind Nat
  | [] => .error .empty
  | 43 :: bs => if bs.isEmpty then .error .invalidDigit else parseDigits max 0 bs
  | bs => parseDigits max 0 bs

/-- `to_string` of an unsigned integer. -/
def toDecimal (n : Nat) : Bytes := (Nat.toDigits 10 n).map fun c => c.toNat.toUInt8

/-- The character of a decimal digit. -/
def digit (d : Nat) : Byte := (48 + d).toUInt8

theorem digit_toNat {d : Nat} (h : d < 10) : (digit d).toNat = 48 + d := by
  simp only [digit, Nat.toUInt8, UInt8.toNat_ofNat']
  omega

theorem isDigit_digit {d : Nat} (h : d < 10) : isDigit (digit d) = true := by
  have := digit_toNat h
  simp only [isDigit, UInt8.le_iff_toNat_le, Bool.and_eq_true, decide_eq_true_eq, this]
  exact ⟨Nat.le_add_right 48 d, by simp only [UInt8.reduceToNat]; omega⟩

theorem toDecimal_of_lt {n : Nat} (h : n < 10) : toDecimal n = [digit n] := by
  have : ∀ n < 10, (n.digitChar.toNat.toUInt8 : UInt8) = digit n := by decide
  simp [toDecimal, Nat.toDigits_of_lt_base h, this n h]

theorem toDecimal_of_le {n : Nat} (h : 10 ≤ n) :
    toDecimal n = toDecimal (n / 10) ++ [digit (n % 10)] := by
  rw [← toDecimal_of_lt (Nat.mod_lt n (by omega))]
  have hd : n % 10 < 10 := Nat.mod_lt _ (by omega)
  simp [toDecimal, Nat.toDigits_of_base_le (by omega : 1 < 10) h, Nat.toDigits_of_lt_base hd]

/-- The decimal notation is a digit, or that of `n / 10` and one more digit. -/
theorem toDecimal_induction {P : Nat → Bytes → Prop} (one : ∀ n < 10, P n [digit n])
    (more : ∀ n bs, 10 ≤ n → P (n / 10) bs → P n (bs ++ [digit (n % 10)])) (n : Nat) :
    P n (toDecimal n) := by
  induction n using Nat.strongRecOn with
  | ind n ih =>
    by_cases h : n < 10
    · rw [toDecimal_of_lt h]
      exact one n h
    · rw [toDecimal_of_le (by omega)]
      exact more n _ (by omega) (ih (n / 10) (by omega))

theorem isDigit_of_mem_toDecimal (n : Nat) : ∀ b ∈ toDecimal n, isDigit b = true := by
  induction n using toDecimal_induction with
  | one n h => simpa using isDigit_digit h
  | more n bs _ ih =>
    intro b hb
    rcases List.mem_append.mp hb with hb | hb
    · exact ih b hb
    · rw [List.mem_singleton.mp hb]
      exact isDigit_digit (Nat.mod_lt n (by omega))

theorem toDecimal_ne_nil (n : Nat) : toDecimal n ≠ [] := by
  induction n using toDecimal_induction <;> simp

theorem parseDigits_append (max acc : Nat) (xs ys : Bytes) :
    parseDigits max acc (xs ++ ys) = parseDigits max acc xs >>= (parseDigits max · ys) := by
  induction xs generalizing acc with
  | nil => rfl
  | cons x xs ih =>
    simp only [List.cons_append, parseDigits]
    split
    · split
      · exact ih _
      · rfl
    · rfl

theorem parseDigits_digit {max d : Nat} (acc : Nat) (hd : d < 10) (h : acc * 10 + d ≤ max) :
    parseDigits max acc [digit d] = .ok (acc * 10 + d) := by
  have : 48 + d - 48 = d := by omega
  simp only [parseDigits, isDigit_digit hd, digit_toNat hd, this, h, if_true]

theorem parseDigits_toDecimal {max : Nat} (n : Nat) (h : n ≤ max) :
    parseDigits max 0 (toDecimal n) = .ok n := by
  induction n using toDecimal_induction with
  | one n hn => simpa using parseDigits_digit 0 hn (by omega : 0 * 10 + n ≤ max)
  | more n bs hn ih =>
    have hd : n % 10 < 10 := Nat.mod_lt n (by omega)
    have hsum : n / 10 * 10 + n % 10 = n := by omega
    have hlast := parseDigits_digit (n / 10) hd (hsum.symm ▸ h)
    rw [parseDigits_append, ih (by omega)]
    exact hlast.trans (congrArg _ hsum)

/-- Printing an integer of the type and parsing it back gives the integer. -/
theorem parseUnsigned_toDecimal {max n : Nat} (h : n ≤ max) :
    parseUnsigned max (toDecimal n) = .ok n := by
  have hp := parseDigits_toDecimal n h
  have hd := isDigit_of_mem_toDecimal n
  have hne := toDecimal_ne_nil n
  revert hp hd hne
  generalize toDecimal n = bs
  intro hp hd hne
  unfold parseUnsigned
  split
  · exact absurd rfl hne
  · exact absurd (hd 43 (by simp)) (by decide)
  · exact hp

/-! ## The numbers that are parsed -/

/-- The number that digits denote behind those of `acc`. -/
def decimalFrom (acc : Nat) (ds : Bytes) : Nat :=
  ds.foldl (fun acc b => acc * 10 + (b.toNat - 48)) acc

/-- The number that digits denote. -/
def decimal (ds : Bytes) : Nat := decimalFrom 0 ds

/-- At least one digit, and nothing else. -/
def IsDigits (ds : Bytes) : Prop := ds ≠ [] ∧ ∀ b ∈ ds, isDigit b = true

theorem le_decimalFrom (acc : Nat) (ds : Bytes) : acc ≤ decimalFrom acc ds := by
  induction ds generalizing acc with
  | nil => exact Nat.le_refl acc
  | cons b ds ih => exact Nat.le_trans (by omega) (ih (acc * 10 + (b.toNat - 48)))

theorem toNat_of_isDigit {b : Byte} (h : isDigit b = true) : 48 ≤ b.toNat ∧ b.toNat ≤ 57 := by
  simp only [isDigit, Bool.and_eq_true, decide_eq_true_eq, UInt8.le_iff_toNat_le,
    UInt8.reduceToNat] at h
  exact h

/-- So many digits denote a number below the power of ten. -/
theorem decimalFrom_lt {acc : Nat} {ds : Bytes} (h : ∀ b ∈ ds, isDigit b = true) :
    decimalFrom acc ds < (acc + 1) * 10 ^ ds.length := by
  induction ds generalizing acc with
  | nil =>
    show acc < (acc + 1) * 10 ^ 0
    omega
  | cons b ds ih =>
    have hb := toNat_of_isDigit (h b (by simp))
    have hds : ∀ b' ∈ ds, isDigit b' = true := fun b' hb' => h b' (by simp [hb'])
    have hrest : decimalFrom (acc * 10 + (b.toNat - 48)) ds <
        (acc * 10 + (b.toNat - 48) + 1) * 10 ^ ds.length := ih hds
    refine Nat.lt_of_lt_of_le hrest ?_
    rw [List.length_cons, Nat.pow_succ', ← Nat.mul_assoc]
    exact Nat.mul_le_mul_right _ (by omega)

theorem decimal_lt {ds : Bytes} (h : IsDigits ds) : decimal ds < 10 ^ ds.length := by
  have hlt : decimalFrom 0 ds < (0 + 1) * 10 ^ ds.length := decimalFrom_lt h.2
  rwa [Nat.zero_add, Nat.one_mul] at hlt

/-- Digits are parsed to the number they denote, as long as that fits. -/
theorem parseDigits_eq_ok_iff {max acc n : Nat} {ds : Bytes} (hacc : acc ≤ max) :
    parseDigits max acc ds = .ok n ↔
      (∀ b ∈ ds, isDigit b = true) ∧ decimalFrom acc ds = n ∧ n ≤ max := by
  induction ds generalizing acc with
  | nil =>
    show Except.ok acc = Except.ok n ↔ _
    constructor
    · intro h
      cases h
      exact ⟨by simp, rfl, hacc⟩
    · rintro ⟨-, h, -⟩
      exact congrArg Except.ok h
  | cons b ds ih =>
    rw [parseDigits]
    by_cases hb : isDigit b = true
    · rw [if_pos hb]
      dsimp only
      by_cases hle : acc * 10 + (b.toNat - 48) ≤ max
      · rw [if_pos hle, ih hle, List.forall_mem_cons]
        exact ⟨fun ⟨hds, hn⟩ => ⟨⟨hb, hds⟩, hn⟩, fun ⟨⟨_, hds⟩, hn⟩ => ⟨hds, hn⟩⟩
      · rw [if_neg hle]
        refine iff_of_false nofun ?_
        rintro ⟨-, hn, hmax⟩
        -- The number does not get smaller with more digits.
        have hfirst := le_decimalFrom (acc * 10 + (b.toNat - 48)) ds
        exact hle (Nat.le_trans hfirst (hn.symm ▸ hmax))
    · rw [if_neg hb]
      exact iff_of_false nofun fun ⟨hds, _⟩ => hb (hds b (by simp))

/-- **`str::parse` accepts digits, and digits behind one plus sign**, in any number. -/
theorem parseUnsigned_eq_ok_iff {max n : Nat} {text : Bytes} :
    parseUnsigned max text = .ok n ↔
      ∃ ds, (text = ds ∨ text = 43 :: ds) ∧ IsDigits ds ∧ decimal ds = n ∧ n ≤ max := by
  have hdigits : ∀ ds : Bytes, ds ≠ [] → (parseDigits max 0 ds = .ok n ↔
      IsDigits ds ∧ decimal ds = n ∧ n ≤ max) := fun ds hne => by
    rw [parseDigits_eq_ok_iff (Nat.zero_le max), IsDigits, decimal, and_assoc]
    exact (and_iff_right hne).symm
  unfold parseUnsigned
  split
  · refine iff_of_false nofun ?_
    rintro ⟨ds, rfl | h, hds, -⟩
    · exact hds.1 rfl
    · cases h
  · next ds =>
    have hplus : isDigit 43 = false := by decide
    split
    · next hempty =>
      refine iff_of_false nofun ?_
      rintro ⟨ds', rfl | h, hds, -⟩
      · rw [hds.2 43 (by simp)] at hplus
        cases hplus
      · cases h
        exact hds.1 (List.isEmpty_iff.mp hempty)
    · next hne =>
      have hne : ds ≠ [] := fun h => hne (List.isEmpty_iff.mpr h)
      rw [hdigits ds hne]
      constructor
      · intro h
        exact ⟨ds, .inr rfl, h⟩
      · rintro ⟨ds', rfl | h, hds, hn⟩
        · rw [hds.2 43 (by simp)] at hplus
          cases hplus
        · cases h
          exact ⟨hds, hn⟩
  · next hne hplus =>
    rw [hdigits text fun h => hne h]
    constructor
    · intro h
      exact ⟨text, .inl rfl, h⟩
    · rintro ⟨ds, rfl | rfl, h⟩
      · exact h
      · exact absurd rfl (hplus ds)

end Rtsp
