import Rtsp.Rust

/-!
# Characters, tokens and UTF-8

The byte classes of `syntax.rs`, ASCII case, and what `str::from_utf8` accepts.
A string of the code is its UTF-8 bytes here; where the code walks over
characters, `fromUtf8` lists their scalar values.

Byte classes are given by ranges where the source has a table of 256 entries, of which
the non-zero ones are listed. `fromUtf8` returns scalar values as numbers, since all
that the callers ask is in which range they are.

UTF-8 is followed to the letter: overlong forms, surrogates and numbers beyond the last
are refused, as `str::from_utf8` refuses them. What a reader of single bytes may rely on
is one lemma, that an ASCII character is a byte on its own and never part of another.
-/

namespace Rtsp
namespace Syntax

def CR : Byte := 13
def LF : Byte := 10
def SP : Byte := 32
def HT : Byte := 9

def CRLF : Bytes := [CR, LF]

/-- `byte == b' ' || byte == b'\t'` -/
def isSpaceOrTab (b : Byte) : Bool := b == SP || b == HT

def isUpper (b : Byte) : Bool := 65 ≤ b && b ≤ 90

def isLower (b : Byte) : Bool := 97 ≤ b && b ≤ 122

/-- `u8::to_ascii_lowercase` -/
def toAsciiLowercase (b : Byte) : Byte := if isUpper b then b + 32 else b

/-- `u8::to_ascii_uppercase` -/
def toAsciiUppercase (b : Byte) : Byte := if isLower b then b - 32 else b

/-- The non-zero entries of `TOKEN_CHAR_MAP`: letters, digits and the marks listed. -/
def isTokenChar (b : Byte) : Bool :=
  isUpper b || isLower b || isDigit b || b ∈ ascii "!#$%&'*+-.^_|~"

/-- `syntax::is_token` -/
def isToken (token : Bytes) : Bool := !token.isEmpty && token.all isTokenChar

/-! ## UTF-8 -/

/-- `lo..=hi` contains the byte. -/
def inRange (lo hi b : Byte) : Bool := lo ≤ b && b ≤ hi

/-- A continuation byte. -/
def isContinuation : Byte → Bool := inRange 0x80 0xBF

/-- The second bytes allowed after a leading byte of `first..=last`: after `first` only
    those from `lo`, which rules out overlong forms, after `cut` only those up to `hi`. -/
def isSecond (first lo cut hi last : Byte) (b₀ b₁ : Byte) : Bool :=
  if b₀ == first then inRange lo 0xBF b₁
  else if b₀ == cut then inRange 0x80 hi b₁
  else inRange first last b₀ && isContinuation b₁

def isSecondOfThree : Byte → Byte → Bool := isSecond 0xE0 0xA0 0xED 0x9F 0xEF

def isSecondOfFour : Byte → Byte → Bool := isSecond 0xF0 0x90 0xF4 0x8F 0xF3

/-- The payload of a continuation byte. -/
def continuation (b : Byte) : Nat := b.toNat - 0x80

/-- The scalar value of a leading byte and the bytes that follow it. -/
def scalar (lead : Nat) (b₀ : Byte) (bs : Bytes) : Nat :=
  bs.foldl (fun acc b => acc * 0x40 + continuation b) (b₀.toNat - lead)

/-- `str::from_utf8`, as the list of the characters' scalar values: `none` where the
    bytes are not UTF-8. -/
def fromUtf8 : Bytes → Option (List Nat)
  | [] => some []
  | b₀ :: rest =>
    if b₀ < 0x80 then (fromUtf8 rest).map (b₀.toNat :: ·)
    else match rest with
      | [] => none
      | b₁ :: rest =>
        if inRange 0xC2 0xDF b₀ && isContinuation b₁ then
          (fromUtf8 rest).map (scalar 0xC0 b₀ [b₁] :: ·)
        else match rest with
          | [] => none
          | b₂ :: rest =>
            if isSecondOfThree b₀ b₁ && isContinuation b₂ then
              (fromUtf8 rest).map (scalar 0xE0 b₀ [b₁, b₂] :: ·)
            else match rest with
              | [] => none
              | b₃ :: rest =>
                if isSecondOfFour b₀ b₁ && isContinuation b₂ && isContinuation b₃ then
                  (fromUtf8 rest).map (scalar 0xF0 b₀ [b₁, b₂, b₃] :: ·)
                else none

/-- `char::is_ascii` -/
def isAscii (c : Nat) : Bool := c < 0x80

/-- ASCII characters that are neither printable nor a tab. -/
def isForbiddenAscii (c : Nat) : Bool := isAscii c && (c < 32 || 126 < c) && c != 9

theorem inRange_iff {lo hi b : Byte} :
    inRange lo hi b = true ↔ lo.toNat ≤ b.toNat ∧ b.toNat ≤ hi.toNat := by
  simp only [inRange, UInt8.le_iff_toNat_le, Bool.and_eq_true, decide_eq_true_eq]

theorem le_of_isContinuation {b : Byte} (h : isContinuation b = true) : 0x80 ≤ b.toNat :=
  (inRange_iff.mp h).1

/-- The two leading bytes already carry more than seven bits. -/
theorem isSecond_wide {first lo cut hi last b₀ b₁ : Byte}
    (h : isSecond first lo cut hi last b₀ b₁ = true) (hlo : 0x82 ≤ lo.toNat)
    (hcut : first.toNat < cut.toNat) :
    first.toNat ≤ b₀.toNat ∧ 0x80 ≤ b₁.toNat ∧
      2 ≤ (b₀.toNat - first.toNat) * 0x40 + continuation b₁ := by
  unfold isSecond at h
  unfold continuation
  split at h
  · next h₀ =>
    have h₀ := congrArg UInt8.toNat (beq_iff_eq.mp h₀)
    have h₁ := (inRange_iff.mp h).1
    omega
  · next hne =>
    have hne : b₀.toNat ≠ first.toNat := by simpa [UInt8.toNat_inj] using hne
    split at h
    · next h₀ =>
      have h₀ := congrArg UInt8.toNat (beq_iff_eq.mp h₀)
      have h₁ : 0x80 ≤ b₁.toNat := (inRange_iff.mp h).1
      omega
    · rw [Bool.and_eq_true] at h
      have h₀ := (inRange_iff.mp h.1).1
      have h₁ := le_of_isContinuation h.2
      omega

/-- What UTF-8 gives a reader of single bytes: an ASCII character is one byte, any other
    is a run of bytes that are no ASCII character. -/
inductive Spells : Bytes → List Nat → Prop where
  | nil : Spells [] []
  | ascii {b bs cs} : b.toNat < 0x80 → Spells bs cs → Spells (b :: bs) (b.toNat :: cs)
  | wide {w c bs cs} : (∀ b ∈ w, 0x80 ≤ b.toNat) → 0x80 ≤ c → Spells bs cs →
      Spells (w ++ bs) (c :: cs)

theorem fromUtf8_spells {bs : Bytes} {cs : List Nat} (h : fromUtf8 bs = some cs) :
    Spells bs cs := by
  fun_induction fromUtf8 bs generalizing cs with
  | case1 => cases h; exact .nil
  | case2 b₀ rest hlt ih =>
    obtain ⟨cs', h', rfl⟩ := Option.map_eq_some_iff.mp h
    exact .ascii (UInt8.lt_iff_toNat_lt.mp hlt) (ih h')
  | case4 b₀ _ b₁ rest hw ih =>
    obtain ⟨cs', h', rfl⟩ := Option.map_eq_some_iff.mp h
    rw [Bool.and_eq_true] at hw
    have h₀ : 0xC2 ≤ b₀.toNat := (inRange_iff.mp hw.1).1
    have h₁ := le_of_isContinuation hw.2
    refine Spells.wide (w := [b₀, b₁]) ?_ ?_ (ih h')
    · simp only [List.forall_mem_cons]
      exact ⟨by omega, h₁, by simp⟩
    · simp only [scalar, List.foldl_cons, List.foldl_nil]
      omega
  | case6 b₀ _ b₁ _ b₂ rest hw ih =>
    obtain ⟨cs', h', rfl⟩ := Option.map_eq_some_iff.mp h
    rw [Bool.and_eq_true] at hw
    have h₀ := isSecond_wide hw.1 (by decide) (by decide)
    have h₂ := le_of_isContinuation hw.2
    simp only [UInt8.reduceToNat] at h₀
    refine Spells.wide (w := [b₀, b₁, b₂]) ?_ ?_ (ih h')
    · simp only [List.forall_mem_cons]
      exact ⟨by omega, h₀.2.1, h₂, by simp⟩
    · simp only [scalar, List.foldl_cons, List.foldl_nil]
      omega
  | case8 b₀ _ b₁ _ b₂ _ b₃ rest hw ih =>
    obtain ⟨cs', h', rfl⟩ := Option.map_eq_some_iff.mp h
    simp only [Bool.and_eq_true] at hw
    have h₀ := isSecond_wide hw.1.1 (by decide) (by decide)
    have h₂ := le_of_isContinuation hw.1.2
    have h₃ := le_of_isContinuation hw.2
    simp only [UInt8.reduceToNat] at h₀
    refine Spells.wide (w := [b₀, b₁, b₂, b₃]) ?_ ?_ (ih h')
    · simp only [List.forall_mem_cons]
      exact ⟨by omega, h₀.2.1, h₂, h₃, by simp⟩
    · simp only [scalar, List.foldl_cons, List.foldl_nil]
      omega
  | _ => cases h

/-- ASCII bytes are their own scalar values. -/
theorem fromUtf8_ascii {bs : Bytes} (h : ∀ b ∈ bs, b.toNat < 0x80) :
    fromUtf8 bs = some (bs.map UInt8.toNat) := by
  induction bs with
  | nil => rfl
  | cons b bs ih =>
    have hb : b < 0x80 := UInt8.lt_iff_toNat_lt.mpr (h b (by simp))
    unfold fromUtf8
    rw [if_pos hb, ih fun b' hb' => h b' (by simp [hb'])]
    rfl

/-- An ASCII byte of a text is one of its characters. -/
theorem Spells.mem {bs : Bytes} {cs : List Nat} {b : Byte} (h : Spells bs cs) (hb : b ∈ bs)
    (hascii : b.toNat < 0x80) : b.toNat ∈ cs := by
  induction h with
  | nil => cases hb
  | ascii _ _ ih =>
    rcases List.mem_cons.mp hb with rfl | hb
    · exact .head _
    · exact .tail _ (ih hb)
  | wide hw _ _ ih =>
    rcases List.mem_append.mp hb with hb | hb
    · exact absurd (hw b hb) (by omega)
    · exact .tail _ (ih hb)

/-- The comparison behind every name table: `name` is compared with the first bytes of
    `value` after `fold`, and then with its length. -/
def matchesName (fold : Byte → Byte) (value name : Bytes) : Bool :=
  ((value.take name.length).map fold == name) && (value.length == name.length)

/-! ## Case -/

/-- A property of bytes holds of all of them if it holds of the 256 there are. -/
theorem forall_byte {P : Byte → Prop} (h : ∀ i : Fin 256, P (UInt8.ofFin i)) (b : Byte) : P b :=
  h b.toFin

theorem toAsciiLowercase_toAsciiUppercase (b : Byte) :
    toAsciiLowercase (toAsciiUppercase b) = toAsciiLowercase b :=
  forall_byte (P := fun b => toAsciiLowercase (toAsciiUppercase b) = toAsciiLowercase b)
    (by decide +kernel) b

theorem toAsciiUppercase_toAsciiLowercase (b : Byte) :
    toAsciiUppercase (toAsciiLowercase b) = toAsciiUppercase b :=
  forall_byte (P := fun b => toAsciiUppercase (toAsciiLowercase b) = toAsciiUppercase b)
    (by decide +kernel) b

theorem toAsciiUppercase_idem (b : Byte) :
    toAsciiUppercase (toAsciiUppercase b) = toAsciiUppercase b := by
  rw [← toAsciiUppercase_toAsciiLowercase (toAsciiUppercase b), toAsciiLowercase_toAsciiUppercase,
    toAsciiUppercase_toAsciiLowercase]

theorem toAsciiLowercase_idem (b : Byte) :
    toAsciiLowercase (toAsciiLowercase b) = toAsciiLowercase b := by
  rw [← toAsciiLowercase_toAsciiUppercase (toAsciiLowercase b), toAsciiUppercase_toAsciiLowercase,
    toAsciiLowercase_toAsciiUppercase]

theorem map_toAsciiUppercase_idem (bs : Bytes) :
    (bs.map toAsciiUppercase).map toAsciiUppercase = bs.map toAsciiUppercase := by
  have hidem : toAsciiUppercase ∘ toAsciiUppercase = toAsciiUppercase :=
    funext toAsciiUppercase_idem
  rw [List.map_map, hidem]

theorem map_toAsciiLowercase_idem (bs : Bytes) :
    (bs.map toAsciiLowercase).map toAsciiLowercase = bs.map toAsciiLowercase := by
  have hidem : toAsciiLowercase ∘ toAsciiLowercase = toAsciiLowercase :=
    funext toAsciiLowercase_idem
  rw [List.map_map, hidem]

theorem toAsciiUppercase_dollar {b : Byte} (h : toAsciiUppercase b = 36) : b = 36 :=
  forall_byte (P := fun b => toAsciiUppercase b = 36 → b = 36) (by decide +kernel) b h

theorem isTokenChar_toAsciiUppercase (b : Byte) :
    isTokenChar (toAsciiUppercase b) = isTokenChar b :=
  forall_byte (P := fun b => isTokenChar (toAsciiUppercase b) = isTokenChar b)
    (by decide +kernel) b

theorem isTokenChar_toAsciiLowercase (b : Byte) :
    isTokenChar (toAsciiLowercase b) = isTokenChar b := by
  rw [← isTokenChar_toAsciiUppercase (toAsciiLowercase b), toAsciiUppercase_toAsciiLowercase,
    isTokenChar_toAsciiUppercase]

theorem isToken_map {f : Byte → Byte} (hf : ∀ b, isTokenChar (f b) = isTokenChar b) (bs : Bytes) :
    isToken (bs.map f) = isToken bs := by
  have hchars : isTokenChar ∘ f = isTokenChar := funext hf
  rw [isToken, isToken, List.all_map, List.isEmpty_map, hchars]

theorem isToken_map_toAsciiUppercase (bs : Bytes) :
    isToken (bs.map toAsciiUppercase) = isToken bs :=
  isToken_map isTokenChar_toAsciiUppercase bs

theorem isToken_map_toAsciiLowercase (bs : Bytes) :
    isToken (bs.map toAsciiLowercase) = isToken bs :=
  isToken_map isTokenChar_toAsciiLowercase bs

theorem matchesName_iff {fold : Byte → Byte} {value name : Bytes} :
    matchesName fold value name = true ↔ value.map fold = name := by
  simp only [matchesName, Bool.and_eq_true, beq_iff_eq]
  constructor
  · rintro ⟨h, hlen⟩
    rwa [List.take_of_length_le (by omega)] at h
  · rintro rfl
    simp

/-- `eq_ignore_ascii_case` -/
def eqIgnoreAsciiCase (a b : Bytes) : Bool := a.map toAsciiLowercase == b.map toAsciiLowercase

theorem eqIgnoreAsciiCase_iff {a b : Bytes} :
    eqIgnoreAsciiCase a b = true ↔ a.map toAsciiLowercase = b.map toAsciiLowercase := beq_iff_eq

/-- Upper case tells no more apart. -/
theorem eqIgnoreAsciiCase_iff_uppercase {a b : Bytes} :
    eqIgnoreAsciiCase a b = true ↔ a.map toAsciiUppercase = b.map toAsciiUppercase := by
  have hlower : toAsciiLowercase ∘ toAsciiUppercase = toAsciiLowercase :=
    funext toAsciiLowercase_toAsciiUppercase
  have hupper : toAsciiUppercase ∘ toAsciiLowercase = toAsciiUppercase :=
    funext toAsciiUppercase_toAsciiLowercase
  rw [eqIgnoreAsciiCase_iff]
  constructor
  · intro h
    have h := congrArg (List.map toAsciiUppercase) h
    rwa [List.map_map, List.map_map, hupper] at h
  · intro h
    have h := congrArg (List.map toAsciiLowercase) h
    rwa [List.map_map, List.map_map, hlower] at h

/-- **A table of names that is kept by their lengths** finds a name exactly by its spelling, as
    long as each name is filed under its length. -/
theorem find?_matchesName_iff {σ : Type} {table : Nat → List σ} {spell : σ → Bytes}
    {fold : Byte → Byte} (hfiled : ∀ s, s ∈ table (spell s).length)
    (hinj : ∀ s s', spell s = spell s' → s = s') {value : Bytes} {s : σ} :
    ((table value.length).find? fun s => matchesName fold value (spell s)) = some s ↔
      value.map fold = spell s := by
  constructor
  · intro h
    have hmatches := List.find?_some h
    exact matchesName_iff.mp hmatches
  · intro h
    have hmem : s ∈ table value.length := by
      rw [← List.length_map fold, h]
      exact hfiled s
    cases hfind : (table value.length).find? fun s => matchesName fold value (spell s) with
    | none => exact absurd (matchesName_iff.mpr h) (List.find?_eq_none.mp hfind s hmem)
    | some s' =>
      have hmatches := List.find?_some hfind
      rw [hinj s' s ((matchesName_iff.mp hmatches).symm.trans h)]

/-! ## Characters that a token does not have -/

theorem isToken_not_mem {bs : Bytes} {c : Byte} (h : isToken bs = true)
    (hc : isTokenChar c = false) : c ∉ bs := by
  intro hmem
  simp only [isToken, Bool.and_eq_true, List.all_eq_true] at h
  exact absurd (h.2 c hmem) (by simp [hc])

/-- A token has nothing to trim. -/
theorem isSpaceOrTab_of_isToken {bs : Bytes} (h : isToken bs = true) :
    ∀ b ∈ bs, isSpaceOrTab b = false := by
  intro b hb
  simp only [isSpaceOrTab, Bool.or_eq_false_iff, beq_eq_false_iff_ne]
  constructor <;> rintro rfl
  · exact isToken_not_mem h (by decide) hb
  · exact isToken_not_mem h (by decide) hb

theorem printable_of_isToken {bs : Bytes} (h : isToken bs = true) :
    ∀ b ∈ bs, 32 ≤ b.toNat ∧ b.toNat ≤ 126 := by
  intro b hb
  simp only [isToken, Bool.and_eq_true, List.all_eq_true] at h
  exact forall_byte (P := fun b => isTokenChar b = true → 32 ≤ b.toNat ∧ b.toNat ≤ 126)
    (by decide +kernel) b (h.2 b hb)

theorem ascii_of_isToken {bs : Bytes} (h : isToken bs = true) : ∀ b ∈ bs, b.toNat < 0x80 :=
  fun b hb => Nat.lt_of_le_of_lt (printable_of_isToken h b hb).2 (by decide)

theorem isToken_ne_nil {bs : Bytes} (h : isToken bs = true) : bs ≠ [] := by
  rintro rfl
  simp [isToken] at h

end Syntax
end Rtsp
