import Rtsp.Syntax

/-!
# Strings as characters

`&str` where the code walks over its characters: the list of them. Lengths and
offsets are in bytes, as they are in the code, so splitting a string at an offset
that lies in a character panics (`splitAt`).

The code has two kinds of text. Header values and names are handled as bytes, with tests
for single bytes; dates and parameters are walked over by `chars()` and cut by
`split_at`. For the former `Bytes` is enough and easier. For the latter it matters that
an offset can be inside a character, and `splitAt` is defined so that this shows.

Lower case is Lean's, which leaves everything outside of ASCII as it is. It serves for
comparing with the names of days and months and with that of one parameter. Rust's would
make a difference with a `k` only, which is the lower case of the Kelvin sign as well,
and none of these names has one.
-/

namespace Rtsp

abbrev Str := List Char

namespace Str

/-- `str::as_bytes` -/
def asBytes (s : Str) : Bytes := s.flatMap String.utf8EncodeChar

/-- `str::len` -/
def len (s : Str) : Nat := (s.map Char.utf8Size).sum

/-- `str::split_at` -/
def splitAt : Str → Nat → Rust (Str × Str)
  | s, 0 => .ok ([], s)
  | [], _ + 1 => .error .sliceOutOfRange
  | c :: s, i + 1 =>
    if c.utf8Size ≤ i + 1 then
      (splitAt s (i + 1 - c.utf8Size)).map fun parts => (c :: parts.1, parts.2)
    else .error .sliceOutOfRange

/-- The bytes of a text that is all ASCII, as characters. -/
def ofAscii (bs : Bytes) : Str := bs.map Char.ofUInt8

/-- `splitn(2, c)`: the part in front of the first `c`, and the part behind it if there is
    one. -/
def splitn2 (c : Char) : Str → Str × Option Str
  | [] => ([], none)
  | d :: s =>
    if d = c then ([], some s)
    else
      let (first, second) := splitn2 c s
      (d :: first, second)

@[simp] theorem len_nil : len [] = 0 := rfl

@[simp] theorem len_cons (c : Char) (s : Str) : len (c :: s) = c.utf8Size + len s := rfl

@[simp] theorem len_append (s t : Str) : len (s ++ t) = len s + len t := by
  simp [len]

theorem length_asBytes (s : Str) : (asBytes s).length = len s := by
  induction s with
  | nil => rfl
  | cons c s ih =>
    rw [len_cons, ← ih]
    simp [asBytes]

theorem len_pos {c : Char} (s : Str) : 0 < len (c :: s) :=
  Nat.lt_of_lt_of_le c.utf8Size_pos (Nat.le_add_right _ _)

/-! ## Splitting -/

@[simp] theorem splitAt_zero (s : Str) : splitAt s 0 = .ok ([], s) := by
  cases s <;> rfl

/-- Behind a part that is gone over completely there is a boundary. -/
theorem splitAt_append_len (s t : Str) (i : Nat) :
    splitAt (s ++ t) (len s + i) = (splitAt t i).map fun parts => (s ++ parts.1, parts.2) := by
  induction s with
  | nil =>
    rw [List.nil_append, len_nil, Nat.zero_add]
    cases splitAt t i with
    | error p => rfl
    | ok parts => rfl
  | cons c s ih =>
    have hpos := c.utf8Size_pos
    obtain ⟨j, hj⟩ : ∃ j, len (c :: s) + i = j + 1 :=
      Nat.exists_eq_add_one_of_ne_zero (by simp; omega)
    have hle : c.utf8Size ≤ j + 1 := by simp at hj; omega
    have hrest : j + 1 - c.utf8Size = len s + i := by simp at hj; omega
    rw [hj, List.cons_append, splitAt, if_pos hle, hrest, ih]
    cases splitAt t i with
    | error p => rfl
    | ok parts => rfl

@[simp] theorem splitAt_len (s t : Str) : splitAt (s ++ t) (len s) = .ok (s, t) := by
  have h := splitAt_append_len s t 0
  rw [Nat.add_zero, splitAt_zero] at h
  simpa [Except.map] using h

/-- What is split is put together of the two parts. -/
theorem splitAt_eq_ok_iff {s a b : Str} {i : Nat} :
    splitAt s i = .ok (a, b) ↔ s = a ++ b ∧ len a = i := by
  constructor
  · intro h
    fun_induction splitAt s i generalizing a b with
    | case1 s => cases h; exact ⟨rfl, rfl⟩
    | case2 => cases h
    | case3 c s i hle ih =>
      cases hparts : splitAt s (i + 1 - c.utf8Size) with
      | error p =>
        rw [hparts] at h
        cases h
      | ok parts =>
        rw [hparts] at h
        cases h
        obtain ⟨hs, hlen⟩ := ih hparts
        refine ⟨by rw [List.cons_append, ← hs], ?_⟩
        rw [len_cons, hlen]
        omega
    | case4 => cases h
  · rintro ⟨rfl, rfl⟩
    exact splitAt_len a b

theorem splitn2_of_not_mem {c : Char} {s : Str} (h : c ∉ s) : splitn2 c s = (s, none) := by
  induction s with
  | nil => rfl
  | cons d s ih =>
    have hd : d ≠ c := fun hd => h (hd ▸ List.mem_cons_self)
    have hs : c ∉ s := fun hs => h (List.mem_cons_of_mem _ hs)
    rw [splitn2, if_neg hd, ih hs]

theorem splitn2_append {c : Char} {s : Str} (t : Str) (h : c ∉ s) :
    splitn2 c (s ++ c :: t) = (s, some t) := by
  induction s with
  | nil => simp [splitn2]
  | cons d s ih =>
    have hd : d ≠ c := fun hd => h (hd ▸ List.mem_cons_self)
    have hs : c ∉ s := fun hs => h (List.mem_cons_of_mem _ hs)
    rw [List.cons_append, splitn2, if_neg hd, ih hs]

/-! ## ASCII -/

theorem utf8Size_of_lt {c : Char} (h : c.toNat < 0x80) : c.utf8Size = 1 :=
  Char.utf8Size_eq_one_iff.mpr (UInt32.le_iff_toNat_le.mpr (Nat.le_of_lt_succ h))

theorem len_of_ascii {s : Str} (h : ∀ c ∈ s, c.toNat < 0x80) : len s = s.length := by
  induction s with
  | nil => rfl
  | cons c s ih =>
    rw [len_cons, utf8Size_of_lt (h c (by simp)), ih fun c' hc' => h c' (by simp [hc']),
      List.length_cons, Nat.add_comm]

@[simp] theorem toNat_ofUInt8 (b : Byte) : (Char.ofUInt8 b).toNat = b.toNat := rfl

theorem ofNat_toNat (b : Byte) : Char.ofNat b.toNat = Char.ofUInt8 b := by
  rw [← toNat_ofUInt8, Char.ofNat_toNat]

theorem asBytes_ofAscii {bs : Bytes} (h : ∀ b ∈ bs, b.toNat < 0x80) :
    asBytes (ofAscii bs) = bs := by
  induction bs with
  | nil => rfl
  | cons b bs ih =>
    have hsize : (Char.ofUInt8 b).utf8Size = 1 := utf8Size_of_lt (h b (by simp))
    have hrest := ih fun b' hb' => h b' (by simp [hb'])
    rw [asBytes, ofAscii] at hrest
    have hbyte : UInt8.ofNat (Char.ofUInt8 b).toNat = b := UInt8.ofNat_toNat
    rw [asBytes, ofAscii, List.map_cons, List.flatMap_cons, hrest,
      String.utf8EncodeChar_eq_singleton hsize]
    exact congrArg (· :: bs) hbyte

/-- ASCII characters are bytes. -/
theorem exists_ofAscii {s : Str} (h : ∀ c ∈ s, c.toNat < 0x80) :
    ∃ bs, s = ofAscii bs ∧ ∀ b ∈ bs, b.toNat < 0x80 := by
  induction s with
  | nil => exact ⟨[], rfl, by simp⟩
  | cons c s ih =>
    have hc := h c (by simp)
    obtain ⟨bs, rfl, hbs⟩ := ih fun c' hc' => h c' (by simp [hc'])
    have hbyte : (UInt8.ofNat c.toNat).toNat = c.toNat := by
      rw [UInt8.toNat_ofNat']
      omega
    have hchar : Char.ofUInt8 (UInt8.ofNat c.toNat) = c := Char.toNat_inj.mp hbyte
    refine ⟨UInt8.ofNat c.toNat :: bs, ?_, ?_⟩
    · rw [ofAscii, ofAscii, List.map_cons, hchar]
    · exact List.forall_mem_cons.mpr ⟨hbyte.symm ▸ hc, hbs⟩

/-- Any other character has bytes of more than seven bits only. -/
theorem utf8EncodeChar_wide {c : Char} (h : 0x80 ≤ c.toNat) :
    ∀ b ∈ String.utf8EncodeChar c, 0x80 ≤ b.toNat := by
  have hcontinuation : ∀ n, 0x80 ≤ (UInt8.ofNat (n % 0x40 + 0x80)).toNat := fun n => by
    rw [UInt8.toNat_ofNat']
    omega
  fun_cases String.utf8EncodeChar c with
  | case1 v hle => exact absurd (Nat.lt_succ_of_le hle) (Nat.not_lt.mpr h)
  | case2 v =>
    have hlead : 0x80 ≤ (UInt8.ofNat (v / 64 % 0x20 + 0xc0)).toNat := by
      rw [UInt8.toNat_ofNat']
      omega
    simpa using ⟨hlead, hcontinuation _⟩
  | case3 v =>
    have hlead : 0x80 ≤ (UInt8.ofNat (v / 4096 % 0x10 + 0xe0)).toNat := by
      rw [UInt8.toNat_ofNat']
      omega
    simpa using ⟨hlead, hcontinuation _, hcontinuation _⟩
  | case4 v =>
    have hlead : 0x80 ≤ (UInt8.ofNat (v / 262144 % 0x08 + 0xf0)).toNat := by
      rw [UInt8.toNat_ofNat']
      omega
    simpa using ⟨hlead, hcontinuation _, hcontinuation _, hcontinuation _⟩

/-- Only ASCII characters have the bytes of one. -/
theorem ascii_of_asBytes {s : Str} (h : ∀ b ∈ asBytes s, b.toNat < 0x80) :
    ∀ c ∈ s, c.toNat < 0x80 := by
  intro c hc
  rw [← Nat.not_le]
  intro hwide
  obtain ⟨b, hb⟩ := List.exists_mem_of_ne_nil _ (String.utf8EncodeChar_ne_nil (c := c))
  have hlt := h b (List.mem_flatMap.mpr ⟨c, hc, hb⟩)
  exact absurd (utf8EncodeChar_wide hwide b hb) (Nat.not_le.mpr hlt)

/-- A property holds of the ASCII characters if it holds of the 128 there are. -/
theorem forall_ascii {P : Char → Prop} (h : ∀ i : Fin 128, P (Char.ofNat i)) {c : Char}
    (hc : c.toNat < 0x80) : P c := by
  have hP := h ⟨c.toNat, hc⟩
  rwa [Char.ofNat_toNat] at hP

/-- No other character becomes ASCII in lower case. -/
theorem ascii_of_toLower {c : Char} (h : c.toLower.toNat < 0x80) : c.toNat < 0x80 := by
  unfold Char.toLower at h
  split at h
  · next hupper => exact Nat.lt_of_le_of_lt (UInt32.le_iff_toNat_le.mp hupper.2) (by decide)
  · exact h

theorem ascii_of_isAlpha {c : Char} (h : c.isAlpha = true) : c.toNat < 0x80 := by
  rcases Bool.or_eq_true_iff.mp h with hupper | hlower
  · have hle : c.val ≤ 'Z'.val := (of_decide_eq_true hupper).2
    exact Nat.lt_of_le_of_lt (UInt32.le_iff_toNat_le.mp hle) (by decide)
  · have hle : c.val ≤ 'z'.val := of_decide_eq_true (Bool.and_eq_true_iff.mp hlower).2
    exact Nat.lt_of_le_of_lt (UInt32.le_iff_toNat_le.mp hle) (by decide)

theorem isAlpha_toLower {c : Char} (h : c.isAlpha = true) : c.toLower.isAlpha = true :=
  forall_ascii (P := fun c => c.isAlpha = true → c.toLower.isAlpha = true) (by decide +kernel)
    (ascii_of_isAlpha h) h

/-- A name in lower case has as many bytes. -/
theorem len_map_toLower {s : Str} (h : ∀ c ∈ s, c.isAlpha = true) :
    len (s.map Char.toLower) = len s := by
  induction s with
  | nil => rfl
  | cons c s ih =>
    have hc := h c (by simp)
    rw [List.map_cons, len_cons, len_cons, utf8Size_of_lt (ascii_of_isAlpha hc),
      utf8Size_of_lt (ascii_of_isAlpha (isAlpha_toLower hc)),
      ih fun c' hc' => h c' (List.mem_cons_of_mem _ hc')]

end Str
end Rtsp
