import Rtsp.Header.Common.Fields.TimeOfDay

/-!
# What is read as a time zone

A sign and four bytes that `str::parse` takes for an `i32`, or at most three letters
that are the name of a zone.

The four bytes are where the parser reads more than its authors meant. `str::parse`
accepts a sign of its own, so `+-123` and `++123` are zones, and `OffsetDigits` has a
constructor for each of the three shapes. Digits are characters here and bytes in the
model of `str::parse`; most of the module goes from one to the other
(`offsetDigits_iff`).

A name is the longest run of letters of at most three characters (`Run`). What a name
stands for is looked up in the table of `date.rs`, which has the single letters of the
military zones as well; a text that is in no table is refused.

What the parser returns is the number as it is written, hours times a hundred plus
minutes, and nothing keeps the minutes below sixty. `zoneText_bounded` is what
`parse_date_time` needs of it: it can be turned into seconds without an overflow.
-/

namespace Rtsp.Common

open Syntax Lib

/-- What `str::parse` takes of four characters: four digits, or three behind a sign. -/
inductive OffsetDigits : Str → Int → Prop where
  | four {ds} : (∀ x ∈ ds, x.isDigit = true) → ds.length = 4 → OffsetDigits ds (numberFrom 0 ds)
  | plus {ds} : (∀ x ∈ ds, x.isDigit = true) → ds.length = 3 →
      OffsetDigits ('+' :: ds) (numberFrom 0 ds)
  | minus {ds} : (∀ x ∈ ds, x.isDigit = true) → ds.length = 3 →
      OffsetDigits ('-' :: ds) (-numberFrom 0 ds)

/-- At most `n` characters, and no more of them if there are fewer. -/
def Run (p : Char → Bool) (n : Nat) (c rest : Str) : Prop :=
  (∀ x ∈ c, p x = true) ∧ (c.length = n ∨ c.length < n ∧ startsWith p rest = false)

/-- A sign and what is parsed as an `i32` behind it, or the name of a zone. -/
def ZoneText : Reading Char Int := fun c offset rest =>
  (∃ ds n, OffsetDigits ds n ∧ (c = '+' :: ds ∧ offset = n ∨ c = '-' :: ds ∧ offset = -n)) ∨
    namedZone (c.map Char.toLower) = .ok offset ∧ Run Char.isAlpha 3 c rest

theorem isDigit_ofUInt8 (b : Byte) : (Char.ofUInt8 b).isDigit = Rtsp.isDigit b := by
  rw [Bool.eq_iff_iff, Char.isDigit_iff_toNat, Rtsp.isDigit, Bool.and_eq_true,
    decide_eq_true_eq, decide_eq_true_eq, UInt8.le_iff_toNat_le, UInt8.le_iff_toNat_le]
  rfl

theorem numberFrom_ofAscii (acc : Nat) (ds : Bytes) :
    numberFrom acc (Str.ofAscii ds) = decimalFrom acc ds := by
  induction ds generalizing acc with
  | nil => rfl
  | cons d ds ih =>
    have hds := ih (acc * 10 + (d.toNat - 48))
    rw [Str.ofAscii] at hds ⊢
    rw [List.map_cons, numberFrom_cons]
    exact hds

theorem mem_ofAscii_isDigit {bs : Bytes} :
    (∀ x ∈ Str.ofAscii bs, x.isDigit = true) ↔ ∀ b ∈ bs, Rtsp.isDigit b = true := by
  simp [Str.ofAscii, isDigit_ofUInt8]

theorem ascii_of_digits {bs : Bytes} (h : ∀ b ∈ bs, Rtsp.isDigit b = true) :
    ∀ b ∈ bs, b.toNat < 0x80 :=
  fun b hb => Nat.lt_of_le_of_lt (toNat_of_isDigit (h b hb)).2 (by decide)

/-- Digits are bytes. -/
theorem exists_digits {ds : Str} {n : Nat} (h : ∀ x ∈ ds, x.isDigit = true)
    (hlen : ds.length = n + 1) : ∃ bs, ds = Str.ofAscii bs ∧ IsDigits bs ∧ bs.length = n + 1 := by
  have hascii : ∀ c ∈ ds, c.toNat < 0x80 := fun c hc =>
    Nat.lt_of_le_of_lt (Char.isDigit_iff_toNat.mp (h c hc)).2 (by decide)
  obtain ⟨bs, rfl, -⟩ := Str.exists_ofAscii hascii
  rw [Str.ofAscii, List.length_map] at hlen
  refine ⟨bs, rfl, ⟨?_, mem_ofAscii_isDigit.mp h⟩, hlen⟩
  rintro rfl
  cases hlen

theorem parseI32_of_ne {text : Bytes} (h : text.head? ≠ some 45) :
    parseI32 text = (parseUnsigned i32Max text).toOption.map fun n => (n : Int) := by
  unfold parseI32
  split
  · exact absurd rfl h
  · rfl

/-- A text of ASCII bytes is these bytes. -/
theorem eq_ofAscii {s : Str} {bs : Bytes} (h : Str.asBytes s = bs)
    (hascii : ∀ b ∈ bs, b.toNat < 0x80) : s = Str.ofAscii bs := by
  obtain ⟨cs, rfl, hcs⟩ := Str.exists_ofAscii (Str.ascii_of_asBytes (h ▸ hascii))
  rw [← h, Str.asBytes_ofAscii hcs]

theorem offsetDigits_of_parseI32 {ds : Str} {n : Int} (hlen : Str.len ds = 4)
    (h : parseI32 (Str.asBytes ds) = some n) : OffsetDigits ds n := by
  rw [← Str.length_asBytes] at hlen
  generalize htext : Str.asBytes ds = text at hlen h
  unfold parseI32 at h
  split at h
  · next digits =>
    split at h
    · cases h
    obtain ⟨m, hm, rfl⟩ := Option.map_eq_some_iff.mp h
    cases hparsed : parseDigits (i32Max + 1) 0 digits with
    | error e =>
      rw [hparsed] at hm
      cases hm
    | ok m' =>
      rw [hparsed] at hm
      cases hm
      obtain ⟨hdigits, rfl, -⟩ := (parseDigits_eq_ok_iff (Nat.zero_le _)).mp hparsed
      have hascii : ∀ b ∈ 45 :: digits, b.toNat < 0x80 :=
        List.forall_mem_cons.mpr ⟨by decide, ascii_of_digits hdigits⟩
      rw [eq_ofAscii htext hascii, ← numberFrom_ofAscii]
      refine .minus (mem_ofAscii_isDigit.mpr hdigits) ?_
      rw [List.length_map]
      exact Nat.succ.inj hlen
  · obtain ⟨m, hm, rfl⟩ := Option.map_eq_some_iff.mp h
    cases hparsed : parseUnsigned i32Max text with
    | error e =>
      rw [hparsed] at hm
      cases hm
    | ok m' =>
      rw [hparsed] at hm
      cases hm
      obtain ⟨digits, hspelled, hdigits, rfl, -⟩ := parseUnsigned_eq_ok_iff.mp hparsed
      rw [decimal, ← numberFrom_ofAscii]
      rcases hspelled with rfl | rfl
      · rw [eq_ofAscii htext (ascii_of_digits hdigits.2)]
        refine .four (mem_ofAscii_isDigit.mpr hdigits.2) ?_
        rw [Str.ofAscii, List.length_map, hlen]
      · have hascii : ∀ b ∈ 43 :: digits, b.toNat < 0x80 :=
          List.forall_mem_cons.mpr ⟨by decide, ascii_of_digits hdigits.2⟩
        rw [eq_ofAscii htext hascii]
        refine .plus (mem_ofAscii_isDigit.mpr hdigits.2) ?_
        rw [List.length_map]
        exact Nat.succ.inj hlen

/-- So few digits fit. -/
theorem decimal_le_i32Max {bs : Bytes} (h : IsDigits bs) (hlen : bs.length ≤ 4) :
    decimal bs ≤ i32Max := by
  have hlt := decimal_lt h
  have hpow : 10 ^ bs.length ≤ 10 ^ 4 := Nat.pow_le_pow_right (by decide) hlen
  have hmax : 10 ^ 4 ≤ i32Max := by decide
  omega

theorem parseI32_of_offsetDigits {ds : Str} {n : Int} (h : OffsetDigits ds n) :
    ds.length = 4 ∧ Str.len ds = 4 ∧ parseI32 (Str.asBytes ds) = some n := by
  cases h with
  | four hds hlen =>
    obtain ⟨bs, rfl, hbs, hlength⟩ := exists_digits hds hlen
    have hbytes := Str.asBytes_ofAscii (ascii_of_digits hbs.2)
    have hhead : bs.head? ≠ some 45 := by
      intro hhead
      have hminus := hbs.2 45 (List.mem_of_head? hhead)
      cases hminus
    have hparsed : parseUnsigned i32Max bs = .ok (decimal bs) := parseUnsigned_eq_ok_iff.mpr
      ⟨bs, .inl rfl, hbs, rfl, decimal_le_i32Max hbs (Nat.le_of_eq hlength)⟩
    refine ⟨hlen, ?_, ?_⟩
    · rw [← Str.length_asBytes, hbytes, hlength]
    · rw [hbytes, parseI32_of_ne hhead, hparsed, numberFrom_ofAscii]
      rfl
  | @plus ds hds hlen =>
    obtain ⟨bs, rfl, hbs, hlength⟩ := exists_digits hds hlen
    have hascii : ∀ b ∈ 43 :: bs, b.toNat < 0x80 :=
      List.forall_mem_cons.mpr ⟨by decide, ascii_of_digits hbs.2⟩
    have hbytes : Str.asBytes ('+' :: Str.ofAscii bs) = 43 :: bs := Str.asBytes_ofAscii hascii
    have hparsed : parseUnsigned i32Max (43 :: bs) = .ok (decimal bs) := parseUnsigned_eq_ok_iff.mpr
      ⟨bs, .inr rfl, hbs, rfl, decimal_le_i32Max hbs (by omega)⟩
    refine ⟨congrArg (· + 1) hlen, ?_, ?_⟩
    · rw [← Str.length_asBytes, hbytes, List.length_cons, hlength]
    · rw [hbytes, parseI32_of_ne (by simp), hparsed, numberFrom_ofAscii]
      rfl
  | @minus ds hds hlen =>
    obtain ⟨bs, rfl, hbs, hlength⟩ := exists_digits hds hlen
    have hascii : ∀ b ∈ 45 :: bs, b.toNat < 0x80 :=
      List.forall_mem_cons.mpr ⟨by decide, ascii_of_digits hbs.2⟩
    have hbytes : Str.asBytes ('-' :: Str.ofAscii bs) = 45 :: bs := Str.asBytes_ofAscii hascii
    have hle : decimal bs ≤ i32Max + 1 := Nat.le_succ_of_le (decimal_le_i32Max hbs (by omega))
    have hparsed : parseDigits (i32Max + 1) 0 bs = .ok (decimal bs) :=
      (parseDigits_eq_ok_iff (Nat.zero_le _)).mpr ⟨hbs.2, rfl, hle⟩
    have hne : bs.isEmpty = false := by simpa using hbs.1
    refine ⟨congrArg (· + 1) hlen, ?_, ?_⟩
    · rw [← Str.length_asBytes, hbytes, List.length_cons, hlength]
    · rw [hbytes, parseI32]
      simp only [hne, Bool.false_eq_true, if_false, hparsed, numberFrom_ofAscii]
      rfl

/-- **What `str::parse` takes of four bytes.** -/
theorem offsetDigits_iff {ds : Str} {n : Int} :
    Str.len ds = 4 ∧ parseI32 (Str.asBytes ds) = some n ↔ OffsetDigits ds n :=
  ⟨fun h => offsetDigits_of_parseI32 h.1 h.2, fun h => (parseI32_of_offsetDigits h).2⟩

theorem OffsetDigits.bounded {ds : Str} {n : Int} (h : OffsetDigits ds n) :
    -9999 ≤ n ∧ n ≤ 9999 := by
  cases h with
  | four hds hlen =>
    have hlt := numberFrom_lt hds 0
    rw [hlen] at hlt
    omega
  | plus hds hlen =>
    have hlt := numberFrom_lt hds 0
    rw [hlen] at hlt
    omega
  | minus hds hlen =>
    have hlt := numberFrom_lt hds 0
    rw [hlen] at hlt
    omega

theorem mem_of_lookup {α : Type} {names : List (Str × α)} {k : Str} {a : α}
    (h : names.lookup k = some a) : (k, a) ∈ names := by
  obtain ⟨l₁, l₂, rfl, -⟩ := List.lookup_eq_some_iff.mp h
  simp

theorem namedZone_safe (timezone : Str) :
    (∃ offset, namedZone timezone = .ok offset ∧ -9999 ≤ offset ∧ offset ≤ 9999) ∨
      namedZone timezone = invalid := by
  unfold namedZone
  split
  · next offset h =>
    refine .inl ⟨offset, rfl, ?_⟩
    have hmem : ∀ e ∈ zoneNames, -9999 ≤ e.2 ∧ e.2 ≤ 9999 := by decide
    exact hmem _ (mem_of_lookup h)
  · split
    · split
      · exact .inl ⟨0, rfl, by decide, by decide⟩
      · exact .inr rfl
    · exact .inr rfl

theorem exists_run (p : Char → Bool) (n : Nat) (s : Str) :
    ∃ c rest, s = c ++ rest ∧ Run p n c rest := by
  induction n generalizing s with
  | zero => exact ⟨[], s, rfl, by simp, .inl rfl⟩
  | succ n ih =>
    by_cases h : startsWith p s = true
    · obtain ⟨x, t, rfl, hx⟩ := startsWith_iff.mp h
      obtain ⟨c, rest, rfl, hc, hlen⟩ := ih t
      refine ⟨x :: c, rest, rfl, List.forall_mem_cons.mpr ⟨hx, hc⟩, ?_⟩
      simpa using hlen
    · exact ⟨[], s, rfl, by simp, .inr ⟨Nat.succ_pos n, Bool.eq_false_iff.mpr h⟩⟩

theorem Run.takeWhile_take {p : Char → Bool} {n : Nat} {c rest : Str} (h : Run p n c rest) :
    ((c ++ rest).take n).takeWhile p = c := by
  obtain ⟨hc, hlen⟩ := h
  induction c generalizing n with
  | nil =>
    rcases hlen with rfl | ⟨hlt, hrest⟩
    · rfl
    · cases rest with
      | nil => simp
      | cons x t =>
        obtain ⟨n, rfl⟩ := Nat.exists_eq_add_one_of_ne_zero (Nat.ne_of_gt hlt)
        have hx : ¬ p x = true := Bool.eq_false_iff.mp hrest
        rw [List.nil_append, List.take_succ_cons, List.takeWhile_cons, if_neg hx]
  | cons x c ih =>
    have hpos : n ≠ 0 := by
      simp only [List.length_cons] at hlen
      omega
    obtain ⟨n, rfl⟩ := Nat.exists_eq_add_one_of_ne_zero hpos
    have hrest := ih (fun y hy => hc y (List.mem_cons_of_mem _ hy)) (n := n) (by simpa using hlen)
    rw [List.cons_append, List.take_succ_cons, List.takeWhile_cons, if_pos (hc x (by simp)), hrest]

theorem not_isAlpha_of_startsWith_sign {c rest : Str} (h : ∀ x ∈ c, x.isAlpha = true)
    (hne : c ≠ []) : startsWith (fun c => c == '+' || c == '-') (c ++ rest) = false := by
  obtain ⟨x, t, rfl⟩ := List.exists_cons_of_ne_nil hne
  have hx := h x (by simp)
  refine Bool.eq_false_iff.mpr fun hsign => ?_
  simp only [List.cons_append, startsWith, Bool.or_eq_true, beq_iff_eq] at hsign
  rcases hsign with rfl | rfl
  · cases hx
  · cases hx

theorem parseTimeZone_of_name {c rest : Str} {offset : Int}
    (hname : namedZone (c.map Char.toLower) = .ok offset) (hrun : Run Char.isAlpha 3 c rest) :
    parseTimeZone (c ++ rest) = .ok (offset, rest) := by
  have hne : c ≠ [] := by
    rintro rfl
    cases hname
  have hsign : startsWith (fun c => c == '+' || c == '-') (c ++ rest) = false :=
    not_isAlpha_of_startsWith_sign hrun.1 hne
  rw [parseTimeZone, hsign, if_neg Bool.false_ne_true, hrun.takeWhile_take]
  dsimp only
  rw [hname, Str.len_map_toLower hrun.1, splitAt_len]
  rfl

theorem i32_neg {n : Int} (h : -9999 ≤ n ∧ n ≤ 9999) : i32 (n * -1) = .ok (-n) := by
  rw [i32_of_le (by omega) (by unfold i32Max; omega)]
  exact congrArg Except.ok (by omega)

theorem splitAt_sign {sign : Char} (hsign : sign = '+' ∨ sign = '-') {ds : Str}
    (hlen : Str.len ds = 4) (rest : Str) :
    splitAt (sign :: ds ++ rest) 5 = .ok (sign :: ds, rest) := by
  have hfive : Str.len (sign :: ds) = 5 := by
    rcases hsign with rfl | rfl
    · rw [Str.len_cons, hlen]
      rfl
    · rw [Str.len_cons, hlen]
      rfl
  rw [← hfive, splitAt_len]

theorem parseTimeZone_plus {ds : Str} {n : Int} (h : OffsetDigits ds n) (rest : Str) :
    parseTimeZone ('+' :: ds ++ rest) = .ok (n, rest) := by
  obtain ⟨hlength, hlen, hparsed⟩ := parseI32_of_offsetDigits h
  have htake : (('+' :: ds ++ rest).drop 1).take 4 = ds := List.take_left' hlength
  have hsplit := splitAt_sign (.inl rfl) hlen rest
  rw [parseTimeZone, if_pos (by rfl), htake]
  simp only [hlen, hparsed, hsplit, ne_eq, not_true_eq_false, if_false, okOr, ok_bind]
  rfl

theorem parseTimeZone_minus {ds : Str} {n : Int} (h : OffsetDigits ds n) (rest : Str) :
    parseTimeZone ('-' :: ds ++ rest) = .ok (-n, rest) := by
  obtain ⟨hlength, hlen, hparsed⟩ := parseI32_of_offsetDigits h
  have htake : (('-' :: ds ++ rest).drop 1).take 4 = ds := List.take_left' hlength
  have hsplit := splitAt_sign (.inr rfl) hlen rest
  have hhead : ('-' :: ds ++ rest).head? = some '-' := rfl
  rw [parseTimeZone, if_pos (by rfl), htake]
  simp only [hlen, hparsed, hsplit, hhead, i32_neg h.bounded, ne_eq, not_true_eq_false, if_false,
    if_true, okOr, ok_bind]
  rfl

theorem sound_timeZone : Sound parseTimeZone ZoneText := by
  intro s
  by_cases hsign : startsWith (fun c => c == '+' || c == '-') s = true
  · obtain ⟨sign, t, rfl, hd⟩ := startsWith_iff.mp hsign
    by_cases hlen : Str.len (t.take 4) = 4
    · cases hparsed : parseI32 (Str.asBytes (t.take 4)) with
      | none =>
        refine .inr ?_
        rw [parseTimeZone, if_pos hsign, List.drop_succ_cons, List.drop_zero]
        dsimp only
        rw [hparsed]
        exact if_neg (not_not_intro hlen)
      | some n =>
        have hdigits := offsetDigits_iff.mp ⟨hlen, hparsed⟩
        have ht : t = t.take 4 ++ t.drop 4 := (List.take_append_drop 4 t).symm
        generalize t.take 4 = ds at ht hdigits
        generalize t.drop 4 = rest at ht
        subst ht
        rw [Bool.or_eq_true, beq_iff_eq, beq_iff_eq] at hd
        rcases hd with rfl | rfl
        · exact .inl ⟨'+' :: ds, n, rest, rfl, .inl ⟨ds, n, hdigits, .inl ⟨rfl, rfl⟩⟩,
            parseTimeZone_plus hdigits rest⟩
        · exact .inl ⟨'-' :: ds, -n, rest, rfl, .inl ⟨ds, n, hdigits, .inr ⟨rfl, rfl⟩⟩,
            parseTimeZone_minus hdigits rest⟩
    · refine .inr ?_
      rw [parseTimeZone, if_pos hsign]
      exact if_pos hlen
  · obtain ⟨c, rest, rfl, hrun⟩ := exists_run Char.isAlpha 3 s
    rcases namedZone_safe (c.map Char.toLower) with ⟨offset, hname, -⟩ | hinvalid
    · exact .inl ⟨c, offset, rest, rfl, .inr ⟨hname, hrun⟩,
        parseTimeZone_of_name hname hrun⟩
    · refine .inr ?_
      rw [parseTimeZone, if_neg hsign, hrun.takeWhile_take]
      dsimp only
      rw [hinvalid]
      rfl

theorem reads_timeZone : Reads parseTimeZone ZoneText := by
  refine sound_timeZone.reads ?_
  rintro c offset rest (⟨ds, n, hdigits, ⟨rfl, rfl⟩ | ⟨rfl, rfl⟩⟩ | ⟨hname, hrun⟩)
  · exact parseTimeZone_plus hdigits rest
  · exact parseTimeZone_minus hdigits rest
  · exact parseTimeZone_of_name hname hrun

/-- No zone is more than a hundred hours off. -/
theorem zoneText_bounded {c rest : Str} {offset : Int} (h : ZoneText c offset rest) :
    -9999 ≤ offset ∧ offset ≤ 9999 := by
  rcases h with ⟨ds, n, hdigits, ⟨-, rfl⟩ | ⟨-, rfl⟩⟩ | ⟨hname, -⟩
  · exact hdigits.bounded
  · have := hdigits.bounded
    omega
  · rcases namedZone_safe (c.map Char.toLower) with ⟨offset', hname', h⟩ | hinvalid
    · rw [hname] at hname'
      cases hname'
      exact h
    · rw [hname] at hinvalid
      cases hinvalid

end Rtsp.Common
