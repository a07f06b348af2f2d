import Rtsp.Whitespace

/-!
# Trimming whitespace from bytes

`trim_bytes_whitespace` of `syntax.rs`. A pass of it takes away one `CRLF` and one
blank where a pass of `trim_whitespace` takes away a run of each. Both end where
there is no whitespace left, and neither takes away anything else: they trim the
same (`trimmers_agree`), the longest part that is made of whitespace.

A pass here may take away a `CRLF` and then a blank, or either, or nothing. With a pass
that takes away so little the number of passes grows with the text, and where they end
is the same: both trimmers satisfy `Trims`, and everything else follows from that.

The result says it without any function. What is left is the text less the longest
prefix, and then the longest suffix, that is made of units of whitespace (`TrimsStart`,
`TrimsEnd`). A text that is whitespace as a whole is gone after the first half.
-/

namespace Rtsp
namespace Syntax

open Lib

/-! ## The code's loops -/

/-- `if value.starts_with(b"\r\n") { value = &value[2..]; }` -/
def dropCrlf (value : Bytes) : Bytes := if CRLF.isPrefixOf value then value.drop 2 else value

/-- `if value.starts_with(b" ") || value.starts_with(b"\t") { value = &value[1..]; }` -/
def dropBlank (value : Bytes) : Bytes :=
  if [SP].isPrefixOf value || [HT].isPrefixOf value then value.drop 1 else value

/-- `if value.ends_with(b"\r\n") { value = &value[..value.len() - 2]; }` -/
def takeCrlf (value : Bytes) : Bytes :=
  if CRLF.isSuffixOf value then value.take (value.length - 2) else value

/-- `if value.ends_with(b" ") || value.ends_with(b"\t") { value = &value[..value.len() - 1]; }` -/
def takeBlank (value : Bytes) : Bytes :=
  if [SP].isSuffixOf value || [HT].isSuffixOf value then value.take (value.length - 1) else value

theorem length_takeCrlf (value : Bytes) : (takeCrlf value).length ≤ value.length := by
  rw [takeCrlf]
  split
  · exact (List.take_prefix _ value).length_le
  · exact Nat.le_refl _

theorem length_takeBlank (value : Bytes) : (takeBlank value).length ≤ value.length := by
  rw [takeBlank]
  split
  · exact (List.take_prefix _ value).length_le
  · exact Nat.le_refl _

theorem length_dropCrlf (value : Bytes) : (dropCrlf value).length ≤ value.length := by
  rw [dropCrlf]
  split
  · exact (List.drop_suffix 2 value).length_le
  · exact Nat.le_refl _

theorem length_dropBlank (value : Bytes) : (dropBlank value).length ≤ value.length := by
  rw [dropBlank]
  split
  · exact (List.drop_suffix 1 value).length_le
  · exact Nat.le_refl _

/-- The loop of `trim_bytes_whitespace_left` -/
def bytesPassLeft : Pass Bytes where
  size := List.length
  run value := dropBlank (dropCrlf value)
  size_run value := Nat.le_trans (length_dropBlank _) (length_dropCrlf value)

def trimBytesWhitespaceLeft (value : Bytes) : Bytes := bytesPassLeft.shrink 0 value

/-- The loop of `trim_bytes_whitespace_right` -/
def bytesPassRight : Pass Bytes where
  size := List.length
  run value := takeBlank (takeCrlf value)
  size_run value := Nat.le_trans (length_takeBlank _) (length_takeCrlf value)

def trimBytesWhitespaceRight (value : Bytes) : Bytes := bytesPassRight.shrink 0 value

/-- `trim_bytes_whitespace` -/
def trimBytesWhitespace (value : Bytes) : Bytes :=
  trimBytesWhitespaceRight (trimBytesWhitespaceLeft value)

/-! ## One unit at a time -/

section Strip

variable {α : Type} (blank : α → Bool)

/-- One blank is taken away. -/
def stripBlank : List α → List α
  | x :: s => if blank x then s else x :: s
  | [] => []

variable {blank}

theorem stripBlank_suffix (s : List α) : stripBlank blank s <:+ s := by
  fun_cases stripBlank blank s with
  | case1 x s => exact List.suffix_cons x s
  | case2 => exact List.suffix_rfl
  | case3 => exact List.suffix_rfl

variable [DecidableEq α] (a b : α)

/-- One `a` with `b` behind it is taken away. -/
def stripPair : List α → List α
  | x :: y :: s => if x = a ∧ y = b then s else x :: y :: s
  | s => s

variable {a b}

theorem stripPair_eq (s : List α) :
    stripPair a b s = if [a, b].isPrefixOf s then s.drop 2 else s := by
  match s with
  | [] => rfl
  | [x] => simp [stripPair]
  | x :: y :: s => simp [stripPair, @eq_comm _ a, @eq_comm _ b]

theorem stripBlank_eq (s : List α) :
    stripBlank (fun x => x == a || x == b) s =
      if [a].isPrefixOf s || [b].isPrefixOf s then s.drop 1 else s := by
  cases s with
  | nil => rfl
  | cons x s => simp [stripBlank, @eq_comm _ a, @eq_comm _ b]

theorem stripPair_suffix (s : List α) : stripPair a b s <:+ s := by
  fun_cases stripPair a b s with
  | case1 x y s => exact ⟨[x, y], rfl⟩
  | case2 => exact List.suffix_rfl
  | case3 => exact List.suffix_rfl

/-- One unit of each kind is enough for the repetition to trim. -/
theorem trims_strip (ha : blank a = false) :
    Trims blank a b fun s => stripBlank blank (stripPair a b s) where
  suffix s := (stripBlank_suffix _).trans (stripPair_suffix s)
  units s := by
    have hblank : ∀ t, trimUnits blank a b (stripBlank blank t) = trimUnits blank a b t := by
      intro t
      fun_cases stripBlank blank t with
      | case1 x t hx => exact (trimUnits_of_blank t hx).symm
      | case2 => rfl
      | case3 => rfl
    rw [hblank]
    fun_cases stripPair a b s with
    | case1 x y s hxy => rw [hxy.1, hxy.2, trimUnits_of_pair s ha]
    | case2 => rfl
    | case3 => rfl
  fixed s h := by
    have hpair : stripPair a b s = s := by
      apply (stripPair_suffix s).eq_of_length_le
      have hsuffix : stripBlank blank (stripPair a b s) <:+ stripPair a b s := stripBlank_suffix _
      have hlen := hsuffix.length_le
      rwa [h] at hlen
    have hblank : stripBlank blank s = s := by rwa [hpair] at h
    apply trimUnits_of_front
    · rintro x t rfl
      rw [stripBlank] at hblank
      split at hblank
      · exact absurd hblank.symm (List.cons_ne_self x t)
      · next hx => exact Bool.eq_false_iff.mpr hx
    · rintro t rfl
      rw [stripPair, if_pos ⟨rfl, rfl⟩] at hpair
      have hlen := congrArg List.length hpair
      rw [List.length_cons, List.length_cons] at hlen
      omega

end Strip

theorem dropCrlf_eq (value : Bytes) : dropCrlf value = stripPair CR LF value :=
  (stripPair_eq value).symm

theorem dropBlank_eq (value : Bytes) : dropBlank value = stripBlank isSpaceOrTab value :=
  (stripBlank_eq value).symm

/-- What is at the end is in front of the bytes read backwards. -/
theorem takeCrlf_eq (value : Bytes) :
    (takeCrlf value).reverse = stripPair LF CR value.reverse := by
  rw [stripPair_eq, List.drop_reverse, takeCrlf]
  exact apply_ite List.reverse _ _ _

theorem takeBlank_eq (value : Bytes) :
    (takeBlank value).reverse = stripBlank isSpaceOrTab value.reverse := by
  refine Eq.trans ?_ (stripBlank_eq value.reverse).symm
  rw [List.drop_reverse, takeBlank]
  exact apply_ite List.reverse _ _ _

theorem trimBytesWhitespaceLeft_eq (value : Bytes) :
    trimBytesWhitespaceLeft value = trimUnits isSpaceOrTab CR LF value := by
  have htrims : Trims isSpaceOrTab CR LF _ := trims_strip (by decide)
  refine htrims.shrink_eq bytesPassLeft id (fun s => ?_)
    (fun _ _ => List.IsSuffix.eq_of_length) value
  show dropBlank (dropCrlf s) = stripBlank isSpaceOrTab (stripPair CR LF s)
  rw [dropBlank_eq, dropCrlf_eq]

theorem trimBytesWhitespaceRight_eq (value : Bytes) :
    trimBytesWhitespaceRight value = (trimUnits isSpaceOrTab LF CR value.reverse).reverse := by
  have htrims : Trims isSpaceOrTab LF CR _ := trims_strip (by decide)
  have hrun : ∀ s, (takeBlank (takeCrlf s)).reverse =
      stripBlank isSpaceOrTab (stripPair LF CR s.reverse) := by
    intro s
    rw [takeBlank_eq, takeCrlf_eq]
  have hsize : ∀ s s' : Bytes, s.reverse <:+ s'.reverse → s.length = s'.length → s = s' :=
    fun s s' hsuffix hlen => (List.reverse_suffix.mp hsuffix).eq_of_length hlen
  rw [← htrims.shrink_eq bytesPassRight List.reverse hrun hsize value, List.reverse_reverse]
  rfl

/-! ## What is taken away -/

section Longest

variable {α : Type} {blank : α → Bool} {a b : α}

variable (blank a b) in
/-- Blanks, and `a` with `b` behind it. -/
inductive Units : List α → Prop where
  | nil : Units []
  | blank {x s} : blank x = true → Units s → Units (x :: s)
  | pair {s} : Units s → Units (a :: b :: s)

theorem Units.append {s t : List α} (hs : Units blank a b s) (ht : Units blank a b t) :
    Units blank a b (s ++ t) := by
  induction hs with
  | nil => exact ht
  | blank hx _ ih => exact .blank hx ih
  | pair _ ih => exact .pair ih

theorem Units.reverse {s : List α} (h : Units blank a b s) : Units blank b a s.reverse := by
  induction h with
  | nil => exact .nil
  | blank hx _ ih =>
    rw [List.reverse_cons]
    exact ih.append (.blank hx .nil)
  | pair _ ih =>
    rw [List.reverse_cons, List.reverse_cons, List.append_assoc]
    exact ih.append (.pair .nil)

variable (blank a b) in
/-- `t` is what is left of `s` without the longest prefix that is made of units. -/
def TrimsStart (s t : List α) : Prop :=
  ∃ pre, s = pre ++ t ∧ Units blank a b pre ∧ ∀ p, p <+: s → Units blank a b p → p <+: pre

variable (blank a b) in
/-- `t` is what is left of `s` without the longest suffix that is made of units. -/
def TrimsEnd (s t : List α) : Prop :=
  ∃ suf, s = t ++ suf ∧ Units blank a b suf ∧ ∀ p, p <:+ s → Units blank a b p → p <:+ suf

variable [DecidableEq α]

/-- Units are trimmed, whatever is behind them. -/
theorem trimUnits_units {pre : List α} (h : Units blank a b pre) (ha : blank a = false)
    (s : List α) : trimUnits blank a b (pre ++ s) = trimUnits blank a b s := by
  induction h with
  | nil => rfl
  | blank hx _ ih => rw [List.cons_append, trimUnits_of_blank _ hx, ih]
  | pair _ ih => rw [List.cons_append, List.cons_append, trimUnits_of_pair _ ha, ih]

variable (blank a b) in
/-- Nothing but units is trimmed. -/
theorem exists_units (s : List α) : ∃ pre, s = pre ++ trimUnits blank a b s ∧
    Units blank a b pre := by
  fun_induction trimUnits blank a b s with
  | case1 => exact ⟨[], rfl, .nil⟩
  | case2 x hx => exact ⟨[x], rfl, .blank hx .nil⟩
  | case3 x => exact ⟨[], rfl, .nil⟩
  | case4 x y s hx ih =>
    obtain ⟨pre, hs, hpre⟩ := ih
    exact ⟨x :: pre, congrArg (x :: ·) hs, .blank hx hpre⟩
  | case5 x y s _ hxy ih =>
    obtain ⟨pre, hs, hpre⟩ := ih
    obtain ⟨rfl, rfl⟩ := hxy
    exact ⟨x :: y :: pre, congrArg (x :: y :: ·) hs, .pair hpre⟩
  | case6 x y s => exact ⟨[], rfl, .nil⟩

theorem trimUnits_suffix (s : List α) : trimUnits blank a b s <:+ s := by
  obtain ⟨pre, hs, -⟩ := exists_units blank a b s
  exact ⟨pre, hs.symm⟩

theorem trimsStart_trimUnits (ha : blank a = false) (s : List α) :
    TrimsStart blank a b s (trimUnits blank a b s) := by
  obtain ⟨pre, hs, hpre⟩ := exists_units blank a b s
  refine ⟨pre, hs, hpre, ?_⟩
  rintro p ⟨r, rfl⟩ hp
  -- What is behind `p` is trimmed further, so that no more is left of it.
  have hsuffix : trimUnits blank a b (p ++ r) <:+ r := by
    rw [trimUnits_units hp ha]
    exact trimUnits_suffix r
  have hlen := hsuffix.length_le
  have hlens := congrArg List.length hs
  rw [List.length_append, List.length_append] at hlens
  exact List.prefix_of_prefix_length_le ⟨r, rfl⟩ ⟨_, hs.symm⟩ (by omega)

theorem trimsEnd_trimUnits (hb : blank b = false) (s : List α) :
    TrimsEnd blank a b s (trimUnits blank b a s.reverse).reverse := by
  obtain ⟨pre, hs, hpre, hlongest⟩ := trimsStart_trimUnits (b := a) hb s.reverse
  refine ⟨pre.reverse, ?_, hpre.reverse, ?_⟩
  · rw [← List.reverse_append, ← hs, List.reverse_reverse]
  · intro p hp hunits
    rw [← List.reverse_prefix, List.reverse_reverse]
    exact hlongest _ (List.reverse_prefix.mpr hp) hunits.reverse

/-- What has been trimmed has nothing to trim, and no front part of it has. -/
theorem trimUnits_front {s t : List α} (ha : blank a = false)
    (h : t <+: trimUnits blank a b s) : trimUnits blank a b t = t := by
  obtain ⟨pre, hs, hpre, hlongest⟩ := trimsStart_trimUnits (b := b) ha s
  obtain ⟨pre', ht, hpre'⟩ := exists_units blank a b t
  -- What is trimmed of `t` is whitespace that follows `pre` in `s`.
  have hprefix : pre ++ pre' <+: s := by
    rw [hs]
    refine (List.prefix_append_right_inj pre).mpr (List.IsPrefix.trans ?_ h)
    exact ⟨_, ht.symm⟩
  have hlen := (hlongest _ hprefix (hpre.append hpre')).length_le
  rw [List.length_append] at hlen
  have hnil : pre' = [] := List.eq_nil_of_length_eq_zero (by omega)
  rw [hnil, List.nil_append] at ht
  exact ht.symm

/-- **Trimming at both ends a second time takes nothing away.** -/
theorem trimUnits_both (ha : blank a = false) (hb : blank b = false) {s t : List α}
    (ht : t = (trimUnits blank b a (trimUnits blank a b s).reverse).reverse) :
    (trimUnits blank b a (trimUnits blank a b t).reverse).reverse = t := by
  -- Nothing comes to the front where the end is trimmed.
  have hsuffix : trimUnits blank b a (trimUnits blank a b s).reverse <:+ _ := trimUnits_suffix _
  have hprefix := List.reverse_prefix.mpr hsuffix
  rw [List.reverse_reverse, ← ht] at hprefix
  rw [trimUnits_front ha hprefix, ht, List.reverse_reverse, trimUnits_front hb List.prefix_rfl]

end Longest

/-! ## Tokens with whitespace around them -/

/-- Spaces, tabs and `CRLF`. -/
abbrev Whitespace : Bytes → Prop := Units isSpaceOrTab CR LF

/-- A token in whitespace is what trimming leaves. -/
theorem trimBytesWhitespace_token {w token w' : Bytes} (hw : Whitespace w) (hw' : Whitespace w')
    (htoken : isToken token = true) : trimBytesWhitespace (w ++ (token ++ w')) = token := by
  have hmem : ∀ b ∈ token, isSpaceOrTab b = false ∧ b ≠ CR ∧ b ≠ LF := by
    intro b hb
    refine ⟨isSpaceOrTab_of_isToken htoken b hb, ?_, ?_⟩
    all_goals
      rintro rfl
      exact isToken_not_mem htoken (by decide) hb
  have hhead : ∀ {a b : Byte} {s t : Bytes}, (a = CR ∨ a = LF) → s ≠ [] → (∀ b ∈ s, b ∈ token) →
      trimUnits isSpaceOrTab a b (s ++ t) = s ++ t := by
    intro a b s t ha hne hs
    obtain ⟨x, s, rfl⟩ := List.exists_cons_of_ne_nil hne
    obtain ⟨hblank, hcr, hlf⟩ := hmem x (hs x (by simp))
    apply trimUnits_of_head _ hblank
    rintro rfl
    rcases ha with ha | ha
    · exact hcr ha
    · exact hlf ha
  have hne := isToken_ne_nil htoken
  have hlast := hhead (b := CR) (t := []) (.inr rfl) (List.reverse_ne_nil_iff.mpr hne)
    fun _ => List.mem_reverse.mp
  rw [List.append_nil] at hlast
  rw [trimBytesWhitespace, trimBytesWhitespaceLeft_eq, trimUnits_units hw (by decide),
    hhead (.inl rfl) hne fun _ => id, trimBytesWhitespaceRight_eq, List.reverse_append,
    trimUnits_units hw'.reverse (by decide), hlast, List.reverse_reverse]

/-- Whitespace in front of something else is trimmed, and nothing else is. -/
theorem trimBytesWhitespaceLeft_whitespace {w : Bytes} {x : Byte} (hw : Whitespace w)
    (hblank : isSpaceOrTab x = false) (hcr : x ≠ CR) (s : Bytes) :
    trimBytesWhitespaceLeft (w ++ x :: s) = x :: s := by
  rw [trimBytesWhitespaceLeft_eq, trimUnits_units hw (by decide), trimUnits_of_head s hblank hcr]

theorem exists_trimBytesWhitespaceLeft (value : Bytes) :
    ∃ w, value = w ++ trimBytesWhitespaceLeft value ∧ Whitespace w := by
  rw [trimBytesWhitespaceLeft_eq]
  exact exists_units isSpaceOrTab CR LF value

/-- What trimming takes away is whitespace. -/
theorem exists_trimBytesWhitespace (value : Bytes) : ∃ w w',
    value = w ++ (trimBytesWhitespace value ++ w') ∧ Whitespace w ∧ Whitespace w' := by
  have hstart : TrimsStart isSpaceOrTab CR LF value _ := trimsStart_trimUnits (by decide) value
  have hend : TrimsEnd isSpaceOrTab CR LF (trimBytesWhitespaceLeft value) _ :=
    trimsEnd_trimUnits (by decide) _
  obtain ⟨w, hw, hunits, -⟩ := hstart
  obtain ⟨w', hw', hunits', -⟩ := hend
  refine ⟨w, w', ?_, hunits, hunits'⟩
  rw [trimBytesWhitespace, trimBytesWhitespaceRight_eq, ← hw', trimBytesWhitespaceLeft_eq]
  exact hw

theorem Whitespace.not_mem {w : Bytes} (h : Whitespace w) {b : Byte}
    (hb : isSpaceOrTab b = false ∧ b ≠ CR ∧ b ≠ LF) : b ∉ w := by
  induction h with
  | nil => exact List.not_mem_nil
  | blank hx _ ih =>
    rw [List.mem_cons, not_or]
    refine ⟨?_, ih⟩
    rintro rfl
    rw [hb.1] at hx
    cases hx
  | pair _ ih =>
    rw [List.mem_cons, List.mem_cons, not_or, not_or]
    exact ⟨hb.2.1, hb.2.2, ih⟩

/-! ## The bytes of a text -/

section Encoded

variable {α β : Type} [DecidableEq α] [DecidableEq β] {blank : α → Bool} {a b : α}
  {blank' : β → Bool} {a' b' : β} {enc : α → List β}

/-- **What is trimmed of an encoded text is the code of what is trimmed of the text**, if the
    first part of a code tells whether it is whitespace, and whitespace has no other part. -/
theorem trimUnits_flatMap
    (henc : ∀ x, ∃ y w, enc x = y :: w ∧ blank' y = blank x ∧ (y = a' ↔ x = a) ∧ (y = b' ↔ x = b) ∧
      (blank x = true ∨ x = a ∨ x = b → w = [])) (s : List α) :
    trimUnits blank' a' b' (s.flatMap enc) = (trimUnits blank a b s).flatMap enc := by
  have hblank : ∀ x t, blank x = true →
      trimUnits blank' a' b' (enc x ++ t) = trimUnits blank' a' b' t := by
    intro x t hx
    obtain ⟨y, w, hy, hyblank, -, -, hw⟩ := henc x
    rw [hy, hw (.inl hx), List.singleton_append]
    exact trimUnits_of_blank t (hyblank.trans hx)
  have hfront : ∀ x t, blank x = false → (x = a → ∀ r, t ≠ b' :: r) →
      trimUnits blank' a' b' (enc x ++ t) = enc x ++ t := by
    intro x t hx ht
    obtain ⟨y, w, hy, hyblank, hya, -, hw⟩ := henc x
    rw [hy]
    apply trimUnits_of_front
    · rintro _ _ ⟨rfl, rfl⟩
      exact hyblank.trans hx
    · intro r hr
      obtain ⟨rfl, hr⟩ := List.cons.inj hr
      have hxa := hya.mp rfl
      rw [hw (.inr (.inl hxa))] at hr
      exact ht hxa r (List.cons.inj hr).2
  fun_induction trimUnits blank a b s with
  | case1 => rfl
  | case2 x hx => exact hblank x [] hx
  | case3 x hx => exact hfront x [] (Bool.eq_false_iff.mpr hx) (fun _ _ h => by cases h)
  | case4 x y s hx ih =>
    rw [List.flatMap_cons, hblank x _ hx, ih]
  | case5 x y s hx hxy ih =>
    obtain ⟨rfl, rfl⟩ := hxy
    obtain ⟨p, v, hp, hpblank, hpa, -, hv⟩ := henc x
    obtain ⟨q, w, hq, -, -, hqb, hw⟩ := henc y
    have hblank' : blank' a' = false := by
      rw [← hpa.mpr rfl, hpblank]
      exact Bool.eq_false_iff.mpr hx
    rw [List.flatMap_cons, List.flatMap_cons, hp, hq, hv (.inr (.inl rfl)), hw (.inr (.inr rfl)),
      hpa.mpr rfl, hqb.mpr rfl, List.singleton_append, List.singleton_append,
      trimUnits_of_pair _ hblank', ih]
  | case6 x y s hx hxy =>
    rw [List.flatMap_cons]
    refine hfront x _ (Bool.eq_false_iff.mpr hx) ?_
    intro hxa r hr
    obtain ⟨q, w, hq, -, -, hqb, -⟩ := henc y
    rw [List.flatMap_cons, hq] at hr
    exact hxy ⟨hxa, hqb.mp (List.cons.inj hr).1⟩

end Encoded

/-- A byte below 128 at either end of a character's bytes is the character. -/
theorem exists_cons_of_perm {c : Char} {bs : Bytes} (h : bs.Perm (String.utf8EncodeChar c)) :
    ∃ y w, bs = y :: w ∧ (∀ b : Byte, b.toNat < 0x80 → (y = b ↔ c = Char.ofUInt8 b)) ∧
      (c.toNat < 0x80 → w = []) := by
  by_cases hc : c.toNat < 0x80
  · rw [String.utf8EncodeChar_eq_singleton (Str.utf8Size_of_lt hc), List.perm_singleton] at h
    refine ⟨_, _, h, fun b hb => ?_, fun _ => rfl⟩
    have hnat : (UInt8.ofNat c.toNat).toNat = c.toNat := by
      rw [UInt8.toNat_ofNat']
      omega
    rw [← UInt8.toNat_inj, ← Char.toNat_inj]
    exact Eq.congr_left hnat
  · have hwide := Str.utf8EncodeChar_wide (Nat.not_lt.mp hc)
    cases bs with
    | nil => exact absurd h.symm.eq_nil String.utf8EncodeChar_ne_nil
    | cons y w =>
      refine ⟨y, w, rfl, fun b hb => ?_, fun h => absurd h hc⟩
      have hy := hwide y (h.mem_iff.mp (by simp))
      constructor
      · rintro rfl
        omega
      · rintro rfl
        exact absurd hb hc

theorem trimUnits_encoded {enc : Char → Bytes}
    (henc : ∀ c, (enc c).Perm (String.utf8EncodeChar c)) {a b : Byte} (ha : a.toNat < 0x80)
    (hb : b.toNat < 0x80) (s : Str) :
    trimUnits isSpaceOrTab a b (s.flatMap enc) =
      (trimUnits isBlank (Char.ofUInt8 a) (Char.ofUInt8 b) s).flatMap enc := by
  apply trimUnits_flatMap
  intro c
  obtain ⟨y, w, hy, hbyte, hw⟩ := exists_cons_of_perm (henc c)
  have hblank : isSpaceOrTab y = true ↔ isBlank c = true := by
    simp only [isSpaceOrTab, isBlank, Bool.or_eq_true, beq_iff_eq]
    exact or_congr (hbyte SP (by decide)) (hbyte HT (by decide))
  refine ⟨y, w, hy, Bool.eq_iff_iff.mpr hblank, hbyte a ha, hbyte b hb, ?_⟩
  rintro (hc | rfl | rfl)
  · apply hw
    simp only [isBlank, Bool.or_eq_true, beq_iff_eq] at hc
    rcases hc with rfl | rfl
    · decide
    · decide
  · exact hw ha
  · exact hw hb

/-! ## The two trimmers -/

theorem trimBytesWhitespaceLeft_asBytes (s : Str) :
    trimBytesWhitespaceLeft s.asBytes = Str.asBytes (trimWhitespaceLeft s) := by
  rw [trimBytesWhitespaceLeft_eq, trimWhitespaceLeft_eq]
  exact trimUnits_encoded (fun _ => .rfl) (by decide) (by decide) s

theorem trimBytesWhitespaceRight_asBytes (s : Str) :
    trimBytesWhitespaceRight s.asBytes = Str.asBytes (trimWhitespaceRight s) := by
  have hreverse : ∀ t : Str, (Str.asBytes t).reverse =
      t.reverse.flatMap fun c => (String.utf8EncodeChar c).reverse := fun t => List.reverse_flatMap
  rw [trimBytesWhitespaceRight_eq, trimWhitespaceRight_eq, List.reverse_eq_iff, hreverse, hreverse,
    List.reverse_reverse]
  exact trimUnits_encoded (fun c => List.reverse_perm _) (by decide) (by decide) s.reverse

theorem trimBytesWhitespace_asBytes (s : Str) :
    trimBytesWhitespace s.asBytes = Str.asBytes (trimWhitespace s) := by
  rw [trimBytesWhitespace, trimBytesWhitespaceLeft_asBytes, trimBytesWhitespaceRight_asBytes]
  rfl

theorem trimWhitespace_idem (s : Str) : trimWhitespace (trimWhitespace s) = trimWhitespace s := by
  simp only [trimWhitespace, trimWhitespaceLeft_eq, trimWhitespaceRight_eq]
  exact trimUnits_both (by decide) (by decide) rfl

theorem trimBytesWhitespace_idem (value : Bytes) :
    trimBytesWhitespace (trimBytesWhitespace value) = trimBytesWhitespace value := by
  simp only [trimBytesWhitespace, trimBytesWhitespaceLeft_eq, trimBytesWhitespaceRight_eq]
  exact trimUnits_both (by decide) (by decide) rfl

/-- **The two trimmers agree**: they take away the longest prefix and the longest suffix that are
    made of spaces, tabs and `CRLF`, and what they leave has nothing to trim. -/
theorem trimmers_agree (s : Str) :
    (trimBytesWhitespaceLeft s.asBytes = Str.asBytes (trimWhitespaceLeft s) ∧
      trimBytesWhitespaceRight s.asBytes = Str.asBytes (trimWhitespaceRight s) ∧
      trimBytesWhitespace s.asBytes = Str.asBytes (trimWhitespace s)) ∧
    (TrimsStart isBlank '\r' '\n' s (trimWhitespaceLeft s) ∧
      TrimsEnd isBlank '\r' '\n' s (trimWhitespaceRight s) ∧
      TrimsEnd isBlank '\r' '\n' (trimWhitespaceLeft s) (trimWhitespace s)) ∧
    (trimWhitespaceLeft (trimWhitespaceLeft s) = trimWhitespaceLeft s ∧
      trimWhitespaceRight (trimWhitespaceRight s) = trimWhitespaceRight s ∧
      trimWhitespace (trimWhitespace s) = trimWhitespace s) ∧
    ∀ value, trimBytesWhitespace (trimBytesWhitespace value) = trimBytesWhitespace value := by
  have hleft : ∀ t, TrimsStart isBlank '\r' '\n' t (trimWhitespaceLeft t) := by
    intro t
    rw [trimWhitespaceLeft_eq]
    exact trimsStart_trimUnits (by decide) t
  have hright : ∀ t, TrimsEnd isBlank '\r' '\n' t (trimWhitespaceRight t) := by
    intro t
    rw [trimWhitespaceRight_eq]
    exact trimsEnd_trimUnits (by decide) t
  refine ⟨⟨trimBytesWhitespaceLeft_asBytes s, trimBytesWhitespaceRight_asBytes s,
    trimBytesWhitespace_asBytes s⟩, ⟨hleft s, hright s, hright _⟩, ⟨?_, ?_, trimWhitespace_idem s⟩,
    trimBytesWhitespace_idem⟩
  · rw [trimWhitespaceLeft_eq (trimWhitespaceLeft s), trimWhitespaceLeft_eq s]
    exact trimUnits_front (by decide) List.prefix_rfl
  · rw [trimWhitespaceRight_eq (trimWhitespaceRight s), trimWhitespaceRight_eq s,
      List.reverse_reverse, trimUnits_front (by decide) List.prefix_rfl]

/-- A `CR` without `LF` is no whitespace, neither is an `LF` without `CR`. -/
example : trimWhitespace [' ', '\r', '\r', '\n', '\n', '\t'] = ['\r', '\r', '\n', '\n'] := by
  rw [trimWhitespace, trimWhitespaceLeft_eq, trimWhitespaceRight_eq]
  decide

end Syntax
end Rtsp
