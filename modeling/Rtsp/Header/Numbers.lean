import Rtsp.Header.Types

/-!
# The spelling of numeric headers

The grammars that `cseq.rs` and `content_length.rs` quote allow a number of
digits and nothing else. Both decoders leave the digits to `str::parse` and look
at the number it returns: so a plus sign is accepted, and so are more digits than
the grammar has, if they begin with zeros (`numbers_follow_iff`).

The grammar is that of the documentation comments, `1*9DIGIT` and `1*19DIGIT`. It limits
the number of digits and by that the number. The code limits the number, and as to
digits it takes what `str::parse` takes.

Both headers are one definition (`FollowsGrammar`), with the number of digits and the
width of the integer. Lists of values are part of it: no value is no header, and more
than one is an error, of which the grammar of a single value says nothing.

A value with too many digits is an error as well when the number is too large, and as an
error it follows the grammar. Hence `Respelled` has the bound in it.
-/

namespace Rtsp

/-- Digits, and not more of them than the grammar has. -/
def InGrammar (width max : Nat) (text : Bytes) : Prop :=
  IsDigits text ∧ text.length ≤ width ∧ decimal text ≤ max

/-- What is to hold of the decoder of a numeric header. -/
def FollowsGrammar {α : Type} (width max : Nat) (val : α → Nat)
    (decode : List HeaderValue → Except NumberError (Option α)) : List HeaderValue → Prop
  | [] => decode [] = .ok none
  | [v] => ((∃ r, decode [v] = .ok r) ↔ InGrammar width max v.text) ∧
      (InGrammar width max v.text → ∃ x, decode [v] = .ok (some x) ∧ val x = decimal v.text)
  | values => ∃ e, decode values = .error e

/-- A number within the bound in a spelling that the grammar does not have: behind a plus sign,
    or with too many digits, the first of which are then zeros. -/
def Respelled (width bound : Nat) (text : Bytes) : Prop :=
  ∃ ds, IsDigits ds ∧ decimal ds ≤ bound ∧
    (text = 43 :: ds ∨ text = ds ∧ width < text.length)

section Decode

variable {α : Type} {width max bound : Nat} {tryFrom : Nat → Except NumberError α} {val : α → Nat}

/-- A value is decoded if it is parsed to a number within the bound. -/
theorem decodeNumber_eq_ok_iff (htryFrom : ∀ n, (∃ x, tryFrom n = .ok x) ↔ n ≤ bound)
    (hbound : bound ≤ max) (v : HeaderValue) :
    (∃ r, decodeNumber max tryFrom [v] = .ok r) ↔
      ∃ ds, (v.text = ds ∨ v.text = 43 :: ds) ∧ IsDigits ds ∧ decimal ds ≤ bound := by
  rw [decodeNumber]
  constructor
  · rintro ⟨r, h⟩
    cases hparsed : parseUnsigned max v.text with
    | error e =>
      rw [hparsed] at h
      cases h
    | ok n =>
      rw [hparsed] at h
      obtain ⟨ds, htext, hds, rfl, -⟩ := parseUnsigned_eq_ok_iff.mp hparsed
      refine ⟨ds, htext, hds, (htryFrom _).mp ?_⟩
      cases hn : tryFrom (decimal ds) with
      | error e =>
        dsimp only at h
        rw [hn] at h
        cases h
      | ok x => exact ⟨x, rfl⟩
  · rintro ⟨ds, htext, hds, hle⟩
    have hparsed : parseUnsigned max v.text = .ok (decimal ds) :=
      parseUnsigned_eq_ok_iff.mpr ⟨ds, htext, hds, rfl, Nat.le_trans hle hbound⟩
    obtain ⟨x, hx⟩ := (htryFrom (decimal ds)).mpr hle
    rw [hparsed]
    dsimp only
    rw [hx]
    exact ⟨some x, rfl⟩

/-- Digits within the bound are decoded to their number. -/
theorem decodeNumber_digits (htryFrom : ∀ n, n ≤ bound → ∃ x, tryFrom n = .ok x ∧ val x = n)
    (hbound : bound ≤ max) {v : HeaderValue} (hds : IsDigits v.text)
    (hle : decimal v.text ≤ bound) :
    ∃ x, decodeNumber max tryFrom [v] = .ok (some x) ∧ val x = decimal v.text := by
  have hparsed : parseUnsigned max v.text = .ok (decimal v.text) :=
    parseUnsigned_eq_ok_iff.mpr ⟨_, .inl rfl, hds, rfl, Nat.le_trans hle hbound⟩
  obtain ⟨x, hx, hval⟩ := htryFrom _ hle
  refine ⟨x, ?_, hval⟩
  rw [decodeNumber, hparsed]
  dsimp only
  rw [hx]
  rfl

/-- **The decoder keeps to the grammar where the number is spelled as the grammar has it.** -/
theorem follows_iff (hwidth : bound + 1 = 10 ^ width) (hbound : bound ≤ max)
    (hsome : ∀ n, n ≤ bound → ∃ x, tryFrom n = .ok x ∧ val x = n)
    (hnone : ∀ n, bound < n → ∃ e, tryFrom n = .error e) (values : List HeaderValue) :
    FollowsGrammar width max val (decodeNumber max tryFrom) values ↔
      ∀ v, values = [v] → ¬ Respelled width bound v.text := by
  match values with
  | [] => exact iff_of_true rfl nofun
  | _ :: _ :: _ => exact iff_of_true ⟨_, rfl⟩ nofun
  | [v] =>
    have htryFrom : ∀ n, (∃ x, tryFrom n = .ok x) ↔ n ≤ bound := fun n => by
      constructor
      · rintro ⟨x, hx⟩
        refine Nat.le_of_not_lt fun hlt => ?_
        obtain ⟨e, he⟩ := hnone n hlt
        rw [hx] at he
        cases he
      · intro hle
        obtain ⟨x, hx, -⟩ := hsome n hle
        exact ⟨x, hx⟩
    have hfits : ∀ {ds : Bytes}, IsDigits ds → ds.length ≤ width → decimal ds ≤ bound :=
      fun hds hlen => by
        have hpow := Nat.pow_le_pow_right (n := 10) (by decide) hlen
        have hlt := Nat.lt_of_lt_of_le (decimal_lt hds) hpow
        rw [← hwidth] at hlt
        exact Nat.le_of_lt_succ hlt
    have hgrammar : InGrammar width max v.text → ∃ x,
        decodeNumber max tryFrom [v] = .ok (some x) ∧ val x = decimal v.text :=
      fun ⟨hds, hlen, _⟩ => decodeNumber_digits hsome hbound hds (hfits hds hlen)
    have hdecoded := decodeNumber_eq_ok_iff htryFrom hbound v
    constructor
    · rintro ⟨hiff, -⟩ v' hv ⟨ds, hds, hle, hspelled⟩
      cases hv
      -- It is decoded all the same.
      have hread : ∃ ds, (v.text = ds ∨ v.text = 43 :: ds) ∧ IsDigits ds ∧ decimal ds ≤ bound :=
        ⟨ds, hspelled.elim .inr fun h => .inl h.1, hds, hle⟩
      obtain ⟨hdigits, hlen, -⟩ := hiff.mp (hdecoded.mpr hread)
      rcases hspelled with h | ⟨-, hlong⟩
      · have hplus := hdigits.2 43 (h ▸ List.mem_cons_self)
        exact absurd hplus (by decide)
      · omega
    · intro hnot
      refine ⟨⟨fun hread => ?_, fun h => ?_⟩, hgrammar⟩
      · obtain ⟨ds, htext | htext, hds, hle⟩ := hdecoded.mp hread
        · subst htext
          refine ⟨hds, Nat.le_of_not_lt fun hlong => ?_, Nat.le_trans hle hbound⟩
          exact hnot v rfl ⟨_, hds, hle, .inr ⟨rfl, hlong⟩⟩
        · exact absurd ⟨ds, hds, hle, .inl htext⟩ (hnot v rfl)
      · obtain ⟨x, hx, -⟩ := hgrammar h
        exact ⟨some x, hx⟩

end Decode

/-- **The numeric headers are decoded by their grammar exactly where they are spelled by it**:
    `1*9DIGIT` for a `CSeq`, `1*19DIGIT` for a `Content-Length`. -/
theorem numbers_follow_iff (values : List HeaderValue) :
    (FollowsGrammar 9 u32Max CSeq.val (TypedHeader.decode : _ → Except NumberError (Option CSeq))
        values ↔ ∀ v, values = [v] → ¬ Respelled 9 MAX_CSEQ v.text) ∧
    (FollowsGrammar 19 usizeMax ContentLength.val
        (TypedHeader.decode : _ → Except NumberError (Option ContentLength)) values ↔
      ∀ v, values = [v] → ¬ Respelled 19 MAX_CONTENT_LENGTH v.text) := by
  constructor
  · have hsome : ∀ n, n ≤ MAX_CSEQ → ∃ x, CSeq.tryFrom n = .ok x ∧ x.val = n :=
      fun n hn => ⟨⟨n, hn⟩, dif_pos hn, rfl⟩
    have hnone : ∀ n, MAX_CSEQ < n → ∃ e, CSeq.tryFrom n = .error e :=
      fun n hn => ⟨_, dif_neg (Nat.not_le.mpr hn)⟩
    exact follows_iff (by decide) (by decide) hsome hnone values
  · have hsome : ∀ n, n ≤ MAX_CONTENT_LENGTH → ∃ x, ContentLength.tryFrom n = .ok x ∧ x.val = n :=
      fun n hn => ⟨⟨n, hn⟩, dif_pos hn, rfl⟩
    have hnone : ∀ n, MAX_CONTENT_LENGTH < n → ∃ e, ContentLength.tryFrom n = .error e :=
      fun n hn => ⟨_, dif_neg (Nat.not_le.mpr hn)⟩
    exact follows_iff (by decide) (by decide) hsome hnone values

/-- Numbers with a plus sign, and with a zero too many. -/
theorem signs_accepted : ∃ plus zeros : HeaderValue, plus.text = ascii "+1" ∧
    zeros.text = ascii "0000000001" ∧
    ¬ FollowsGrammar 9 u32Max CSeq.val
        (TypedHeader.decode : _ → Except NumberError (Option CSeq)) [plus] ∧
    ¬ FollowsGrammar 9 u32Max CSeq.val
        (TypedHeader.decode : _ → Except NumberError (Option CSeq)) [zeros] ∧
    ¬ FollowsGrammar 19 usizeMax ContentLength.val
        (TypedHeader.decode : _ → Except NumberError (Option ContentLength)) [plus] := by
  refine ⟨⟨ascii "+1", by decide⟩, ⟨ascii "0000000001", by decide⟩, rfl, rfl, ?_, ?_, ?_⟩
  · rintro ⟨h, -⟩
    obtain ⟨⟨-, hdigits⟩, -⟩ := h.mp ⟨some ⟨1, by decide⟩, by decide⟩
    exact absurd (hdigits 43 (by decide)) (by decide)
  · rintro ⟨h, -⟩
    obtain ⟨-, hlen, -⟩ := h.mp ⟨some ⟨1, by decide⟩, by decide⟩
    exact absurd hlen (by decide)
  · rintro ⟨h, -⟩
    obtain ⟨⟨-, hdigits⟩, -⟩ := h.mp ⟨some ⟨1, by decide⟩, by decide⟩
    exact absurd (hdigits 43 (by decide)) (by decide)

end Rtsp
