import Rtsp.Str

/-!
# Header values

`header/value.rs`: a UTF-8 text of printable ASCII, tabs and non-ASCII
characters, in which a line may break only as `CRLF` and a space or a tab.

What the decoder needs to know about it is in bytes: `Folded` says that every
`CR` of a value starts such a fold.

The check of the source is a loop over characters with a state, and it is modelled as
such; it runs over what UTF-8 decodes to. But the decoders work on bytes, and look for
`CR` and `LF` there. That these two bytes occur in no other character is what connects
the two views, and it is a fact about UTF-8 that is shown here once (`Folded`).

A value carries its check as a field. The unchecked constructor of the source asserts
the same in debug builds, and only there; `fromStringUnchecked` panics where the
assertion would.
-/

namespace Rtsp

open Syntax

inductive HeaderValueError where
  | invalidAscii
  | invalidLineBreak
  | invalidUtf8
  deriving DecidableEq

namespace HeaderValue

/-- `ExpectState` -/
inductive ExpectState where
  | any
  | lf
  | spaceOrTab
  deriving DecidableEq

/-- One turn of the loop over the characters. -/
def ExpectState.next (c : Nat) : ExpectState → Except HeaderValueError ExpectState
  | any =>
    if isAscii c then
      if c = 13 then .ok lf
      else if isForbiddenAscii c then .error .invalidAscii
      else .ok any
    else .ok any
  | lf => if c = 10 then .ok spaceOrTab else .error .invalidLineBreak
  | spaceOrTab => if c = 32 ∨ c = 9 then .ok any else .error .invalidLineBreak

/-- The loop over the characters. -/
def ExpectState.run (s : ExpectState) : List Nat → Except HeaderValueError ExpectState
  | [] => .ok s
  | c :: cs =>
    match s.next c with
    | .ok s' => run s' cs
    | .error e => .error e

/-- The checks of `HeaderValue::try_from`. -/
def check (value : Bytes) : Except HeaderValueError Unit :=
  match fromUtf8 value with
  | none => .error .invalidUtf8
  | some chars =>
    match ExpectState.any.run chars with
    | .ok s => if s ≠ .any then .error .invalidLineBreak else .ok ()
    | .error e => .error e

end HeaderValue

structure HeaderValue where
  text : Bytes
  valid : HeaderValue.check text = .ok ()
  deriving DecidableEq

namespace HeaderValue

/-- `HeaderValue::try_from` -/
def tryFrom (value : Bytes) : Except HeaderValueError HeaderValue :=
  match h : check value with
  | .ok () => .ok ⟨value, h⟩
  | .error e => .error e

theorem tryFrom_text (v : HeaderValue) : tryFrom v.text = .ok v := by
  unfold tryFrom
  split
  · rfl
  · next e h => rw [v.valid] at h; cases h

theorem tryFrom_eq_ok {value : Bytes} {v : HeaderValue} (h : tryFrom value = .ok v) :
    v.text = value := by
  unfold tryFrom at h
  split at h
  · cases h; rfl
  · cases h

/-- `HeaderValue::as_str` -/
def asStr (v : HeaderValue) : Str :=
  match fromUtf8 v.text with
  | some chars => chars.map Char.ofNat
  -- Excluded: the text was checked to be UTF-8.
  | none => []

theorem asStr_of_ascii {v : HeaderValue} (h : ∀ b ∈ v.text, b.toNat < 0x80) :
    v.asStr = Str.ofAscii v.text := by
  simp [asStr, fromUtf8_ascii h, Str.ofAscii, Str.ofNat_toNat]

/-- `HeaderValue::from_string_unchecked`, with its `debug_assert!`. -/
def fromStringUnchecked (value : Str) : Rust HeaderValue :=
  match tryFrom value.asBytes with
  | .ok v => .ok v
  | .error _ => .error (.assertion "HeaderValue::try_from(value.as_str()).is_ok()")

theorem run_printable {cs : List Nat} (h : ∀ c ∈ cs, 32 ≤ c ∧ c ≤ 126) :
    ExpectState.any.run cs = .ok .any := by
  induction cs with
  | nil => rfl
  | cons c cs ih =>
    obtain ⟨hlo, hhi⟩ := h c (by simp)
    have hnext : ExpectState.any.next c = .ok .any := by
      have hne : c ≠ 13 := by omega
      have hf : isForbiddenAscii c = false := by
        simp only [isForbiddenAscii, Bool.and_eq_false_iff, Bool.or_eq_false_iff,
          decide_eq_false_iff_not]
        exact .inl (.inr ⟨by omega, by omega⟩)
      simp [ExpectState.next, hne, hf]
    rw [ExpectState.run, hnext]
    exact ih fun c' hc' => h c' (by simp [hc'])

/-- A text of printable ASCII is a header value. -/
theorem check_printable {value : Bytes} (h : ∀ b ∈ value, 32 ≤ b.toNat ∧ b.toNat ≤ 126) :
    check value = .ok () := by
  have hchars := fromUtf8_ascii fun b hb => Nat.lt_of_le_of_lt (h b hb).2 (by decide)
  have hrun : ExpectState.any.run (value.map UInt8.toNat) = .ok .any :=
    run_printable fun c hc => by
      obtain ⟨b, hb, rfl⟩ := List.mem_map.mp hc
      exact h b hb
  simp [check, hchars, hrun]

/-- It is the string that was put in. -/
theorem fromStringUnchecked_printable {s : Str} (h : ∀ c ∈ s, 32 ≤ c.toNat ∧ c.toNat ≤ 126) :
    ∃ v, fromStringUnchecked s = .ok v ∧ v.asStr = s := by
  obtain ⟨bs, rfl, hbs⟩ := Str.exists_ofAscii fun c hc => Nat.lt_of_le_of_lt (h c hc).2 (by decide)
  have hprintable : ∀ b ∈ bs, 32 ≤ b.toNat ∧ b.toNat ≤ 126 := fun b hb =>
    h _ (List.mem_map.mpr ⟨b, hb, rfl⟩)
  refine ⟨⟨bs, check_printable hprintable⟩, ?_, asStr_of_ascii hbs⟩
  rw [fromStringUnchecked, Str.asBytes_ofAscii hbs, tryFrom_text ⟨bs, check_printable hprintable⟩]

/-- The decimal notation of a number is a header value. -/
theorem check_toDecimal (n : Nat) : check (toDecimal n) = .ok () := by
  refine check_printable fun b hb => ?_
  have := isDigit_of_mem_toDecimal n b hb
  simp only [isDigit, Bool.and_eq_true, decide_eq_true_eq, UInt8.le_iff_toNat_le,
    UInt8.reduceToNat] at this
  omega

def ofNumber (n : Nat) : HeaderValue := ⟨toDecimal n, check_toDecimal n⟩

/-! ## What a value consists of -/

/-- A character that may stand anywhere: a tab, printable ASCII, or not ASCII at all. -/
def IsText (c : Nat) : Prop := c = 9 ∨ 32 ≤ c ∧ c ≤ 126 ∨ 128 ≤ c

def IsBlank (c : Nat) : Prop := c = 32 ∨ c = 9

/-- Text, and line breaks with a space or a tab right behind them. -/
inductive Lines : List Nat → Prop where
  | nil : Lines []
  | text {c cs} : IsText c → Lines cs → Lines (c :: cs)
  | fold {c cs} : IsBlank c → Lines (c :: cs) → Lines (13 :: 10 :: c :: cs)

/-- What `Lines` says of the rest, in each state of the loop. -/
def LinesFrom : ExpectState → List Nat → Prop
  | .any, cs => Lines cs
  | .lf, cs => ∃ c cs', cs = 10 :: c :: cs' ∧ IsBlank c ∧ Lines (c :: cs')
  | .spaceOrTab, cs => ∃ c cs', cs = c :: cs' ∧ IsBlank c ∧ Lines cs

theorem IsBlank.isText {c : Nat} (h : IsBlank c) : IsText c := by
  rcases h with rfl | rfl
  · exact .inr (.inl ⟨by omega, by omega⟩)
  · exact .inl rfl

theorem isText_iff {c : Nat} :
    IsText c ↔ isAscii c = false ∨ isForbiddenAscii c = false := by
  simp only [IsText, isForbiddenAscii, isAscii, Bool.and_eq_false_iff, Bool.or_eq_false_iff,
    decide_eq_false_iff_not, bne_eq_false_iff_eq]
  omega

theorem not_isText_cr : ¬ IsText 13 := by
  unfold IsText
  omega

/-- Text is read in place; a `CR` begins a line break. -/
theorem lines_cons_iff {c : Nat} {cs : List Nat} (hcr : c ≠ 13) :
    Lines (c :: cs) ↔ IsText c ∧ Lines cs := by
  constructor
  · intro h
    cases h with
    | text hc hcs => exact ⟨hc, hcs⟩
    | fold => exact absurd rfl hcr
  · rintro ⟨hc, hcs⟩
    exact .text hc hcs

theorem lines_cr_iff {cs : List Nat} : Lines (13 :: cs) ↔ LinesFrom .lf cs := by
  constructor
  · intro h
    cases h with
    | text hc _ => exact absurd hc not_isText_cr
    | fold hc hcs => exact ⟨_, _, rfl, hc, hcs⟩
  · rintro ⟨c, cs', rfl, hc, hcs⟩
    exact .fold hc hcs

/-- **The loop over the characters accepts the lines**, from each of its states. -/
theorem run_iff (cs : List Nat) (s : ExpectState) : s.run cs = .ok .any ↔ LinesFrom s cs := by
  induction cs generalizing s with
  | nil =>
    cases s with
    | any => exact iff_of_true rfl .nil
    | lf => exact iff_of_false nofun nofun
    | spaceOrTab => exact iff_of_false nofun nofun
  | cons c cs ih =>
    rw [ExpectState.run]
    cases s with
    | any =>
      by_cases hcr : c = 13
      · subst hcr
        exact (ih .lf).trans lines_cr_iff.symm
      · show _ ↔ Lines (c :: cs)
        have hrest : ExpectState.any.run cs = .ok .any ↔ Lines cs := ih .any
        rw [lines_cons_iff hcr, isText_iff, ExpectState.next]
        cases isAscii c with
        | false => simpa using hrest
        | true =>
          cases isForbiddenAscii c with
          | false => simpa [hcr] using hrest
          | true => simp [hcr]
    | lf =>
      by_cases hlf : c = 10
      · subst hlf
        refine (ih .spaceOrTab).trans ⟨?_, ?_⟩
        · rintro ⟨c, cs', rfl, hc, hcs⟩
          exact ⟨c, cs', rfl, hc, hcs⟩
        · rintro ⟨c, cs', h, hc, hcs⟩
          cases h
          exact ⟨c, cs', rfl, hc, hcs⟩
      · rw [ExpectState.next, if_neg hlf]
        exact iff_of_false nofun fun ⟨_, _, h, _⟩ => hlf (List.cons.inj h).1
    | spaceOrTab =>
      by_cases hblank : IsBlank c
      · have hcr : c ≠ 13 := by
          rintro rfl
          exact not_isText_cr hblank.isText
        have hnext : ExpectState.spaceOrTab.next c = .ok .any := if_pos hblank
        rw [hnext]
        refine (ih .any).trans ⟨fun h => ⟨c, cs, rfl, hblank, .text hblank.isText h⟩, ?_⟩
        rintro ⟨_, _, -, -, h⟩
        exact ((lines_cons_iff hcr).mp h).2
      · have hnext : ExpectState.spaceOrTab.next c = .error .invalidLineBreak := if_neg hblank
        rw [hnext]
        refine iff_of_false nofun ?_
        rintro ⟨_, _, h, hc, -⟩
        exact hblank ((List.cons.inj h).1 ▸ hc)

/-- **A text is a header value exactly if it consists of lines.** -/
theorem tryFrom_iff {value : Bytes} :
    (∃ v, tryFrom value = .ok v) ↔ ∃ cs, fromUtf8 value = some cs ∧ Lines cs := by
  have hcheck : (∃ v, tryFrom value = .ok v) ↔ check value = .ok () := by
    constructor
    · rintro ⟨v, h⟩
      rw [← tryFrom_eq_ok h]
      exact v.valid
    · intro h
      exact ⟨⟨value, h⟩, tryFrom_text ⟨value, h⟩⟩
  rw [hcheck, check]
  cases fromUtf8 value with
  | none => simp
  | some chars =>
    have hrun : ExpectState.any.run chars = .ok .any ↔ Lines chars := run_iff chars .any
    dsimp only
    cases h : ExpectState.any.run chars with
    | error e =>
      rw [h] at hrun
      simpa using hrun
    | ok s =>
      rw [h] at hrun
      by_cases hs : s = .any
      · simpa [hs] using hrun
      · simpa [hs] using hrun

/-! ## Folds -/

/-- Every `CR` is the first byte of `CRLF` and a space or a tab. -/
inductive Folded : Bytes → Prop where
  | nil : Folded []
  | byte {b bs} : b ≠ CR → Folded bs → Folded (b :: bs)
  | fold {b bs} : isSpaceOrTab b = true → Folded bs → Folded (CR :: LF :: b :: bs)

/-- `Folded` from the middle of a fold. -/
def FoldedFrom : ExpectState → Bytes → Prop
  | .any, bs => Folded bs
  | .lf, bs => ∃ b bs', bs = LF :: b :: bs' ∧ isSpaceOrTab b = true ∧ Folded bs'
  | .spaceOrTab, bs => ∃ b bs', bs = b :: bs' ∧ isSpaceOrTab b = true ∧ Folded bs'

theorem Folded.append_wide {w bs : Bytes} (hw : ∀ b ∈ w, 0x80 ≤ b.toNat) (h : Folded bs) :
    Folded (w ++ bs) := by
  induction w with
  | nil => exact h
  | cons b w ih =>
    have hb : b ≠ CR := by
      rintro rfl
      exact absurd (hw CR (by simp)) (by decide)
    exact .byte hb (ih fun b' hb' => hw b' (by simp [hb']))

theorem byte_eq {b c : Byte} (h : b.toNat = c.toNat) : b = c := UInt8.toNat_inj.mp h

/-- The loop over the characters, read as a statement about the bytes. -/
theorem foldedFrom_of_run {bs : Bytes} {cs : List Nat} (hsp : Spells bs cs) {s : ExpectState}
    (h : s.run cs = .ok .any) : FoldedFrom s bs := by
  induction hsp generalizing s with
  | nil => cases h; exact .nil
  | @ascii b bs cs hb _ ih =>
    rw [ExpectState.run] at h
    split at h
    · next s' hnext =>
      have hrest := ih h
      cases s with
      | any =>
        simp only [ExpectState.next] at hnext
        split at hnext
        · split at hnext
          · next hcr =>
            cases hnext
            obtain ⟨b', bs', rfl, hb', hf⟩ := hrest
            rw [byte_eq (c := CR) hcr]
            exact .fold hb' hf
          · next hcr =>
            split at hnext
            · cases hnext
            · cases hnext
              exact .byte (fun e => hcr (congrArg UInt8.toNat e)) hrest
        · next hascii => simp [isAscii, hb] at hascii
      | lf =>
        simp only [ExpectState.next] at hnext
        split at hnext
        · next hlf =>
          cases hnext
          obtain ⟨b', bs', rfl, hb', hf⟩ := hrest
          exact ⟨b', bs', by rw [byte_eq (c := LF) hlf], hb', hf⟩
        · cases hnext
      | spaceOrTab =>
        simp only [ExpectState.next] at hnext
        split at hnext
        · next hws =>
          cases hnext
          refine ⟨b, bs, rfl, ?_, hrest⟩
          rcases hws with hws | hws
          · rw [byte_eq (c := SP) hws]; rfl
          · rw [byte_eq (c := HT) hws]; rfl
        · cases hnext
    · cases h
  | wide hw hc _ ih =>
    rw [ExpectState.run] at h
    split at h
    · next s' hnext =>
      have hrest := ih h
      cases s with
      | any =>
        simp only [ExpectState.next, isAscii, decide_eq_true_eq, if_neg (Nat.not_lt.mpr hc)]
          at hnext
        cases hnext
        exact hrest.append_wide hw
      | lf =>
        rw [ExpectState.next, if_neg (by omega)] at hnext
        cases hnext
      | spaceOrTab =>
        rw [ExpectState.next, if_neg (by omega)] at hnext
        cases hnext
    · cases h

/-- A header value breaks its lines only in folds. -/
theorem folded (v : HeaderValue) : Folded v.text := by
  have h := v.valid
  unfold check at h
  split at h
  · cases h
  · next cs hcs =>
    split at h
    · next s hs =>
      split at h
      · cases h
      · next hany =>
        rw [Classical.not_not.mp hany] at hs
        exact foldedFrom_of_run (fromUtf8_spells hcs) hs
    · cases h

/-- A `CR` in the middle of a folded text has its fold behind it. -/
theorem Folded.getElem?_cr {bs : Bytes} (h : Folded bs) {i : Nat} (hi : bs[i]? = some CR) :
    ∃ b, bs[i + 2]? = some b ∧ isSpaceOrTab b = true := by
  induction h generalizing i with
  | nil => simp at hi
  | byte hb _ ih =>
    cases i with
    | zero => exact absurd (by simpa using hi) hb
    | succ i => simpa using ih (by simpa using hi)
  | @fold b bs hb _ ih =>
    match i with
    | 0 => exact ⟨b, rfl, hb⟩
    | 1 => cases hi
    | 2 =>
      obtain rfl : b = CR := by simpa using hi
      cases hb
    | i + 3 => simpa using ih (by simpa using hi)

end HeaderValue
end Rtsp
