import Rtsp.Codec.Reading

/-!
# What the shared steps of the decoders did

The decoders share their header lines and their loop. For a header that was read,
`HeaderRead` has all there is to know of it: what it looked like in the buffer, that its
name and value are valid and within the limits, and what is left. The forward direction,
from such a buffer to the header, is in `Codec.Reading`; this is the backward one, from
the answer to the buffer, and it is what a statement about *accepted* messages needs.

`decodeLoop_last` is the rule of the loop for that purpose. Whatever every complete turn
keeps holds at the turn the loop ended with, and `Last` says which turn that can have
been for which result. It says nothing unless the loop returned.

That steps return is said separately (`readField_returns`, `decodeHeader_returns`),
under the condition that one more than each limit fits a `usize`. With larger limits
they panic.
-/

namespace Rtsp

open Syntax Lib

namespace Decoder

variable {δ μ ε : Type} {limits : Limits} {errors : HeaderErrors ε} {headers : HeaderMap}
  {b : Bytes}

/-! ## Header lines -/

/-- A value that was read is followed by its line break, and is not too long. -/
theorem decodeHeaderValue_complete {max : Nat} {tooLong : ε} {value : Bytes}
    (h : decodeHeaderValue max tooLong b = .ok (.complete value)) :
    max + 1 ≤ usizeMax ∧ ∃ rest, b = value ++ CR :: LF :: rest ∧ value.length ≤ max := by
  have hlt := decodeHeaderValue_lt h
  have hmax : max + 1 ≤ usizeMax := by
    by_cases hmax : max + 1 ≤ usizeMax
    · exact hmax
    · rw [decodeHeaderValue_overflow hmax] at h
      cases h
  rw [decodeHeaderValue_eq hmax] at h
  split at h
  · next i hi =>
    split at h
    · next hlen =>
      cases h
      obtain ⟨hle, hcr, hlf⟩ := mem_lineBreaks.mp (List.mem_of_find?_eq_some hi)
      have hcr := (List.getElem?_eq_some_iff.mp hcr).2
      have hlf := (List.getElem?_eq_some_iff.mp hlf).2
      have hdrop : b.drop i = CR :: LF :: b.drop (i + 2) := by
        rw [List.drop_eq_getElem_cons (by omega), List.drop_eq_getElem_cons (by omega), hcr, hlf]
      refine ⟨hmax, b.drop (i + 2), ?_, by simp only [List.length_take]; omega⟩
      rw [← hdrop, List.take_append_drop]
    · cases h
  · split at h <;> cases h

/-- A header as it stands in the buffer: the name up to the colon, the value up to the line
    break that is no fold. -/
structure HeaderRead (limits : Limits) (headers : HeaderMap) (b name value rest : Bytes)
    (headerName : HeaderName) (headerValue : HeaderValue) : Prop where
  ample : limits.Ample
  split : b = name ++ 58 :: (value ++ CR :: LF :: rest)
  notEmpty : CRLF.isPrefixOf b = false
  nameLength : name.length ≤ limits.headerNameMaxLength
  valueLength : value.length ≤ limits.headerValueMaxLength
  count : headers.valuesLen < limits.headerMaxCount
  tryName : HeaderName.tryFrom (trimHeaderName name) = .ok headerName
  tryValue : HeaderValue.tryFrom (trimHeaderValue value) = .ok headerValue

/-- What `decodeHeaderName` returned. -/
theorem decodeHeaderName_complete {max : Nat} {tooLong : ε} {name : Option Bytes}
    (h : decodeHeaderName max tooLong b = .ok (.complete name)) :
    (name = none ∧ CRLF <+: b) ∨
      max + 1 ≤ usizeMax ∧
        ∃ field rest, name = some field ∧ b = field ++ 58 :: rest ∧ field.length ≤ max ∧
          CRLF.isPrefixOf b = false := by
  rw [decodeHeaderName] at h
  split at h
  · next hcrlf =>
    cases h
    exact .inl ⟨rfl, List.isPrefixOf_iff_prefix.mp hcrlf⟩
  · next hcrlf =>
    obtain ⟨r, hread, h⟩ := bind_eq_ok h
    cases r with
    | complete field =>
      cases h
      obtain ⟨hmax, rest, hb, -, hlen⟩ := readUntil_complete_iff.mp hread
      exact .inr ⟨hmax, field, rest, rfl, hb, hlen, Bool.eq_false_iff.mpr hcrlf⟩
    | error e => cases h
    | incomplete => cases h

theorem decodeHeader_header {headerName : HeaderName} {headerValue : HeaderValue} {n : Nat}
    (h : decodeHeader limits errors headers b = .ok (.header headerName headerValue n)) :
    ∃ name value rest, HeaderRead limits headers b name value rest headerName headerValue ∧
      n = name.length + 1 + (value.length + 2) := by
  obtain ⟨r, hname, h⟩ := bind_eq_ok h
  cases r with
  | incomplete => cases h
  | error e => cases h
  | complete name =>
    rcases decodeHeaderName_complete hname with
      ⟨rfl, -⟩ | ⟨hmax, name, rest, rfl, rfl, hlen, hcrlf⟩
    · obtain ⟨_, _, h⟩ := bind_eq_ok h
      split at h <;> cases h
    · dsimp only at h
      rw [decodeHeaderField] at h
      split at h
      · cases h
      · next hcount =>
        rw [sliceFrom_field, ok_bind] at h
        obtain ⟨v, hv, h⟩ := bind_eq_ok h
        cases v with
        | incomplete => cases h
        | error e => cases h
        | complete value =>
          obtain ⟨hvmax, rest', rfl, hvlen⟩ := decodeHeaderValue_complete hv
          dsimp only at h
          split at h
          · cases h
          · next hn =>
            split at h
            · cases h
            · next hval =>
              obtain ⟨_, _, h⟩ := bind_eq_ok h
              cases h
              exact ⟨name, value, rest',
                ⟨⟨hmax, hvmax⟩, rfl, hcrlf, hlen, hvlen, Nat.not_le.mp hcount, hn, hval⟩, rfl⟩

theorem decodeHeader_ended_inv {l : ContentLength}
    (h : decodeHeader limits errors headers b = .ok (.ended l)) :
    CRLF <+: b ∧ bodyLength limits errors headers = .ok l := by
  obtain ⟨r, hname, h⟩ := bind_eq_ok h
  cases r with
  | incomplete => cases h
  | error e => cases h
  | complete name =>
    rcases decodeHeaderName_complete hname with ⟨rfl, hcrlf⟩ | ⟨-, name, rest, rfl, rfl, -⟩
    · obtain ⟨_, _, h⟩ := bind_eq_ok h
      split at h
      · next hl =>
        cases h
        exact ⟨hcrlf, hl⟩
      · cases h
    · dsimp only at h
      rw [decodeHeaderField] at h
      split at h
      · cases h
      · rw [sliceFrom_field, ok_bind] at h
        obtain ⟨v, _, h⟩ := bind_eq_ok h
        cases v with
        | incomplete => cases h
        | error e => cases h
        | complete value =>
          dsimp only at h
          split at h
          · cases h
          · split at h
            · cases h
            · obtain ⟨_, _, h⟩ := bind_eq_ok h
              cases h

theorem bodyLength_le {l : ContentLength} (h : bodyLength limits errors headers = .ok l) :
    l.val ≤ limits.bodyMaxLength := by
  unfold bodyLength at h
  split at h
  · split at h
    · cases h
    · next hle =>
      cases h
      exact Nat.not_lt.mp hle
  · cases h
    exact Nat.zero_le _
  · cases h

/-! ## The last turn -/

/-- The message that a call of `decode` came to, if it did. -/
def completed : Rust (DecodeResult μ ε × Nat × δ) → Option μ
  | .ok (.complete m, _, _) => some m
  | _ => none

theorem completed_eq_some {r : Rust (DecodeResult μ ε × Nat × δ)} {m : μ}
    (h : completed r = some m) : ∃ n d, r = .ok (.complete m, n, d) := by
  unfold completed at h
  split at h
  · cases h
    exact ⟨_, _, rfl⟩
  · cases h

theorem exists_of_completed {r : Rust (DecodeResult μ ε × Nat × δ)}
    (h : (completed r).isSome = true) : ∃ m n d, r = .ok (.complete m, n, d) := by
  obtain ⟨m, hm⟩ := Option.isSome_iff_exists.mp h
  exact ⟨m, completed_eq_some hm⟩

/-- What the last turn of a call of `decode` made of it. -/
inductive Last (turn : δ → Bytes → Rust (Turn δ μ ε)) (setError : δ → ε → δ) (d : δ) (b : Bytes)
    (decoded : Nat) : DecodeResult μ ε → Nat → δ → Prop where
  | incomplete : turn d b = .ok .incomplete → Last turn setError d b decoded .incomplete decoded d
  | message {m d'} : turn d b = .ok (.message m d') →
      Last turn setError d b decoded (.complete m) decoded d'
  | error {n e} : turn d b = .ok (.error n e) →
      Last turn setError d b decoded (.error e) (decoded + n) (setError d e)
  | failed {e} : turn d b = .ok (.failed e) → Last turn setError d b decoded (.error e) 0 d

/-- **The rule of the loop**: what every complete turn keeps holds at the last one. -/
theorem decodeLoop_last {turn : δ → Bytes → Rust (Turn δ μ ε)} {setError : δ → ε → δ}
    {J : δ → Bytes → Prop}
    (hJ : ∀ d b d' n, J d b → turn d b = .ok (.complete d' n) → J d' (b.drop n)) {turns : Nat}
    {d d' : δ} {b : Bytes} {decoded n : Nat} {result : DecodeResult μ ε} (hd : J d b)
    (h : decodeLoop turn setError turns d b decoded = .ok (result, n, d')) :
    ∃ d₁ k, J d₁ (b.drop k) ∧ Last turn setError d₁ (b.drop k) (decoded + k) result n d' := by
  induction turns generalizing d b decoded with
  | zero => cases h
  | succ turns ih =>
    unfold decodeLoop at h
    obtain ⟨t, hturn, h⟩ := bind_eq_ok h
    cases t with
    | complete d₁ n₁ =>
      obtain ⟨d₂, k, hd₂, hlast⟩ := ih (hJ _ _ _ _ hd hturn) h
      rw [List.drop_drop] at hd₂ hlast
      rw [Nat.add_assoc] at hlast
      exact ⟨d₂, n₁ + k, hd₂, hlast⟩
    | error n₁ e =>
      cases h
      exact ⟨d, 0, hd, .error hturn⟩
    | incomplete =>
      cases h
      exact ⟨_, 0, hd, .incomplete hturn⟩
    | message m d₁ =>
      cases h
      exact ⟨d, 0, hd, .message hturn⟩
    | failed e =>
      cases h
      exact ⟨_, 0, hd, .failed hturn⟩

/-! ## Steps return -/

theorem readField_returns {separator : Byte} {max : Nat} {tooLong : ε}
    {next : Bytes → Rust (Turn δ μ ε)} (hmax : max + 1 ≤ usizeMax)
    (hnext : ∀ field, field.length + 1 ≤ b.length → ∃ t, next field = .ok t) :
    ∃ t, readField separator max tooLong b next = .ok t := by
  obtain ⟨r, hr⟩ : ∃ r, readUntil separator max tooLong b = .ok r := by
    rw [readUntil_eq hmax]
    split
    · exact ⟨_, rfl⟩
    · split <;> exact ⟨_, rfl⟩
  rw [readField, hr, ok_bind]
  cases r with
  | complete field =>
    obtain ⟨-, rest, hb, -⟩ := readUntil_complete_iff.mp hr
    exact hnext field (by simp [hb])
  | error e => exact ⟨_, rfl⟩
  | incomplete => exact ⟨_, rfl⟩

theorem decodeHeaderValue_returns {max : Nat} (tooLong : ε) (hmax : max + 1 ≤ usizeMax)
    (b : Bytes) : ∃ r, decodeHeaderValue max tooLong b = .ok r := by
  rw [decodeHeaderValue_eq hmax]
  split
  · split <;> exact ⟨_, rfl⟩
  · split <;> exact ⟨_, rfl⟩

theorem decodeHeader_returns (errors : HeaderErrors ε) (headers : HeaderMap)
    (hlimits : limits.Ample) (b : Bytes) :
    ∃ l, decodeHeader limits errors headers b = .ok l := by
  obtain ⟨r, hr⟩ : ∃ r, decodeHeaderName limits.headerNameMaxLength errors.headerNameTooLong b =
      .ok r := by
    rw [decodeHeaderName]
    split
    · exact ⟨_, rfl⟩
    · obtain ⟨r, hr⟩ : ∃ r, readUntil 58 limits.headerNameMaxLength errors.headerNameTooLong b =
          .ok r := by
        rw [readUntil_eq hlimits.name]
        split
        · exact ⟨_, rfl⟩
        · split <;> exact ⟨_, rfl⟩
      rw [hr, ok_bind]
      cases r <;> exact ⟨_, rfl⟩
  rw [decodeHeader, hr, ok_bind]
  cases r with
  | incomplete => exact ⟨_, rfl⟩
  | error e => exact ⟨_, rfl⟩
  | complete name =>
    rcases decodeHeaderName_complete hr with ⟨rfl, hcrlf⟩ | ⟨-, name, rest, rfl, rfl, -⟩
    · dsimp only
      rw [sliceFrom_of_le (show 2 ≤ b.length from hcrlf.length_le), ok_bind]
      cases bodyLength limits errors headers <;> exact ⟨_, rfl⟩
    · dsimp only
      rw [decodeHeaderField]
      split
      · exact ⟨_, rfl⟩
      · rw [sliceFrom_field, ok_bind]
        obtain ⟨v, hv⟩ := decodeHeaderValue_returns errors.headerValueTooLong hlimits.value rest
        rw [hv, ok_bind]
        cases v with
        | incomplete => exact ⟨_, rfl⟩
        | error e => exact ⟨_, rfl⟩
        | complete value =>
          dsimp only
          split
          · exact ⟨_, rfl⟩
          · split
            · exact ⟨_, rfl⟩
            · rw [sliceFrom_of_le (Nat.le_of_lt (decodeHeaderValue_lt hv)), ok_bind]
              exact ⟨_, rfl⟩

end Decoder

end Rtsp
