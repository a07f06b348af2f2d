import Rtsp.Codec.Stability.Fields

/-!
# What arriving bytes change in a header

A header line is read in one step: its name, its value, and the bookkeeping behind it.
It stands where its value is not torn (`decodeHeader_stands`). `TornHeader` has to say a
little more than that the value is torn, since a header with a bad name, or one header
too many, fails before its value is looked at, and then it does not matter how the bytes
arrived.

That a torn header really makes a difference is shown too (`decodeHeader_torn`): on the
shorter buffer the value is too long, and on the longer one, whatever else the decoder
may have against the header, it is not that. So `TornHeader` is not merely sufficient.
-/

namespace Rtsp

open Syntax Lib

namespace Decoder

variable {ρ α ε : Type}

/-! ## Headers -/

/-- What `decodeHeaderValue` returns is followed by its line break and one more byte. -/
theorem decodeHeaderValue_lt {max : Nat} {tooLong : ε} {b value : Bytes}
    (h : decodeHeaderValue max tooLong b = .ok (.complete value)) :
    value.length + 2 < b.length := by
  by_cases hmax : max + 1 ≤ usizeMax
  · rw [decodeHeaderValue_eq hmax] at h
    split at h
    · next i _ =>
      split at h
      · cases h
        simp only [List.length_take]
        omega
      · cases h
    · split at h <;> cases h
  · rw [decodeHeaderValue_overflow hmax] at h
    cases h

/-- The value of the header under way is torn, and nothing else has stopped the decoder
    before. -/
def TornHeader (limits : Limits) (headers : HeaderMap) (b t : Bytes) : Prop :=
  ∃ name rest, b = name ++ 58 :: rest ∧ 58 ∉ name ∧ name.length ≤ limits.headerNameMaxLength ∧
    CRLF.isPrefixOf b = false ∧ headers.valuesLen < limits.headerMaxCount ∧
    TornValue limits.headerValueMaxLength rest t

/-- Limits a decoder can work with: a name may have a byte, and one more than the longest
    name is still a `usize`. -/
def Limits.Regular (limits : Limits) : Prop :=
  0 < limits.headerNameMaxLength ∧ limits.headerNameMaxLength + 1 ≤ usizeMax

variable {limits : Limits} {errors : HeaderErrors ε} {headers : HeaderMap} {b t : Bytes}

/-- What is left of the buffer behind a field and its separator. -/
theorem sliceFrom_field (field rest : Bytes) (separator : Byte) :
    sliceFrom (field ++ separator :: rest) (field.length + 1) = .ok rest := by
  rw [sliceFrom_of_le (by simp)]
  simp [List.drop_append]

theorem decodeHeaderField_stands {name rest : Bytes}
    (h : headers.valuesLen < limits.headerMaxCount →
      ¬ TornValue limits.headerValueMaxLength rest t) :
    Stands .incomplete (decodeHeaderField limits errors headers name) (name ++ 58 :: rest) t := by
  unfold Stands decodeHeaderField
  split
  · exact .inr rfl
  · next hcount =>
    rw [List.append_assoc, List.cons_append, sliceFrom_field, sliceFrom_field, ok_bind, ok_bind]
    rcases decodeHeaderValue_stands errors.headerValueTooLong
      (h (Nat.not_le.mp hcount)) with hv | hv
    · exact .inl (by rw [hv, ok_bind])
    · right
      rw [hv]
      cases hval : decodeHeaderValue limits.headerValueMaxLength errors.headerValueTooLong rest with
      | error p => rfl
      | ok r =>
        cases r with
        | complete value =>
          have hlt := decodeHeaderValue_lt hval
          simp only [ok_bind]
          split
          · rfl
          · split
            · rfl
            · rw [sliceFrom_append (by omega), sliceFrom_of_le (by omega)]
              rfl
        | _ => rfl

theorem decodeHeader_stands (errors : HeaderErrors ε) (hlimits : limits.Regular)
    (h : ¬ TornHeader limits headers b t) :
    Stands .incomplete (decodeHeader limits errors headers) b t := by
  unfold Stands decodeHeader
  rcases decodeHeaderName_stands hlimits.1 hlimits.2 errors.headerNameTooLong b t with hn | hn
  · exact .inl (by rw [hn, ok_bind])
  · rw [hn]
    cases hname : decodeHeaderName limits.headerNameMaxLength errors.headerNameTooLong b with
    | error p => exact .inr rfl
    | ok r =>
      rw [decodeHeaderName] at hname
      split at hname
      · -- The empty line: two bytes that are there already.
        next hcrlf =>
        cases hname
        have hlen : 2 ≤ b.length := (List.isPrefixOf_iff_prefix.mp hcrlf).length_le
        right
        simp only [ok_bind, sliceFrom_append hlen, sliceFrom_of_le hlen]
      · next hcrlf =>
        cases hread : readUntil 58 limits.headerNameMaxLength errors.headerNameTooLong b with
        | error p => rw [hread] at hname; cases hname
        | ok r' =>
          rw [hread, ok_bind] at hname
          cases r' with
          | complete name =>
            cases hname
            obtain ⟨-, rest, rfl, hsep, hlen⟩ := readUntil_complete_iff.mp hread
            refine decodeHeaderField_stands fun hcount htorn => h ?_
            exact ⟨name, rest, rfl, hsep, hlen, eq_false_of_ne_true hcrlf, hcount, htorn⟩
          | error e => cases hname; exact .inr rfl
          | incomplete => cases hname; exact .inr rfl

/-! ## Torn values -/

/-- A torn value is too long on the buffer, and not on the longer one. -/
theorem decodeHeaderValue_torn {max : Nat} (tooLong : ε) (hmax : max + 1 ≤ usizeMax)
    (h : TornValue max b t) : decodeHeaderValue max tooLong b = .ok (.error tooLong) ∧
      decodeHeaderValue max tooLong (b ++ t) ≠ .ok (.error tooLong) := by
  obtain ⟨b', t', rfl, rfl, hlen, hfolds, hstop⟩ := h
  constructor
  · rw [decodeHeaderValue_eq hmax, find?_folds_eq_none.mpr hfolds]
    exact if_pos (Nat.le_of_eq hlen.symm)
  · have hn : max + 1 = b'.length + 1 := by simpa using hlen.symm
    have hmem : b'.length ∈ lineBreaks (b' ++ [CR] ++ LF :: t') (max + 1) := by
      rw [hn, lineBreaks_open]
      simp
    rw [decodeHeaderValue_eq hmax]
    split
    · split <;> simp
    · next hnone =>
      have := find?_folds_eq_none.mp hnone _ hmem
      rw [hstop] at this
      cases this

theorem decodeHeaderName_field {max : Nat} {tooLong : ε} {name rest : Bytes}
    (hmax : max + 1 ≤ usizeMax) (hcrlf : CRLF.isPrefixOf (name ++ 58 :: rest) = false)
    (hsep : 58 ∉ name) (hlen : name.length ≤ max) :
    decodeHeaderName max tooLong (name ++ 58 :: rest) = .ok (.complete (some name)) := by
  rw [decodeHeaderName, hcrlf, readUntil_complete_iff.mpr ⟨hmax, rest, rfl, hsep, hlen⟩]
  rfl

/-- What a header field can fail with. -/
theorem decodeHeaderField_error {name : Bytes} {e : ε}
    (hcount : headers.valuesLen < limits.headerMaxCount)
    (h : decodeHeaderField limits errors headers name b = .ok (.error e)) :
    (∃ rest, sliceFrom b (name.length + 1) = .ok rest ∧
      decodeHeaderValue limits.headerValueMaxLength errors.headerValueTooLong rest =
        .ok (.error e)) ∨
      (∃ e', e = errors.headerName e') ∨ ∃ e', e = errors.headerValue e' := by
  rw [decodeHeaderField, if_neg (Nat.not_le.mpr hcount)] at h
  obtain ⟨rest, hrest, h⟩ := bind_eq_ok h
  obtain ⟨v, hv, hok⟩ := bind_eq_ok h
  cases v with
  | incomplete => cases hok
  | error e' => cases hok; exact .inl ⟨rest, hrest, hv⟩
  | complete value =>
    simp only at hok
    split at hok
    · next e' _ => cases hok; exact .inr (.inl ⟨e', rfl⟩)
    · split at hok
      · next e' _ => cases hok; exact .inr (.inr ⟨e', rfl⟩)
      · obtain ⟨_, _, hok⟩ := bind_eq_ok hok
        cases hok

theorem decodeHeaderField_ne_endedWithError {name : Bytes} {e : ε} :
    decodeHeaderField limits errors headers name b ≠ .ok (.endedWithError e) := by
  intro h
  unfold decodeHeaderField at h
  split at h
  · cases h
  · obtain ⟨rest, _, h⟩ := bind_eq_ok h
    obtain ⟨v, _, hok⟩ := bind_eq_ok h
    cases v with
    | incomplete => cases hok
    | error e' => cases hok
    | complete value =>
      simp only at hok
      split at hok
      · cases hok
      · split at hok
        · cases hok
        · obtain ⟨_, _, hok⟩ := bind_eq_ok hok
          cases hok

/-- A torn header fails on the buffer, and in no such way on the longer one. -/
theorem decodeHeader_torn (errors : HeaderErrors ε)
    (hname : limits.headerNameMaxLength + 1 ≤ usizeMax)
    (hvalue : limits.headerValueMaxLength + 1 ≤ usizeMax)
    (hne : ∀ e, errors.headerName e ≠ errors.headerValueTooLong)
    (hne' : ∀ e, errors.headerValue e ≠ errors.headerValueTooLong)
    (h : TornHeader limits headers b t) :
    decodeHeader limits errors headers b = .ok (.error errors.headerValueTooLong) ∧
      decodeHeader limits errors headers (b ++ t) ≠ .ok (.error errors.headerValueTooLong) ∧
      ∀ e, decodeHeader limits errors headers (b ++ t) ≠ .ok (.endedWithError e) := by
  obtain ⟨name, rest, rfl, hsep, hlen, hcrlf, hcount, htorn⟩ := h
  obtain ⟨hshort, hlong⟩ :=
    decodeHeaderValue_torn errors.headerValueTooLong hvalue htorn
  have hcrlf' : CRLF.isPrefixOf (name ++ 58 :: (rest ++ t)) = false := by
    have htwo : 2 ≤ (name ++ 58 :: rest).length := by
      obtain ⟨b', t', rfl, -⟩ := htorn
      simp only [List.length_append, List.length_cons, List.length_nil]
      omega
    rcases isPrefixOf_CRLF_append (name ++ 58 :: rest) t with h | h | h
    · simpa [hcrlf] using h
    · simp [h] at htwo
    · simp [h] at htwo
  have hfield : decodeHeader limits errors headers (name ++ 58 :: rest ++ t) =
      decodeHeaderField limits errors headers name (name ++ 58 :: (rest ++ t)) := by
    rw [List.append_assoc, List.cons_append, decodeHeader,
      decodeHeaderName_field hname hcrlf' hsep hlen, ok_bind]
  refine ⟨?_, ?_, fun e he => decodeHeaderField_ne_endedWithError (hfield ▸ he)⟩
  · rw [decodeHeader, decodeHeaderName_field hname hcrlf hsep hlen, ok_bind]
    simp only [decodeHeaderField, Nat.not_le.mpr hcount, if_false, sliceFrom_field, ok_bind, hshort]
  · rw [hfield]
    intro he
    rcases decodeHeaderField_error hcount he with ⟨rest', hrest, hv⟩ | ⟨e', he'⟩ | ⟨e', he'⟩
    · rw [sliceFrom_field] at hrest
      cases hrest
      exact hlong hv
    · exact hne e' he'.symm
    · exact hne' e' he'.symm

/-! ## Steps -/

variable {δ μ : Type}

theorem consume_append {d : δ} {n : Nat} (h : n ≤ b.length) :
    consume (μ := μ) (ε := ε) (b ++ t) d n = consume b d n := by
  simp only [consume, sliceFrom_append h, sliceFrom_of_le h, ok_bind]

theorem consume_eq_ok {b : Bytes} {d : δ} {n : Nat} {r : Turn δ μ ε}
    (h : consume b d n = .ok r) : r = .complete d n ∧ n ≤ b.length := by
  unfold consume sliceFrom at h
  split at h
  · next hle => cases h; exact ⟨rfl, hle⟩
  · cases h

/-- A step that reads a field and then takes no more than the field and its separator. -/
theorem readField_stands {separator : Byte} {max : Nat} {tooLong : ε}
    {next : Bytes → Bytes → Rust (Turn δ μ ε)}
    (h : ∀ field, field.length + 1 ≤ b.length → next (b ++ t) field = next b field) :
    Stands .incomplete (fun b => readField separator max tooLong b (next b)) b t := by
  unfold Stands readField
  dsimp only
  rcases readUntil_stands separator max tooLong b t with hr | hr
  · exact .inl (by rw [hr, ok_bind])
  · right
    rw [hr]
    cases hread : readUntil separator max tooLong b with
    | error p => rfl
    | ok r =>
      cases r with
      | complete field =>
        obtain ⟨-, rest, hb, -⟩ := readUntil_complete_iff.mp hread
        exact h field (by simp [hb])
      | _ => rfl

/-- The body is there once its last byte is. -/
theorem decodeBody_append {contentLength : ContentLength} {body : Bytes}
    (h : decodeBody contentLength b = some body) :
    contentLength.val ≤ b.length ∧ decodeBody contentLength (b ++ t) = some body := by
  unfold decodeBody at h ⊢
  split at h
  · cases h
  · next hlen =>
    have hle := Nat.not_lt.mp hlen
    refine ⟨hle, ?_⟩
    rw [if_neg (by simp; omega), take_append_of_le hle]
    exact h

end Decoder

end Rtsp
