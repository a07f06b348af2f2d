import Rtsp.Codec.Codec

/-!
# What arriving bytes change in a field

A decoding step sees the bytes buffered so far and nothing of what is still to come.
`Stands` says that this does no harm: the answer on the buffer is the answer on any
longer one, unless it was that more is needed. A step of which this holds can be called
as often as one likes while the bytes trickle in.

The fields that end at a separator, and the names of headers, stand always. A header
value does not. It ends at the first line break that is no fold, and the search goes no
further than the longest value there may be, so there is a buffer with which it gives up
although the value would have ended: the value is as long as it may be, its `CR` has
arrived, and its `LF` has not. `TornValue` is that buffer together with what arrives
next, and `decodeHeaderValue_stands` excludes it and nothing else.

The sums that the code takes of its limits (`max + 1`) are `usize` additions and can
overflow. What is said here is for limits with which they do not; `readUntil_overflow`
and `decodeHeaderValue_overflow` are the other case.
-/

namespace Rtsp

open Syntax Lib

namespace Decoder

variable {ρ α ε : Type}

/-- The answer of `f` on `buffer` is its answer on `buffer ++ t`, unless it asked for
    more. -/
def Stands (incomplete : ρ) (f : Bytes → Rust ρ) (buffer t : Bytes) : Prop :=
  f buffer = .ok incomplete ∨ f (buffer ++ t) = f buffer

/-! ## Separators -/

theorem slice_append {b t : Bytes} {i j : Nat} (h : j ≤ b.length) :
    slice (b ++ t) i j = slice b i j := by
  simp only [slice, List.length_append, take_append_of_le h]
  have : j ≤ b.length + t.length := by omega
  simp only [h, this, and_true]

theorem sliceFrom_append {b t : Bytes} {i : Nat} (h : i ≤ b.length) :
    sliceFrom (b ++ t) i = .ok (b.drop i ++ t) := by
  rw [sliceFrom_of_le (by simp; omega), List.drop_append_of_le_length h]

theorem index_append {b t : Bytes} {i : Nat} (h : i < b.length) : index (b ++ t) i = index b i := by
  simp only [index, List.getElem?_append_left h]

/-- What `readUntil` answers, once its limit fits a `usize`. -/
theorem readUntil_eq {separator : Byte} {max : Nat} {tooLong : ε} {b : Bytes}
    (hmax : max + 1 ≤ usizeMax) :
    readUntil separator max tooLong b =
      match (b.take (max + 1)).findIdx? (· == separator) with
      | some i => .ok (.complete (b.take i))
      | none => if max + 1 ≤ b.length then .ok (.error tooLong) else .ok .incomplete := by
  rw [readUntil, usizeAdd_of_le hmax, ok_bind]
  cases hi : (b.take (max + 1)).findIdx? (· == separator) with
  | some i => exact congrArg (· >>= _) (slice_zero (Nat.le_of_lt (findIdx?_lt hi)))
  | none => rfl

theorem readUntil_overflow {separator : Byte} {max : Nat} {tooLong : ε} {b : Bytes}
    (hmax : ¬ max + 1 ≤ usizeMax) : readUntil separator max tooLong b = .error .overflow := by
  rw [readUntil, usizeAdd, if_neg hmax, error_bind]

theorem readUntil_stands (separator : Byte) (max : Nat) (tooLong : ε) (b t : Bytes) :
    Stands .incomplete (readUntil separator max tooLong) b t := by
  by_cases hmax : max + 1 ≤ usizeMax
  · unfold Stands
    rw [readUntil_eq hmax, readUntil_eq hmax]
    cases hi : (b.take (max + 1)).findIdx? (· == separator) with
    | some i =>
      right
      rw [findIdx?_take_append hi]
      simp only [take_append_of_le (Nat.le_of_lt (findIdx?_lt hi))]
    | none =>
      by_cases hlen : max + 1 ≤ b.length
      · right
        have : max + 1 ≤ (b ++ t).length := by simp; omega
        rw [take_append_of_le hlen, hi]
        simp only [hlen, this, if_true]
      · exact .inl (if_neg hlen)
  · exact .inr (by rw [readUntil_overflow hmax, readUntil_overflow hmax])

/-- What was read stands before the first separator, and is not too long. -/
theorem readUntil_complete_iff {separator : Byte} {max : Nat} {tooLong : ε} {b field : Bytes} :
    readUntil separator max tooLong b = .ok (.complete field) ↔ max + 1 ≤ usizeMax ∧
      ∃ rest, b = field ++ separator :: rest ∧ separator ∉ field ∧ field.length ≤ max := by
  by_cases hmax : max + 1 ≤ usizeMax
  · rw [readUntil_eq hmax]
    constructor
    · intro h
      split at h
      · next i hi =>
        cases h
        refine ⟨hmax, b.drop (i + 1), ?_⟩
        obtain ⟨hlt, hsep, hbefore⟩ := List.findIdx?_eq_some_iff_getElem.mp hi
        simp only [List.length_take] at hlt
        simp only [List.getElem_take, beq_iff_eq] at hsep
        refine ⟨?_, ?_, by simp; omega⟩
        · rw [← hsep, List.getElem_cons_drop, List.take_append_drop]
        · intro hmem
          obtain ⟨j, hj, hjeq⟩ := List.mem_take_iff_getElem.mp hmem
          have := hbefore j (by omega)
          simp only [List.getElem_take, hjeq, beq_self_eq_true, not_true_eq_false] at this
      · split at h <;> cases h
    · rintro ⟨-, rest, rfl, hsep, hlen⟩
      have hfield : ∀ x ∈ field, (x == separator) = false := by
        intro x hx
        simpa using fun h : x = separator => hsep (h ▸ hx)
      rw [findIdx?_append_cons hfield (by simp) (by omega)]
      simp
  · rw [readUntil_overflow hmax]
    exact ⟨fun h => (by cases h), fun h => absurd h.1 hmax⟩

/-! ## Header names -/

/-- Whether the buffer starts with a line break is settled, unless the buffer is empty or
    the first byte of one. -/
theorem isPrefixOf_CRLF_append (b t : Bytes) :
    CRLF.isPrefixOf (b ++ t) = CRLF.isPrefixOf b ∨ b = [] ∨ b = [CR] := by
  match b with
  | [] => exact .inr (.inl rfl)
  | [x] =>
    by_cases hx : x = CR
    · exact .inr (.inr (by rw [hx]))
    · left
      have : (CR == x) = false := by simpa using fun h => hx h.symm
      simp [CRLF, List.isPrefixOf, this]
  | x :: y :: rest => exact .inl rfl

theorem decodeHeaderName_stands {max : Nat} (hpos : 0 < max) (hmax : max + 1 ≤ usizeMax)
    (tooLong : ε) (b t : Bytes) : Stands .incomplete (decodeHeaderName max tooLong) b t := by
  unfold Stands decodeHeaderName
  rcases isPrefixOf_CRLF_append b t with h | h
  · rw [h]
    split
    · exact .inr rfl
    · rcases readUntil_stands 58 max tooLong b t with h | h
      · exact .inl (by rw [h, ok_bind])
      · exact .inr (by rw [h])
  · -- Too short for a name that has ended or is too long.
    have hincomplete : readUntil 58 max tooLong b = .ok .incomplete := by
      rw [readUntil_eq hmax]
      rcases h with rfl | rfl
      · simp
      · have : List.take (max + 1) [CR] = [CR] := List.take_of_length_le (by simp)
        rw [this]
        simp [CR, Nat.pos_iff_ne_zero.mp hpos]
    rcases h with rfl | rfl <;> exact .inl (by rw [hincomplete]; rfl)

/-! ## Line breaks -/

/-- A space or a tab after the line break at `i` makes it a fold. -/
def folds (buffer : Bytes) (i : Nat) : Bool :=
  match buffer[i + 2]? with
  | some byte => isSpaceOrTab byte
  | none => false

theorem folds_append {b t : Bytes} {i : Nat} (h : i + 2 < b.length) :
    folds (b ++ t) i = folds b i := by
  simp only [folds, List.getElem?_append_left h]

theorem folds_lt {b : Bytes} {i : Nat} (h : folds b i = true) : i + 2 < b.length := by
  unfold folds at h
  split at h
  · next byte hb => exact (List.getElem?_eq_some_iff.mp hb).1
  · cases h

/-- The loop stops at the first line break that is no fold. -/
theorem scanLineBreaks_eq (b : Bytes) (is : List Nat) :
    scanLineBreaks (ε := ε) b is = .ok ((is.find? fun i => !folds b i).map fun i =>
      if i + 2 < b.length then .complete (b.take i) else .incomplete) := by
  induction is with
  | nil => rfl
  | cons i is ih =>
    rw [scanLineBreaks, List.find?_cons]
    cases hb : b[i + 2]? with
    | none =>
      have hle := List.getElem?_eq_none_iff.mp hb
      have hf : folds b i = false := by simp [folds, hb]
      simp [hf, Nat.not_lt.mpr hle]
    | some byte =>
      have hlt := (List.getElem?_eq_some_iff.mp hb).1
      have hf : folds b i = isSpaceOrTab byte := by simp [folds, hb]
      cases hws : isSpaceOrTab byte with
      | true => simp [hf, hws, ih]
      | false =>
        have hslice := slice_zero (b := b) (j := i) (by omega)
        simp [hf, hws, hslice, hlt]

theorem lineBreaks_append_of_lt {b t : Bytes} {n : Nat} (h : n < b.length) :
    lineBreaks (b ++ t) n = lineBreaks b n := by
  rw [lineBreaks, take_windows2_of_lt h]
  rfl

theorem lineBreaks_prefix (b t : Bytes) (n : Nat) : lineBreaks b n <+: lineBreaks (b ++ t) n := by
  obtain ⟨w, hw⟩ := windows2_prefix b t
  simp only [lineBreaks, ← hw, List.take_append, List.zipIdx_append, List.filter_append,
    List.map_append]
  exact List.prefix_append _ _

/-- The last pair is the only one that `n` bytes leave open. -/
theorem lineBreaks_open (b t : Bytes) (a c : Byte) :
    lineBreaks (b ++ [a] ++ c :: t) (b.length + 1) =
      lineBreaks (b ++ [a]) (b.length + 1) ++ if (a, c) = (CR, LF) then [b.length] else [] := by
  have htake : (windows2 (b ++ [a])).take (b.length + 1) = windows2 (b ++ [a]) :=
    List.take_of_length_le (by simp)
  rw [lineBreaks, take_windows2_open, lineBreaks, htake, List.zipIdx_append, List.filter_append,
    List.map_append]
  congr 1
  by_cases h : (a, c) = (CR, LF)
  · simp [h]
  · simp [h]

/-- What `decodeHeaderValue` answers, once its limit fits a `usize`. -/
theorem decodeHeaderValue_eq {max : Nat} {tooLong : ε} {b : Bytes} (hmax : max + 1 ≤ usizeMax) :
    decodeHeaderValue max tooLong b =
      match (lineBreaks b (max + 1)).find? fun i => !folds b i with
      | some i => if i + 2 < b.length then .ok (.complete (b.take i)) else .ok .incomplete
      | none => if max + 1 ≤ b.length then .ok (.error tooLong) else .ok .incomplete := by
  rw [decodeHeaderValue, usizeAdd_of_le hmax, ok_bind, scanLineBreaks_eq, ok_bind]
  cases (lineBreaks b (max + 1)).find? fun i => !folds b i with
  | none => rfl
  | some i =>
    by_cases hi : i + 2 < b.length <;> simp [hi]

theorem decodeHeaderValue_overflow {max : Nat} {tooLong : ε} {b : Bytes}
    (hmax : ¬ max + 1 ≤ usizeMax) :
    decodeHeaderValue max tooLong b = .error .overflow := by
  rw [decodeHeaderValue, usizeAdd, if_neg hmax, error_bind]

/-- A header value torn between `CR` and `LF` where it may be longest: all line breaks
    before are folds, and no space or tab follows this one. -/
def TornValue (max : Nat) (b t : Bytes) : Prop :=
  ∃ b' t', b = b' ++ [CR] ∧ t = LF :: t' ∧ b.length = max + 1 ∧
    (∀ i ∈ lineBreaks b (max + 1), folds b i = true) ∧ folds (b ++ t) b'.length = false

theorem find?_folds_append {b t : Bytes} {n i : Nat}
    (h : (lineBreaks b n).find? (fun i => !folds b i) = some i) (hi : i + 2 < b.length) :
    (lineBreaks (b ++ t) n).find? (fun i => !folds (b ++ t) i) = some i := by
  obtain ⟨w, hw⟩ := lineBreaks_prefix b t n
  obtain ⟨hf, as, bs, hl, has⟩ := List.find?_eq_some_iff_append.mp h
  rw [List.find?_eq_some_iff_append]
  refine ⟨by rw [folds_append hi]; exact hf, as, bs ++ w, by rw [← hw, hl]; simp, fun j hj => ?_⟩
  have hj := has j hj
  simp only [Bool.not_eq_eq_eq_not, Bool.not_true] at hj ⊢
  rw [folds_append (folds_lt hj)]
  exact hj

theorem find?_folds_eq_none {b : Bytes} {is : List Nat} :
    is.find? (fun i => !folds b i) = none ↔ ∀ i ∈ is, folds b i = true := by
  simp

/-- A fold stays one. -/
theorem folds_of_append {b t : Bytes} {i : Nat} (h : folds b i = true) :
    folds (b ++ t) i = true :=
  (folds_append (folds_lt h)).trans h

/-- A value that was too long stays so, unless its last two bytes were torn apart. -/
theorem find?_folds_eq_none_append {n : Nat} {b t : Bytes} (hlen : n + 1 ≤ b.length)
    (hb : ∀ i ∈ lineBreaks b (n + 1), folds b i = true) (h : ¬ TornValue n b t) :
    ∀ i ∈ lineBreaks (b ++ t) (n + 1), folds (b ++ t) i = true := by
  intro i hi
  rcases Nat.lt_or_eq_of_le hlen with hlt | heq
  · rw [lineBreaks_append_of_lt hlt] at hi
    exact folds_of_append (hb i hi)
  · rcases List.eq_nil_or_concat b with rfl | ⟨b', a, rfl⟩
    · simp at hlen
    rw [List.concat_eq_append] at *
    have hn : b'.length = n := by simpa using heq.symm
    cases t with
    | nil =>
      rw [List.append_nil] at hi
      exact folds_of_append (hb i hi)
    | cons c t' =>
      rw [← hn, lineBreaks_open, hn] at hi
      rcases List.mem_append.mp hi with hold | hnew
      · exact folds_of_append (hb i hold)
      · split at hnew
        · next hac =>
          cases hac
          rw [List.mem_singleton.mp hnew, ← hn]
          by_cases hf : folds (b' ++ [CR] ++ LF :: t') b'.length = true
          · exact hf
          · exact absurd ⟨b', t', rfl, rfl, heq.symm, hb, by simpa using hf⟩ h
        · cases hnew

theorem decodeHeaderValue_stands {max : Nat} (tooLong : ε) {b t : Bytes}
    (h : ¬ TornValue max b t) :
    Stands .incomplete (decodeHeaderValue max tooLong) b t := by
  by_cases hmax : max + 1 ≤ usizeMax
  · unfold Stands
    rw [decodeHeaderValue_eq hmax, decodeHeaderValue_eq hmax]
    cases hfind : (lineBreaks b (max + 1)).find? fun i => !folds b i with
    | some i =>
      by_cases hi : i + 2 < b.length
      · right
        rw [find?_folds_append hfind hi]
        have : i + 2 < (b ++ t).length := by simp; omega
        simp only [hi, this, if_true, take_append_of_le (by omega : i ≤ b.length)]
      · exact .inl (if_neg hi)
    | none =>
      by_cases hlen : max + 1 ≤ b.length
      · right
        have hnone := find?_folds_eq_none.mpr
          (find?_folds_eq_none_append hlen (find?_folds_eq_none.mp hfind) h)
        have : max + 1 ≤ (b ++ t).length := by simp; omega
        rw [hnone]
        simp only [hlen, this, if_true]
      · exact .inl (if_neg hlen)
  · exact .inr (by rw [decodeHeaderValue_overflow hmax, decodeHeaderValue_overflow hmax])

end Decoder
end Rtsp
