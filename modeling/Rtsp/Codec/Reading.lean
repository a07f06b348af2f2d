import Rtsp.Codec.Run
import Rtsp.Codec.Encoder

/-!
# Reading back what the encoders write

The decoding steps on the text the encoders produce, with more of the stream
behind it: a field up to its separator, a header value with its folds, a header,
all headers of a message, the empty line. Each step is shown to give back what
was written, and to stand on every part of the text that arrives first: no
header value within the encoder's limit is torn (`decodeHeader_whole`).

A step is read back on a text with anything behind it. That is stronger than reading it
back alone and is what is needed, as messages come one after the other without a
separator; but it is not true of any text behind, for a header value ends only where the
next byte is seen not to be a blank. Therefore the byte behind is named in these lemmas
(`c`), and the lemma on whole lists of headers shows that there is one
(`headers_first`).

`Fits` and `Readable` differ by one byte. A value that fills its limit together with the
space in front can be read, but its line break can be torn; one byte less and nothing
can happen to it. A message that comes in one piece needs the weaker of the two only.
-/

namespace Rtsp

open Syntax Lib Encoder

namespace Decoder

variable {δ μ ε : Type}

/-! ## Fields -/

theorem drop_field (field rest : Bytes) (separator : Byte) :
    (field ++ separator :: rest).drop (field.length + 1) = rest := by
  simp [List.drop_append]

theorem consume_of_le {b : Bytes} {n : Nat} (d : δ) (h : n ≤ b.length) :
    (consume b d n : Rust (Turn δ μ ε)) = .ok (.complete d n) := by
  rw [consume, sliceFrom_of_le h, ok_bind]

/-- A field without its separator is read up to it. -/
theorem readField_field {separator : Byte} {max : Nat} (tooLong : ε) {field : Bytes}
    (rest : Bytes) (next : Bytes → Rust (Turn δ μ ε)) (hmax : max + 1 ≤ usizeMax)
    (hsep : separator ∉ field) (hlen : field.length ≤ max) :
    readField separator max tooLong (field ++ separator :: rest) next = next field := by
  rw [readField, readUntil_complete_iff.mpr ⟨hmax, rest, rfl, hsep, hlen⟩, ok_bind]

/-! ## Header values -/

theorem mem_lineBreaks {b : Bytes} {n i : Nat} :
    i ∈ lineBreaks b n ↔ i < n ∧ b[i]? = some CR ∧ b[i + 1]? = some LF := by
  have hpair : ((CR, LF), i) ∈ ((windows2 b).take n).zipIdx ↔
      i < n ∧ b[i]? = some CR ∧ b[i + 1]? = some LF := by
    rw [List.mk_mem_zipIdx_iff_getElem?, List.getElem?_take]
    split
    · next h => simp [h, windows2_getElem?]
    · next h => simp [h]
  rw [← hpair]
  simp [lineBreaks]

/-- The line breaks are listed in order. -/
theorem lineBreaks_pairwise (b : Bytes) (n : Nat) : (lineBreaks b n).Pairwise (· < ·) := by
  have hall : (((windows2 b).take n).zipIdx.map (·.2)).Pairwise (· < ·) := by
    rw [List.zipIdx_map_snd]
    exact List.pairwise_lt_range'
  exact hall.sublist (List.filter_sublist.map _)

/-- The first line break that is no fold, if all before it are. -/
theorem find?_lineBreaks {b : Bytes} {n i : Nat} (hi : i ∈ lineBreaks b n)
    (hfolds : folds b i = false) (hbefore : ∀ j ∈ lineBreaks b n, j < i → folds b j = true) :
    (lineBreaks b n).find? (fun i => !folds b i) = some i := by
  obtain ⟨before, after, hsplit⟩ := List.append_of_mem hi
  refine List.find?_eq_some_iff_append.mpr ⟨by simp [hfolds], before, after, hsplit, ?_⟩
  intro j hj
  have hsorted := lineBreaks_pairwise b n
  rw [hsplit] at hsorted
  have hlt := (List.pairwise_append.mp hsorted).2.2 j hj i (.head _)
  simp [hbefore j (hsplit ▸ List.mem_append_left _ hj) hlt]

/-- A folded value is read up to the line break that is no fold. -/
theorem decodeHeaderValue_folded {max : Nat} (tooLong : ε) {value : Bytes} {c : Byte}
    (rest : Bytes) (hmax : max + 1 ≤ usizeMax) (hvalue : HeaderValue.Folded value)
    (hlen : value.length ≤ max) (hc : isSpaceOrTab c = false) :
    decodeHeaderValue max tooLong (value ++ CR :: LF :: c :: rest) = .ok (.complete value) := by
  have hend : folds (value ++ CR :: LF :: c :: rest) value.length = false := by
    simp [folds, hc]
  have hmem : value.length ∈ lineBreaks (value ++ CR :: LF :: c :: rest) (max + 1) :=
    mem_lineBreaks.mpr ⟨by omega, by simp, by simp⟩
  have hfind := find?_lineBreaks hmem hend fun j hj hlt => by
    -- A `CR` of the value itself: the value was checked to fold there.
    have hcr := (mem_lineBreaks.mp hj).2.1
    rw [List.getElem?_append_left hlt] at hcr
    obtain ⟨w, hw, hws⟩ := hvalue.getElem?_cr hcr
    have hlt' := (List.getElem?_eq_some_iff.mp hw).1
    rw [folds, List.getElem?_append_left hlt', hw]
    exact hws
  rw [decodeHeaderValue_eq hmax, hfind]
  simp

/-- A value that can be torn is, once whole, one of the longest. -/
theorem TornValue.length {max : Nat} {tooLong : ε} {b t value : Bytes} (h : TornValue max b t)
    (hvalue : decodeHeaderValue max tooLong (b ++ t) = .ok (.complete value)) :
    value.length = max := by
  obtain ⟨b', t', rfl, rfl, hlen, hfolds, hstop⟩ := h
  have hn : max + 1 = b'.length + 1 := by simpa using hlen.symm
  have hmax : max + 1 ≤ usizeMax := by
    by_cases hmax : max + 1 ≤ usizeMax
    · exact hmax
    · rw [decodeHeaderValue_overflow hmax] at hvalue
      cases hvalue
  have hfind : (lineBreaks (b' ++ [CR] ++ LF :: t') (max + 1)).find?
      (fun i => !folds (b' ++ [CR] ++ LF :: t') i) = some b'.length := by
    refine find?_lineBreaks ?_ hstop fun j hj hlt => ?_
    · rw [hn, lineBreaks_open]
      simp
    · rw [hn, lineBreaks_open] at hj
      rcases List.mem_append.mp hj with hold | hnew
      · exact folds_of_append (hfolds j (hn ▸ hold))
      · simp only [if_true, List.mem_singleton] at hnew
        omega
  rw [decodeHeaderValue_eq hmax, hfind] at hvalue
  dsimp only at hvalue
  split at hvalue
  · cases hvalue
    simp only [List.length_take, List.length_append, List.length_cons, List.length_nil]
    omega
  · cases hvalue

/-! ## Trimming -/

/-- A name without spaces and tabs is not trimmed. -/
theorem trimHeaderName_eq {name : Bytes} (h : ∀ b ∈ name, isSpaceOrTab b = false) :
    trimHeaderName name = name := by
  unfold trimHeaderName
  cases hr : name.reverse with
  | nil => simpa using hr.symm
  | cons b bs =>
    have hb : b ∈ name := List.mem_reverse.mp (hr ▸ .head _)
    rw [List.dropWhile_cons_of_neg (by simp [h b hb]), ← hr, List.reverse_reverse]

/-- A value as an encoder may send it: nothing of it would be trimmed away. -/
def StartsWithText (value : Bytes) : Prop := ∀ b ∈ value.head?, isSpaceOrTab b = false

instance (value : Bytes) : Decidable (StartsWithText value) :=
  inferInstanceAs (Decidable (∀ b ∈ value.head?, isSpaceOrTab b = false))

/-- The space the encoder puts before a value is what is trimmed. -/
theorem trimHeaderValue_space {value : Bytes} (h : StartsWithText value) :
    trimHeaderValue (SP :: value) = value := by
  have hfirst : (SP :: value).takeWhile isSpaceOrTab = [SP] := by
    cases value with
    | nil => rfl
    | cons b value =>
      have hb : isSpaceOrTab b = false := h b rfl
      simp [hb, show isSpaceOrTab SP = true from rfl]
  have hcrlf : CRLF.isPrefixOf (SP :: value) = false := rfl
  simp [trimHeaderValue, hcrlf, hfirst]

/-! ## Headers -/

variable {limits : Limits} {headers : HeaderMap}

/-- Limits that fit a `usize` with one to spare, and leave room for a name. -/
structure Limits.Ample (limits : Limits) : Prop where
  name : limits.headerNameMaxLength + 1 ≤ usizeMax
  value : limits.headerValueMaxLength + 1 ≤ usizeMax

/-- A header that fits the limits with a byte of its value to spare. -/
structure Fits (limits : Limits) (header : HeaderName × HeaderValue) : Prop where
  name : header.1.canonicalName.length ≤ limits.headerNameMaxLength
  value : header.2.text.length + 1 < limits.headerValueMaxLength
  start : StartsWithText header.2.text

/-- A header that fits the limits when it is written, with the space before its value. -/
structure Readable (limits : Limits) (header : HeaderName × HeaderValue) : Prop where
  name : header.1.canonicalName.length ≤ limits.headerNameMaxLength
  value : header.2.text.length + 1 ≤ limits.headerValueMaxLength
  start : StartsWithText header.2.text

theorem Fits.readable {limits : Limits} {header : HeaderName × HeaderValue}
    (h : Fits limits header) : Readable limits header :=
  ⟨h.name, Nat.le_of_lt h.value, h.start⟩

/-- What the encoder writes for a header of the map. -/
def encodeEntry (header : HeaderName × HeaderValue) : Bytes :=
  encodeHeader header.1.canonicalName header.2.text

theorem encodeEntry_append (header : HeaderName × HeaderValue) (rest : Bytes) :
    encodeEntry header ++ rest =
      header.1.canonicalName ++ 58 :: (SP :: header.2.text ++ CR :: LF :: rest) := by
  have hsep : ascii ": " = [58, SP] := rfl
  simp [encodeEntry, encodeHeader, hsep, CRLF]

theorem length_encodeEntry (header : HeaderName × HeaderValue) :
    (encodeEntry header).length =
      header.1.canonicalName.length + 1 + ((SP :: header.2.text).length + 2) := by
  have hsep : ascii ": " = [58, SP] := rfl
  simp [encodeEntry, encodeHeader, hsep, CRLF]
  omega

/-- A line that starts with a name does not end the headers. -/
theorem isPrefixOf_CRLF_token {name rest : Bytes} (h : isToken name = true) :
    CRLF.isPrefixOf (name ++ rest) = false := by
  cases name with
  | nil => exact absurd rfl (isToken_ne_nil h)
  | cons b bs =>
    have hb : (CR == b) = false := by
      rw [beq_eq_false_iff_ne]
      rintro rfl
      exact isToken_not_mem h (by decide : isTokenChar CR = false) (.head _)
    simp [CRLF, List.isPrefixOf, hb]

theorem colon_not_mem (name : HeaderName) : 58 ∉ name.canonicalName :=
  isToken_not_mem name.isToken_canonicalName (by decide)

theorem folded_space (value : HeaderValue) : HeaderValue.Folded (SP :: value.text) :=
  .byte (by decide) value.folded

/-- **A header is read back as it was written**, whatever follows on the next line. -/
theorem decodeHeader_readable (errors : HeaderErrors ε) {header : HeaderName × HeaderValue}
    (rest : Bytes) {c : Byte} (hlimits : limits.Ample) (hfits : Readable limits header)
    (hcount : headers.valuesLen < limits.headerMaxCount) (hc : isSpaceOrTab c = false) :
    decodeHeader limits errors headers (encodeEntry header ++ c :: rest) =
      .ok (.header header.1 header.2 (encodeEntry header).length) := by
  obtain ⟨name, value⟩ := header
  have hname : decodeHeaderName limits.headerNameMaxLength errors.headerNameTooLong
      (encodeEntry (name, value) ++ c :: rest) = .ok (.complete (some name.canonicalName)) := by
    rw [encodeEntry_append, decodeHeaderName, isPrefixOf_CRLF_token name.isToken_canonicalName,
      if_neg (by simp), readUntil_complete_iff.mpr
        ⟨hlimits.name, _, rfl, colon_not_mem name, hfits.name⟩, ok_bind]
  have hvalue := decodeHeaderValue_folded errors.headerValueTooLong rest hlimits.value
    (folded_space value) (by simpa using hfits.value) hc
  have htrim := trimHeaderName_eq (isSpaceOrTab_of_isToken name.isToken_canonicalName)
  rw [decodeHeader, hname, ok_bind]
  dsimp only
  rw [decodeHeaderField, if_neg (Nat.not_le.mpr hcount), encodeEntry_append, sliceFrom_field,
    ok_bind, hvalue, ok_bind]
  dsimp only
  rw [htrim, name.tryFrom_canonicalName]
  dsimp only
  rw [trimHeaderValue_space hfits.start, value.tryFrom_text]
  dsimp only
  rw [sliceFrom_of_le (by simp), ok_bind, length_encodeEntry]

/-- **No part of a header that fits is torn.** -/
theorem decodeHeader_whole {header : HeaderName × HeaderValue} {rest b t : Bytes} {c : Byte}
    (hlimits : limits.Ample) (hfits : Fits limits header) (hc : isSpaceOrTab c = false)
    (hsplit : encodeEntry header ++ c :: rest = b ++ t) : ¬ TornHeader limits headers b t := by
  rintro ⟨name, field, rfl, hsep, hlen, -, -, htorn⟩
  -- Both sides read the same name, so the torn value is the header's.
  have hsplit : header.1.canonicalName ++ 58 :: (SP :: header.2.text ++ CR :: LF :: c :: rest) =
      name ++ 58 :: (field ++ t) := by
    rw [← encodeEntry_append, hsplit, List.append_assoc, List.cons_append]
  have hread : ∀ {b : Bytes}, b = name ++ 58 :: (field ++ t) →
      readUntil 58 limits.headerNameMaxLength () b = .ok (.complete name) := fun h =>
    readUntil_complete_iff.mpr ⟨hlimits.name, _, h, hsep, hlen⟩
  have hname := hread hsplit
  rw [readUntil_complete_iff.mpr
    ⟨hlimits.name, _, rfl, colon_not_mem header.1, hfits.name⟩] at hname
  cases hname
  have hfield : SP :: header.2.text ++ CR :: LF :: c :: rest = field ++ t :=
    (List.cons.inj (List.append_cancel_left hsplit)).2
  have hvalue := decodeHeaderValue_folded () rest hlimits.value
    (folded_space header.2) (Nat.le_of_lt (by simpa using hfits.value)) hc
  rw [hfield] at hvalue
  have hlength := htorn.length hvalue
  have := hfits.value
  simp only [List.length_cons] at hlength
  omega

/-! ## The empty line -/

theorem decodeHeader_empty (errors : HeaderErrors ε) (rest : Bytes) {l : ContentLength}
    (hbody : bodyLength limits errors headers = .ok l) :
    decodeHeader limits errors headers (CRLF ++ rest) = .ok (.ended l) := by
  have hname : decodeHeaderName limits.headerNameMaxLength errors.headerNameTooLong
      (CRLF ++ rest) = .ok (.complete none) := by
    rw [decodeHeaderName, if_pos]
    simp
  rw [decodeHeader, hname, ok_bind]
  dsimp only
  rw [sliceFrom_of_le (by simp [CRLF]), ok_bind, hbody]

theorem empty_whole {rest b t : Bytes} (hsplit : CRLF ++ rest = b ++ t) :
    ¬ TornHeader limits headers b t := by
  rintro ⟨name, field, rfl, -, -, hcrlf, -, b', t', rfl, -⟩
  have hprefix : CRLF <+: name ++ 58 :: (b' ++ [CR]) :=
    List.prefix_of_prefix_length_le (List.prefix_append CRLF rest)
      (hsplit ▸ List.prefix_append _ t) (by simp [CRLF]; omega)
  rw [List.isPrefixOf_iff_prefix.mpr hprefix] at hcrlf
  cases hcrlf

/-! ## All headers of a message -/

/-- Neither a header nor the empty line starts with a space or a tab: the header before
    ends there. -/
theorem headers_first (entries : List (HeaderName × HeaderValue)) (rest : Bytes) :
    ∃ c rest', entries.flatMap encodeEntry ++ (CRLF ++ rest) = c :: rest' ∧
      isSpaceOrTab c = false := by
  cases entries with
  | nil => exact ⟨CR, LF :: rest, rfl, rfl⟩
  | cons header entries =>
    have htoken := header.1.isToken_canonicalName
    cases hname : header.1.canonicalName with
    | nil => exact absurd hname (isToken_ne_nil htoken)
    | cons c cs =>
      rw [List.flatMap_cons, List.append_assoc, encodeEntry_append, hname, List.cons_append]
      exact ⟨c, _, rfl, isSpaceOrTab_of_isToken htoken c (hname ▸ .head _)⟩

/-- **The headers are read one by one into the map they came from.** `place` is the
    decoder in its header state, for the headers it has so far. -/
theorem readable_skips {P : δ → Bytes → Prop} (turn : δ → Bytes → Rust (Turn δ μ ε))
    (place : HeaderMap → δ) (errors : HeaderErrors ε)
    (hturn : ∀ m b name value n, decodeHeader limits errors m b = .ok (.header name value n) →
      turn (place m) b = .ok (.complete (place (m.append name value)) n))
    {m m' : HeaderMap} {entries : List (HeaderName × HeaderValue)} (rest : Bytes)
    (hlimits : entries ≠ [] → limits.Ample)
    (hP : ∀ m, ∀ header ∈ entries, ∀ c rest, isSpaceOrTab c = false →
      P (place m) (encodeEntry header ++ c :: rest))
    (hm : m'.entries = m.entries ++ entries) (hfits : ∀ e ∈ entries, Readable limits e)
    (hcount : m'.valuesLen ≤ limits.headerMaxCount) :
    Skips (stepOf turn) P (place m) (entries.flatMap encodeEntry ++ (CRLF ++ rest))
      (place m') (CRLF ++ rest) := by
  induction entries generalizing m with
  | nil =>
    obtain rfl : m' = m := HeaderMap.ext (by simpa using hm)
    exact .refl
  | cons header entries ih =>
    obtain ⟨c, rest', hfirst, hc⟩ := headers_first entries rest
    have hfit := hfits header (.head _)
    have hlen : m.valuesLen < limits.headerMaxCount := by
      simp only [HeaderMap.valuesLen, hm, List.length_append, List.length_cons] at hcount ⊢
      omega
    have happend : (m.append header.1 header.2).entries = m.entries ++ [header] := by
      refine m.append_of_keyed (m'.keyed.subset fun e he => ?_)
      rw [hm]
      rcases List.mem_append.mp he with he | he
      · exact List.mem_append_left _ he
      · exact List.mem_append_right _ (List.mem_singleton.mp he ▸ .head _)
    have htail := ih (m := m.append header.1 header.2) (fun _ => hlimits (by simp))
      (fun m e he => hP m e (.tail _ he)) (by rw [hm, happend]; simp)
      (fun e he => hfits e (.tail _ he))
    rw [List.flatMap_cons, List.append_assoc]
    rw [hfirst] at htail ⊢
    have hread := hturn _ _ _ _ _
      (decodeHeader_readable errors rest' (hlimits (by simp)) hfit hlen hc)
    refine .trans (.single (hP _ _ (.head _) _ _ hc) (stepOf_complete hread) ?_) htail
    simp

/-- The same, where no part of a header is torn. -/
theorem headers_skips {P : δ → Bytes → Prop} (turn : δ → Bytes → Rust (Turn δ μ ε))
    (place : HeaderMap → δ) (errors : HeaderErrors ε) (hlimits : limits.Ample)
    (hturn : ∀ m b name value n, decodeHeader limits errors m b = .ok (.header name value n) →
      turn (place m) b = .ok (.complete (place (m.append name value)) n))
    (hP : ∀ m b, (∀ b₁ t, b = b₁ ++ t → ¬ TornHeader limits m b₁ t) → P (place m) b)
    {m m' : HeaderMap} {entries : List (HeaderName × HeaderValue)} (rest : Bytes)
    (hm : m'.entries = m.entries ++ entries) (hfits : ∀ e ∈ entries, Fits limits e)
    (hcount : m'.valuesLen ≤ limits.headerMaxCount) :
    Skips (stepOf turn) P (place m) (entries.flatMap encodeEntry ++ (CRLF ++ rest))
      (place m') (CRLF ++ rest) :=
  readable_skips turn place errors hturn rest (fun _ => hlimits)
    (fun _ _ hmem _ _ hc => hP _ _ fun _ _ hsplit =>
      decodeHeader_whole hlimits (hfits _ hmem) hc hsplit)
    hm (fun e he => (hfits e he).readable) hcount

end Decoder
end Rtsp
