import Mathlib.Data.List.Basic
import Rtsp.Codec.ResponseLimits

/-!
# What becomes of a status line

A reason phrase that was set, or read, survives only where the status code takes
it: building a response puts the canonical phrase in its place otherwise
(`phrases_survive_iff`).

Three bytes are read as a status code without a look at whether they are digits,
and the number that is turned away next to 303 is 352, where the documentation
of the error has 452. The bytes on which this shows are those of `Misread`
(`statusCodes_exact_iff`); on a status line a code is printed as it was written
exactly if it was written in digits.

A digit is computed by subtracting that of `0` and letting the difference wrap. Three
bytes combine to a number by that, whatever they are, and some that are no digits
combine to a number which passes for a status code; that is the third kind of `Misread`.
It is stated by what the bytes combine to, and does not ask whether `try_from` accepts
them.

For reason phrases there are three ways into a response (building it, taking it apart
and putting it together, reading it), and each has its own condition, of the same kind:
there is no canonical phrase, or it is the one that was given. None of the three keeps
the phrase of a standard code.
-/

namespace Rtsp

open Syntax Lib Decoder

namespace StatusCode

/-! ## Three digits -/

/-- The number that bytes stand for, if they are digits. -/
def decimal (b : Bytes) : Nat := b.foldl (fun n v => n * 10 + (v.toNat - 48)) 0

/-- The number that `try_from` makes of bytes. -/
def combined (b : Bytes) : Nat := b.foldl (fun n v => n * 10 + wrappingDigit v) 0

/-- What the bytes of a status code are by the documentation: three digits for a number from
    100 to 599 that is not one of the removed codes. -/
def Denotes (b : Bytes) : Prop :=
  b.length = 3 ∧ b.all isDigit = true ∧
    100 ≤ decimal b ∧ decimal b ≤ 599 ∧ decimal b ≠ 303 ∧ decimal b ≠ 452

/-- Bytes are read exactly: those that denote a status code are accepted and no others, and
    what they are read as is printed as they are. -/
def ReadExactly (b : Bytes) : Prop :=
  ((∃ s, tryFrom b = .ok s) ↔ Denotes b) ∧ ∀ s, tryFrom b = .ok s → s.toBytes = b

/-- Bytes that are not read exactly: the number that the code removes and the one that its
    documentation does, and three bytes that are not all digits and combine to the number
    of a status code. -/
def Misread (b : Bytes) : Prop :=
  b = ascii "352" ∨ b = ascii "452" ∨
    b.length = 3 ∧ b.all isDigit = false ∧ IsStatusCode (combined b)

theorem tryFrom_of_length {b : Bytes} (h : b.length = 3) : tryFrom b = ofU16 (combined b) := by
  obtain ⟨x, y, z, rfl⟩ := List.length_eq_three.mp h
  have hsum : combined [x, y, z] =
      wrappingDigit x * 100 + wrappingDigit y * 10 + wrappingDigit z := by
    simp only [combined, List.foldl_cons, List.foldl_nil]
    omega
  rw [hsum]
  rfl

theorem tryFrom_of_length_ne {b : Bytes} (h : b.length ≠ 3) : tryFrom b = .error .invalid := by
  unfold tryFrom
  split
  · exact absurd rfl h
  · rfl

theorem ofU16_eq_ok_iff {n : Nat} {s : StatusCode} :
    ofU16 n = .ok s ↔ IsStatusCode n ∧ s.toU16 = n := by
  constructor
  · intro h
    unfold ofU16 at h
    split at h
    · cases h
    · split at h
      · cases h
      · next hrange hremoved =>
        have hcode : IsStatusCode n := by
          unfold IsStatusCode
          omega
        split at h
        · next standard hstandard =>
          cases h
          exact ⟨hcode, StandardStatus.code_of_ofCode hstandard⟩
        · cases h
          exact ⟨hcode, rfl⟩
  · rintro ⟨-, rfl⟩
    exact ofU16_toU16 s

theorem exists_ofU16_iff {n : Nat} : (∃ s, ofU16 n = .ok s) ↔ IsStatusCode n := by
  constructor
  · rintro ⟨s, hs⟩
    exact (ofU16_eq_ok_iff.mp hs).1
  · intro h
    unfold IsStatusCode at h
    unfold ofU16
    rw [dif_neg (by omega), dif_neg (by omega)]
    split
    · exact ⟨_, rfl⟩
    · exact ⟨_, rfl⟩

theorem wrappingDigit_of_isDigit {b : Byte} (h : isDigit b = true) :
    wrappingDigit b = b.toNat - 48 ∧ digit (b.toNat - 48) = b ∧ b.toNat - 48 < 10 := by
  simp only [isDigit, Bool.and_eq_true, decide_eq_true_eq, UInt8.le_iff_toNat_le] at h
  have hlo : 48 ≤ b.toNat := h.1
  have hhi : b.toNat ≤ 57 := h.2
  refine ⟨UInt8.toNat_sub_of_le _ _ (UInt8.le_iff_toNat_le.mpr hlo), ?_, by omega⟩
  apply UInt8.toNat_inj.mp
  rw [digit_toNat (by omega)]
  omega

/-- Digits combine to the number that they stand for, and are printed for it. -/
theorem combined_of_digits {b : Bytes} (hlen : b.length = 3) (hdigits : b.all isDigit = true) :
    combined b = decimal b ∧ (100 ≤ decimal b → toDecimal (decimal b) = b) := by
  obtain ⟨x, y, z, rfl⟩ := List.length_eq_three.mp hlen
  simp only [List.all_cons, List.all_nil, Bool.and_true, Bool.and_eq_true] at hdigits
  obtain ⟨hx, hxdigit, hxlt⟩ := wrappingDigit_of_isDigit hdigits.1
  obtain ⟨hy, hydigit, hylt⟩ := wrappingDigit_of_isDigit hdigits.2.1
  obtain ⟨hz, hzdigit, hzlt⟩ := wrappingDigit_of_isDigit hdigits.2.2
  refine ⟨by simp only [combined, decimal, List.foldl_cons, List.foldl_nil, hx, hy, hz], ?_⟩
  have hdecimal : decimal [x, y, z] =
      ((x.toNat - 48) * 10 + (y.toNat - 48)) * 10 + (z.toNat - 48) := by
    simp only [decimal, List.foldl_cons, List.foldl_nil, Nat.zero_mul, Nat.zero_add]
  intro h
  rw [hdecimal] at h ⊢
  -- The three digits, in the order of their weight.
  generalize x.toNat - 48 = i at *
  generalize y.toNat - 48 = j at *
  generalize z.toNat - 48 = k at *
  have hhundreds : ((i * 10 + j) * 10 + k) / 10 / 10 = i := by omega
  have htens : ((i * 10 + j) * 10 + k) / 10 % 10 = j := by omega
  have hones : ((i * 10 + j) * 10 + k) % 10 = k := by omega
  rw [toDecimal_of_le (by omega), toDecimal_of_le (by omega), toDecimal_of_lt (by omega),
    hhundreds, htens, hones, hxdigit, hydigit, hzdigit]
  rfl

/-- **A status code is printed as it was written if it was written in digits**, and only
    then. -/
theorem toBytes_eq_iff {b : Bytes} {s : StatusCode} (h : tryFrom b = .ok s) :
    s.toBytes = b ↔ b.all isDigit = true := by
  constructor
  · rintro rfl
    exact List.all_eq_true.mpr (isDigit_of_mem_toDecimal _)
  · intro hdigits
    have hlen : b.length = 3 := by
      by_contra hlen
      rw [tryFrom_of_length_ne hlen] at h
      cases h
    rw [tryFrom_of_length hlen] at h
    obtain ⟨hcode, hs⟩ := ofU16_eq_ok_iff.mp h
    obtain ⟨hcombined, hprinted⟩ := combined_of_digits hlen hdigits
    rw [toBytes, hs, hcombined]
    exact hprinted (hcombined ▸ hcode.1)

/-- Three digits that stand for a number are its decimal notation. -/
theorem eq_iff_decimal {b : Bytes} {n : Nat} (hlen : b.length = 3)
    (hdigits : b.all isDigit = true) (hn : 100 ≤ n) (hdecimal : decimal (toDecimal n) = n) :
    decimal b = n ↔ b = toDecimal n := by
  constructor
  · rintro rfl
    exact ((combined_of_digits hlen hdigits).2 hn).symm
  · rintro rfl
    exact hdecimal

/-- **Bytes are read exactly unless they are misread.** -/
theorem readExactly_iff (b : Bytes) : ReadExactly b ↔ ¬ Misread b := by
  have h352 : ascii "352" = toDecimal 352 := by decide
  have h452 : ascii "452" = toDecimal 452 := by decide
  by_cases hlen : b.length = 3
  · rw [ReadExactly, tryFrom_of_length hlen, exists_ofU16_iff]
    cases hdigits : b.all isDigit with
    | true =>
      -- Digits are misread only as one of the two numbers.
      have hprinted : ∀ s, ofU16 (combined b) = .ok s → s.toBytes = b := fun s hs =>
        (toBytes_eq_iff (tryFrom_of_length hlen ▸ hs)).mpr hdigits
      have hremoved := eq_iff_decimal hlen hdigits (n := 352) (by decide) (by decide)
      have hreserved := eq_iff_decimal hlen hdigits (n := 452) (by decide) (by decide)
      rw [(combined_of_digits hlen hdigits).1] at *
      simp only [Misread, h352, h452, ← hremoved, ← hreserved, hdigits, Bool.true_eq_false,
        false_and, and_false, or_false, Denotes, hlen, true_and, IsStatusCode]
      constructor
      · rintro ⟨hiff, -⟩
        omega
      · intro h
        exact ⟨by omega, hprinted⟩
    | false =>
      -- Other bytes denote nothing, whatever they combine to.
      have hnot : ¬ Denotes b := fun h => Bool.false_ne_true (hdigits.symm.trans h.2.1)
      have hmisread : Misread b ↔ IsStatusCode (combined b) := by
        constructor
        · rintro (rfl | rfl | ⟨-, -, h⟩)
          · exact absurd hdigits (by decide)
          · exact absurd hdigits (by decide)
          · exact h
        · intro h
          exact .inr (.inr ⟨hlen, hdigits, h⟩)
      rw [hmisread]
      constructor
      · rintro ⟨hiff, -⟩ h
        exact hnot (hiff.mp h)
      · intro h
        refine ⟨⟨fun hcode => absurd hcode h, fun hdenotes => absurd hdenotes hnot⟩, ?_⟩
        intro s hs
        exact absurd (ofU16_eq_ok_iff.mp hs).1 h
  · have hinvalid := tryFrom_of_length_ne hlen
    constructor
    · rintro - (rfl | rfl | ⟨h, -⟩)
      · exact hlen rfl
      · exact hlen rfl
      · exact hlen h
    · intro
      refine ⟨⟨?_, fun h => absurd h.1 hlen⟩, ?_⟩
      · rintro ⟨s, hs⟩
        rw [hinvalid] at hs
        cases hs
      · intro s hs
        rw [hinvalid] at hs
        cases hs

end StatusCode

namespace ResponseDecoder

open StatusCode

variable {config : Config} {s : Bytes} {response : Response} {d : ResponseDecoder} {n : Nat}

/-- **Status codes are read exactly unless they are misread**, and printed as they stand on a
    status line if they stand there in digits. -/
theorem statusCodes_exact_iff (b s : Bytes) :
    (ReadExactly b ↔ ¬ Misread b) ∧
    ∀ config response n d, (withConfig config).decode s = .ok (.complete response, n, d) →
      (response.statusCode.toBytes = statusCodeText s ↔
        (statusCodeText s).all isDigit = true) := by
  refine ⟨readExactly_iff b, fun config response n d h => ?_⟩
  obtain ⟨p, hbytes, hspell, -⟩ := decode_parts h
  rw [← (hspell.line hbytes).1]
  exact toBytes_eq_iff hspell.statusCode

/-- A status line in digits. -/
theorem statusCodes_exact_iff_ok :
    let s := ascii "RTSP/2.0 200 OK\r\n\r\n"
    ReadExactly (ascii "200") ∧
      ∃ response n d, (withConfig narrow).decode s = .ok (.complete response, n, d) ∧
        response.statusCode.toBytes = statusCodeText s := by
  intro s
  have hsome : (completed ((withConfig narrow).decode s)).isSome = true := by decide +kernel
  obtain ⟨response, n, d, h⟩ := exists_of_completed hsome
  refine ⟨(statusCodes_exact_iff _ s).1.mpr ?_, response, n, d, h,
    ((statusCodes_exact_iff (ascii "200") s).2 _ _ _ _ h).mpr (by decide)⟩
  rintro (h | h | ⟨-, h, -⟩)
  · exact absurd h (by decide)
  · exact absurd h (by decide)
  · exact absurd h (by decide)

/-- A colon is taken for a ten, 352 is turned away and 452 is not. -/
theorem misreads :
    tryFrom (ascii "20:") = .ok (.extension ⟨210, by decide, rfl⟩) ∧
      ¬ ReadExactly (ascii "20:") ∧ ¬ ReadExactly (ascii "352") ∧ ¬ ReadExactly (ascii "452") := by
  refine ⟨by decide, fun h => ?_, fun h => ?_, fun h => ?_⟩
  · exact (readExactly_iff _).mp h (.inr (.inr (by decide)))
  · exact (readExactly_iff _).mp h (.inl rfl)
  · exact (readExactly_iff _).mp h (.inr (.inl rfl))

/-! ## Reason phrases -/

/-- The phrase on a status line is one that the status code on it takes. -/
def LineTakes (s : Bytes) : Prop :=
  ∀ code canonical, StatusCode.tryFrom (statusCodeText s) = .ok code →
    code.canonicalReason = some canonical → reasonPhraseText s = canonical.text

/-- The phrase of a response that was read. -/
theorem decode_phrase_iff (h : (withConfig config).decode s = .ok (.complete response, n, d)) :
    response.reasonPhrase.text = reasonPhraseText s ↔ LineTakes s := by
  obtain ⟨p, hbytes, hspell, -⟩ := decode_parts h
  obtain ⟨phrase, htext, hphrase⟩ := hspell.reasonPhrase
  have hline := hspell.line hbytes
  have hcode := hspell.statusCode
  rw [hline.1] at hcode
  rw [hline.2] at htext
  rw [hphrase]
  unfold LineTakes
  rw [hcode]
  constructor
  · rintro h code canonical ⟨⟩ hcanonical
    rw [hcanonical] at h
    exact h.symm
  · intro h
    cases hcanonical : response.statusCode.canonicalReason with
    | none => exact htext
    | some canonical => exact (h _ _ rfl hcanonical).symm

/-- **Reason phrases survive where the status code takes them**: when a response is built, when
    it is taken apart and put together again, and when it is read. -/
theorem phrases_survive_iff {TBody : Type} (b : ResponseBuilder TBody) (r : Response TBody)
    (s : Bytes) :
    (∀ phrase, b.customReasonPhrase = some phrase →
      ((∃ r, b.build = .ok r ∧ r.reasonPhrase = phrase) ↔
        b.body.isSome = true ∧ b.version = .rtsp2_0 ∧ b.statusCode.Takes phrase)) ∧
    (((let (version, statusCode, reasonPhrase, headers, body) := r.intoParts
      Response.fromParts version statusCode reasonPhrase headers body) = .ok r ↔
        r.statusCode.Takes r.reasonPhrase) ∧
    (r.intoBuilder.build = .ok r ↔ r.statusCode.Takes r.reasonPhrase)) ∧
    ∀ config response n d, (withConfig config).decode s = .ok (.complete response, n, d) →
      (response.reasonPhrase.text = reasonPhraseText s ↔ LineTakes s) := by
  refine ⟨fun _ => ResponseBuilder.build_keeps_iff, ⟨?_, r.intoBuilder_build_iff⟩,
    fun _ _ _ _ => decode_phrase_iff⟩
  -- The parts are put together by the builder that the response itself becomes.
  show r.intoBuilder.build = .ok r ↔ _
  exact r.intoBuilder_build_iff

/-- A custom phrase of an extension, and the canonical phrase on a status line. -/
theorem phrases_survive_iff_ok :
    let code : StatusCode := .extension ⟨299, by decide, rfl⟩
    let phrase : ReasonPhrase := ⟨ascii "Almost", rfl⟩
    let s := ascii "RTSP/2.0 200 OK\r\n\r\n"
    let builder := (ResponseBuilder.new : ResponseBuilder Bytes)
      |>.withStatusCode code
      |>.withReasonPhrase (some phrase)
      |>.withBody (ascii "")
    (∃ r, builder.build = .ok r ∧ r.reasonPhrase = phrase) ∧
    ∃ response n d, (withConfig narrow).decode s = .ok (.complete response, n, d) ∧
      response.reasonPhrase.text = reasonPhraseText s := by
  intro code phrase s builder
  have hsome : (completed ((withConfig narrow).decode s)).isSome = true := by decide +kernel
  obtain ⟨response, n, d, h⟩ := exists_of_completed hsome
  have hsurvive := phrases_survive_iff builder (.ofStatus .ok) s
  refine ⟨(hsurvive.1 phrase rfl).mpr ⟨rfl, rfl, nofun⟩, response, n, d, h,
    (hsurvive.2.2 _ _ _ _ h).mpr ?_⟩
  intro code canonical hcode hcanonical
  obtain rfl : .standard .ok = code := Except.ok.inj (Eq.trans (by decide) hcode)
  cases hcanonical
  decide

/-- A phrase of its own for a standard status code is lost in all three. -/
theorem phrase_lost :
    let phrase : ReasonPhrase := ⟨ascii "Fine", rfl⟩
    let r : Response := { Response.ofStatus .ok with reasonPhrase := phrase }
    (∃ r', r.intoBuilder.build = .ok r' ∧ r'.reasonPhrase.text = ascii "OK") ∧
      r.intoBuilder.build ≠ .ok r ∧
      (completed ((withConfig Config.default).decode (ascii "RTSP/2.0 200 Fine\r\n\r\n"))).any
        (fun response => response.reasonPhrase.text == ascii "OK") = true := by
  intro phrase r
  refine ⟨⟨_, rfl, rfl⟩, fun h => ?_, by decide +kernel⟩
  have htakes := r.intoBuilder_build_iff.mp h _ rfl
  exact absurd (congrArg ReasonPhrase.text htakes) (by decide)

end ResponseDecoder

end Rtsp
