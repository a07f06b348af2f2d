import Rtsp.Header.Name
import Rtsp.Header.RangeFormat
import Rtsp.Method

/-!
# Names are canonical

Header names, methods and range formats are read in the same way: a table of the
standard names, kept by their lengths, is looked at first, and what it does not
have is an extension if it is a token. Each standard name is filed under its
length, so it is found in any spelling, and no extension spells it
(`names_canonical`).

What is to hold of a kind of names is stated once, with the function that reads it and
its spellings as parameters (`ReadsNames`), and so is the proof: it needs of each table
that it finds a standard name wherever it looks for it and no other name
(`check_eq_some_iff`). That is a finite matter and is decided by going through the
table, once for each kind.

The table is looked up by the length of the value, and only the names under that length
are compared. A name filed under a wrong length would never be found, and would be read
as an extension with the same spelling; this is the mistake that the result rules out.

That equal names have equal hashes is stated for every hasher, by what is written to it.
The standard names are numbered, as their derived hash is, and extensions write the
lower case only.
-/

namespace Rtsp

open Syntax

/-- What is to hold of names of a kind, when one is read from `value`. -/
structure ReadsNames {σ ν ε : Type} (tryFrom : Bytes → Except ε ν) (standard : σ → ν)
    (spell : σ → Bytes) (mayExtend : Bytes → Bool) (value : Bytes) : Prop where
  named : ∀ s, tryFrom value = .ok (standard s) ↔ eqIgnoreAsciiCase value (spell s) = true
  extended : (∃ n, tryFrom value = .ok n ∧ ∀ s, n ≠ standard s) ↔
    mayExtend value = true ∧ ∀ s, eqIgnoreAsciiCase value (spell s) = false
  fails : (∃ e, tryFrom value = .error e) ↔
    mayExtend value = false ∧ ∀ s, eqIgnoreAsciiCase value (spell s) = false

/-- **Names are read so if the table finds the standard ones** and the others are extensions
    where they may be. -/
theorem ReadsNames.of_check {σ ν ε : Type} {tryFrom : Bytes → Except ε ν} {standard : σ → ν}
    {spell : σ → Bytes} {mayExtend : Bytes → Bool} {check : Bytes → Option σ} {value : Bytes}
    (hcheck : ∀ s, check value = some s ↔ eqIgnoreAsciiCase value (spell s) = true)
    (hinj : ∀ s s', standard s = standard s' → s = s')
    (hsome : ∀ s, check value = some s → tryFrom value = .ok (standard s))
    (hextends : check value = none → mayExtend value = true →
      ∃ n, tryFrom value = .ok n ∧ ∀ s, n ≠ standard s)
    (hfails : check value = none → mayExtend value = false → ∃ e, tryFrom value = .error e) :
    ReadsNames tryFrom standard spell mayExtend value := by
  cases h : check value with
  | some s =>
    have hread := hsome s h
    have hspelled := (hcheck s).mp h
    refine ⟨fun s' => ?_, ?_, ?_⟩
    · rw [← hcheck s', hread, h, Except.ok.injEq, Option.some.injEq]
      exact ⟨hinj s s', congrArg standard⟩
    · refine iff_of_false ?_ ?_
      · rintro ⟨n, hn, hnot⟩
        rw [hread] at hn
        exact hnot s (Except.ok.inj hn).symm
      · rintro ⟨-, hnot⟩
        rw [hnot s] at hspelled
        cases hspelled
    · refine iff_of_false ?_ ?_
      · rintro ⟨e, he⟩
        rw [hread] at he
        cases he
      · rintro ⟨-, hnot⟩
        rw [hnot s] at hspelled
        cases hspelled
  | none =>
    have hnot : ∀ s, eqIgnoreAsciiCase value (spell s) = false := fun s => by
      rw [← Bool.not_eq_true, ← hcheck s, h]
      exact nofun
    have hstandard : ∀ s, eqIgnoreAsciiCase value (spell s) = true → False := fun s hs => by
      rw [hnot s] at hs
      cases hs
    cases hmay : mayExtend value with
    | true =>
      obtain ⟨n, hn, hother⟩ := hextends h hmay
      refine ⟨fun s => ?_, ?_, ?_⟩
      · refine iff_of_false (fun hread => ?_) (hstandard s)
        rw [hn] at hread
        exact hother s (Except.ok.inj hread)
      · exact iff_of_true ⟨n, hn, hother⟩ ⟨hmay, hnot⟩
      · refine iff_of_false ?_ fun hfail => ?_
        · rintro ⟨e, he⟩
          rw [hn] at he
          cases he
        · rw [hmay] at hfail
          cases hfail.1
    | false =>
      obtain ⟨e, he⟩ := hfails h hmay
      refine ⟨fun s => ?_, ?_, ?_⟩
      · refine iff_of_false (fun hread => ?_) (hstandard s)
        rw [he] at hread
        cases hread
      · refine iff_of_false ?_ fun hextend => ?_
        · rintro ⟨n, hn, -⟩
          rw [he] at hn
          cases hn
        · rw [hmay] at hextend
          cases hextend.1
      · exact iff_of_true ⟨e, he⟩ ⟨hmay, hnot⟩

/-! ## Header names -/

/-- `Hasher`: what is written to it changes its state. -/
structure Hasher (σ : Type) where
  writeIsize : σ → Nat → σ
  writeStr : σ → Bytes → σ

namespace HeaderName

/-- `Hash for HeaderName`: the derived one, with that of `ExtensionHeaderName`. -/
def hash {σ : Type} (hasher : Hasher σ) (state : σ) : HeaderName → σ
  | standard h => hasher.writeIsize state h.ctorIdx
  | extension e =>
    hasher.writeStr (hasher.writeIsize state 58) (e.name.map toAsciiLowercase)

end HeaderName

namespace StandardHeader

theorem check_asStr (h : StandardHeader) : check h.asStr = some h := by
  cases h <;> rfl

theorem lowercase_asStr (h : StandardHeader) : h.asStr.map toAsciiLowercase = h.asStr := by
  cases h <;> rfl

/-- **The table finds every standard header, in any spelling.** -/
theorem check_eq_some_iff {value : Bytes} {h : StandardHeader} :
    check value = some h ↔ eqIgnoreAsciiCase value h.asStr = true := by
  rw [eqIgnoreAsciiCase_iff, lowercase_asStr]
  refine find?_matchesName_iff (fun h => ?_) fun h h' heq => ?_
  · exact List.mem_of_find?_eq_some h.check_asStr
  · have hcheck := h.check_asStr
    rw [heq, h'.check_asStr] at hcheck
    exact (Option.some.inj hcheck).symm

end StandardHeader

namespace HeaderName

variable {value : Bytes}

theorem tryFrom_of_check {h : StandardHeader} (hcheck : StandardHeader.check value = some h) :
    tryFrom value = .ok (.standard h) := by
  unfold tryFrom
  split
  · next h' heq =>
    rw [hcheck] at heq
    cases heq
    rfl
  · next heq =>
    rw [hcheck] at heq
    cases heq

theorem tryFrom_of_check_none (hcheck : StandardHeader.check value = none) :
    tryFrom value = ofExtension value hcheck := by
  unfold tryFrom
  split
  · next h heq =>
    rw [hcheck] at heq
    cases heq
  · rfl

theorem reads (value : Bytes) :
    ReadsNames tryFrom standard StandardHeader.asStr isToken value := by
  have hcheck : ∀ h, StandardHeader.check value = some h ↔
      eqIgnoreAsciiCase value h.asStr = true := fun h => StandardHeader.check_eq_some_iff
  refine .of_check hcheck (fun h h' => standard.inj) (fun h => tryFrom_of_check)
    (fun hcheck htoken => ?_) fun hcheck htoken => ?_
  · have hne : value.isEmpty = false := by simpa using isToken_ne_nil htoken
    refine ⟨.extension ⟨value, htoken, hcheck⟩, ?_, fun h => nofun⟩
    rw [tryFrom_of_check_none hcheck, ofExtension, hne, if_neg Bool.false_ne_true,
      dif_pos htoken]
  · have hnot : ¬ isToken value = true := by simp [htoken]
    rw [tryFrom_of_check_none hcheck, ofExtension, dif_neg hnot]
    split
    · exact ⟨_, rfl⟩
    · exact ⟨_, rfl⟩

/-- A name in lower case is the same header. -/
theorem tryFrom_asStr (n : HeaderName) : ∃ m, tryFrom n.asStr = .ok m ∧ m.eqv n = true := by
  cases n with
  | standard h => exact ⟨_, tryFrom_of_check h.check_asStr, eqv_refl _⟩
  | extension e =>
    have hcheck : StandardHeader.check (e.name.map toAsciiLowercase) = none := by
      refine Option.eq_none_iff_forall_ne_some.mpr fun h hsome => ?_
      have hspelled := StandardHeader.check_eq_some_iff.mp hsome
      rw [eqIgnoreAsciiCase_iff, map_toAsciiLowercase_idem, ← eqIgnoreAsciiCase_iff,
        ← StandardHeader.check_eq_some_iff, e.notStandard] at hspelled
      cases hspelled
    have htoken := (isToken_map_toAsciiLowercase e.name).trans e.token
    refine ⟨.extension ⟨_, htoken, hcheck⟩, ?_, ?_⟩
    · have hread := tryFrom_canonicalName (.extension ⟨_, htoken, hcheck⟩)
      exact hread
    · exact beq_iff_eq.mpr (map_toAsciiLowercase_idem e.name)

/-- **Equal names hash equally.** -/
theorem hash_of_eqv {σ : Type} (hasher : Hasher σ) (state : σ) {n m : HeaderName}
    (h : n.eqv m = true) : n.hash hasher state = m.hash hasher state := by
  cases n with
  | standard s =>
    cases m with
    | standard s' =>
      have hs : s = s' := eq_of_beq h
      rw [hs]
    | extension e => cases h
  | extension e =>
    cases m with
    | standard s => cases h
    | extension e' =>
      have he : e.name.map toAsciiLowercase = e'.name.map toAsciiLowercase := eq_of_beq h
      rw [hash, hash, he]

end HeaderName

/-! ## Methods and range formats -/

namespace Method

variable {value : Bytes}

theorem check_eq_some_iff {m : StandardMethod} :
    StandardMethod.check value = some m ↔ eqIgnoreAsciiCase value m.asStr = true := by
  have huppercase : m.asStr.map toAsciiUppercase = m.asStr := by cases m <;> decide
  rw [eqIgnoreAsciiCase_iff_uppercase, huppercase]
  exact find?_matchesName_iff (fun m => by cases m <;> decide)
    (fun m m' => by cases m <;> cases m' <;> decide)

theorem tryFrom_of_check {m : StandardMethod} (hcheck : StandardMethod.check value = some m) :
    tryFrom value = .ok (.standard m) := by
  unfold tryFrom
  split
  · next m' heq =>
    rw [hcheck] at heq
    cases heq
    rfl
  · next heq =>
    rw [hcheck] at heq
    cases heq

theorem tryFrom_of_check_none (hcheck : StandardMethod.check value = none) :
    tryFrom value = ofExtension value hcheck := by
  unfold tryFrom
  split
  · next m heq =>
    rw [hcheck] at heq
    cases heq
  · rfl

/-- A token that does not start with a dollar sign. -/
def mayExtend (value : Bytes) : Bool := isToken value && value.head? ≠ some 36

theorem reads (value : Bytes) :
    ReadsNames tryFrom standard StandardMethod.asStr mayExtend value := by
  have hcheck : ∀ m, StandardMethod.check value = some m ↔
      eqIgnoreAsciiCase value m.asStr = true := fun m => check_eq_some_iff
  refine .of_check hcheck (fun m m' => standard.inj) (fun m => tryFrom_of_check)
    (fun hcheck hmay => ?_) fun hcheck hmay => ?_
  · obtain ⟨htoken, hdollar⟩ := Bool.and_eq_true_iff.mp hmay
    have hdollar : value.head? ≠ some 36 := of_decide_eq_true hdollar
    have hne : value.isEmpty = false := by simpa using isToken_ne_nil htoken
    refine ⟨.extension (ofToken value hcheck hdollar htoken), ?_, fun m => nofun⟩
    rw [tryFrom_of_check_none hcheck, ofExtension, hne, if_neg Bool.false_ne_true,
      dif_neg hdollar, dif_pos htoken]
  · rw [tryFrom_of_check_none hcheck, ofExtension]
    split
    · exact ⟨_, rfl⟩
    · split
      · exact ⟨_, rfl⟩
      · next hdollar =>
        split
        · next htoken => simp [mayExtend, htoken, hdollar] at hmay
        · exact ⟨_, rfl⟩

end Method

namespace RangeFormat

variable {value : Bytes}

theorem tryFrom_of_check {r : StandardRangeFormat}
    (hcheck : StandardRangeFormat.check value = some r) : tryFrom value = .ok (.standard r) := by
  unfold tryFrom
  split
  · next r' heq =>
    rw [hcheck] at heq
    cases heq
    rfl
  · next heq =>
    rw [hcheck] at heq
    cases heq

theorem tryFrom_of_check_none (hcheck : StandardRangeFormat.check value = none) :
    tryFrom value = ofExtension value hcheck := by
  unfold tryFrom
  split
  · next r heq =>
    rw [hcheck] at heq
    cases heq
  · rfl

theorem reads (value : Bytes) :
    ReadsNames tryFrom standard StandardRangeFormat.asStr isToken value := by
  have hcheck : ∀ r, StandardRangeFormat.check value = some r ↔
      eqIgnoreAsciiCase value r.asStr = true := fun r => by
    rw [StandardRangeFormat.check_eq_some_iff, eqIgnoreAsciiCase_iff, r.lowercase_asStr]
  refine .of_check hcheck (fun r r' => standard.inj) (fun r => tryFrom_of_check)
    (fun hcheck htoken => ?_) fun hcheck htoken => ?_
  · have hne : value.isEmpty = false := by simpa using isToken_ne_nil htoken
    refine ⟨.extension (ofToken value hcheck htoken), ?_, fun r => nofun⟩
    rw [tryFrom_of_check_none hcheck, ofExtension, hne, if_neg Bool.false_ne_true,
      dif_pos htoken]
  · have hnot : ¬ isToken value = true := by simp [htoken]
    rw [tryFrom_of_check_none hcheck, ofExtension, dif_neg hnot]
    split
    · exact ⟨_, rfl⟩
    · exact ⟨_, rfl⟩

end RangeFormat

/-! ## The result -/

/-- **Names are canonical**: standard names are found in any spelling, the other tokens are
    extensions, what is printed is read back, and header names that differ in case only are
    equal and hash equally. -/
theorem names_canonical (value : Bytes) :
    ReadsNames HeaderName.tryFrom .standard StandardHeader.asStr isToken value ∧
    ReadsNames Method.tryFrom .standard StandardMethod.asStr Method.mayExtend value ∧
    ReadsNames RangeFormat.tryFrom .standard StandardRangeFormat.asStr isToken value ∧
    (∀ n : HeaderName, HeaderName.tryFrom n.canonicalName = .ok n ∧
      ∃ m, HeaderName.tryFrom n.asStr = .ok m ∧ m.eqv n = true) ∧
    (∀ m : Method, Method.tryFrom m.asStr = .ok m) ∧
    (∀ r : RangeFormat, RangeFormat.tryFrom r.asStr = .ok r) ∧
    (∀ e e' : ExtensionHeaderName, (HeaderName.extension e).eqv (.extension e') = true ↔
      eqIgnoreAsciiCase e.name e'.name = true) ∧
    ∀ (σ : Type) (hasher : Hasher σ) (state : σ) (n m : HeaderName), n.eqv m = true →
      n.hash hasher state = m.hash hasher state :=
  ⟨HeaderName.reads value, Method.reads value, RangeFormat.reads value,
    fun n => ⟨n.tryFrom_canonicalName, n.tryFrom_asStr⟩, Method.tryFrom_asStr,
    RangeFormat.tryFrom_asStr, fun _ _ => Iff.rfl,
    fun _ hasher state _ _ h => HeaderName.hash_of_eqv hasher state h⟩

/-- Headers that are spelled in two ways. -/
theorem names_canonical_twice :
    HeaderName.tryFrom (ascii "CONTENT-length") = .ok (.standard .contentLength) ∧
    ∃ n m : HeaderName, n.canonicalName = ascii "X-Note" ∧ m.canonicalName = ascii "x-note" ∧
      n.hash (σ := Bytes) ⟨fun s i => s ++ toDecimal i, fun s text => s ++ text⟩ [] =
        m.hash ⟨fun s i => s ++ toDecimal i, fun s text => s ++ text⟩ [] := by
  obtain ⟨hheader, -, -, -, -, -, heqv, hhash⟩ := names_canonical (ascii "CONTENT-length")
  let e : ExtensionHeaderName := ⟨ascii "X-Note", by decide, by decide⟩
  let e' : ExtensionHeaderName := ⟨ascii "x-note", by decide, by decide⟩
  exact ⟨(hheader.named .contentLength).mpr (by decide), .extension e, .extension e', rfl, rfl,
    hhash Bytes _ [] _ _ ((heqv e e').mpr (by decide))⟩

end Rtsp
