import Rtsp.Header.Common.Date

/-!
# What is read as folding whitespace

`parse_folding_whitespace` takes blanks, and line breaks that have a blank behind them.
It fails on a line break that has none, rather than to stop in front of it, so where
whitespace ends is not a matter of the text alone: `Fws` has the text that follows as an
argument. (`" \n "` is read as one blank, since a line feed by itself is no line break,
and `" \r\n"` is not read at all; both are tests of `date.rs`.)

Two notions are introduced here that the other parsers use too. `Sound` says that a
parser reads what it is to read wherever it returns a value and otherwise returns
`DateTimeError`, so it does not panic; `Reads` leaves failure open and characterises the
values. Most parsers have both, one that can panic has only the second.
-/

namespace Rtsp.Common

open Syntax Lib

/-! ## Calls that do not panic -/

/-- The parser returns a value or `DateTimeError`. -/
def Safe {α : Type} (p : StrParser α) : Prop := ∀ s q, p s ≠ .error (.panic q)

/-- A parser that reads what it is to read wherever it returns a value, and that otherwise returns
    `DateTimeError`. -/
def Sound {α : Type} (p : StrParser α) (R : Reading Char α) : Prop := ∀ s,
  (∃ c a rest, s = c ++ rest ∧ R c a rest ∧ p s = .ok (a, rest)) ∨ p s = invalid

theorem Sound.safe {α : Type} {p : StrParser α} {R : Reading Char α} (h : Sound p R) : Safe p := by
  intro s q hp
  rcases h s with ⟨c, a, rest, -, -, hok⟩ | hinvalid
  · rw [hok] at hp
    cases hp
  · rw [hinvalid] at hp
    cases hp

theorem Sound.reads {α : Type} {p : StrParser α} {R : Reading Char α} (h : Sound p R)
    (hcomplete : ∀ c a rest, R c a rest → p (c ++ rest) = .ok (a, rest)) : Reads p R := by
  refine Reads.intro (fun s a rest hp => ?_) hcomplete
  rcases h s with ⟨c, a', rest', hs, hR, hok⟩ | hinvalid
  · rw [hok] at hp
    cases hp
    exact ⟨c, hs, hR⟩
  · rw [hinvalid] at hp
    cases hp

@[simp] theorem splitAt_len (s t : Str) : splitAt (s ++ t) (Str.len s) = .ok (s, t) := by
  rw [splitAt, Str.splitAt_len]
  rfl

/-- Behind characters of one byte each there is a boundary. -/
theorem splitAt_len_add (s a t : Str) {n : Nat} (h : Str.len a = n) :
    splitAt (s ++ (a ++ t)) (Str.len s + n) = .ok (s ++ a, t) := by
  rw [← h, ← Str.len_append, ← List.append_assoc, splitAt_len]

theorem utf8Size_of_isBlank {c : Char} (h : isBlank c = true) : c.utf8Size = 1 := by
  simp only [isBlank, Bool.or_eq_true, beq_iff_eq] at h
  rcases h with rfl | rfl
  · rfl
  · rfl

theorem getNewIter_ok {parse : StrParser Str} {s chars a b : Str}
    (h : parse chars = .ok (a, b)) :
    getNewIter (s ++ chars) parse (Str.len s) = .ok (Str.len (s ++ a), b) := by
  rw [getNewIter, splitAt_len, ok_bind]
  dsimp only
  rw [h, Str.len_append]
  rfl

theorem getNewIter_invalid {parse : StrParser Str} {s chars : Str} (h : parse chars = invalid) :
    getNewIter (s ++ chars) parse (Str.len s) = invalid := by
  rw [getNewIter, splitAt_len, ok_bind]
  dsimp only
  rw [h]
  rfl

theorem startsWith_iff {p : Char → Bool} {s : Str} :
    startsWith p s = true ↔ ∃ c t, s = c :: t ∧ p c = true := by
  cases s with
  | nil => simp [startsWith]
  | cons c t => simp [startsWith]

/-! ## Folding whitespace -/

/-- Whitespace behind its first character. If it is `required`, there is a line break in front of
    it. -/
inductive Folding : Bool → Str → Str → Prop where
  | stop {rest} : startsWith isBlank rest = false → startsWith (· == '\r') rest = false →
      Folding false [] rest
  | blank {required c s rest} : isBlank c = true → Folding false s rest →
      Folding required (c :: s) rest
  | crlf {s rest} : Folding true s rest → Folding false ('\r' :: '\n' :: s) rest

/-- Blanks, and line breaks with a blank behind them. -/
def Fws (f rest : Str) : Prop := ∃ c s, f = c :: s ∧ isBlank c = true ∧ Folding false s rest

theorem foldingLoop_cons (value : Str) (required : Bool) (n : Nat) (c : Char) (chars : Str) :
    foldingLoop value required n (c :: chars) =
      if isBlank c then foldingLoop value false (n + 1) chars
      else if required then invalid
      else if c = '\r' then
        match chars with
        | d :: chars => if d = '\n' then foldingLoop value true (n + 2) chars else invalid
        | [] => invalid
      else splitAt value n := by
  cases chars with
  | nil => rfl
  | cons d chars => rfl

theorem foldingLoop_blank {c : Char} (h : isBlank c = true) (required : Bool) (s chars : Str) :
    foldingLoop (s ++ c :: chars) required (Str.len s) (c :: chars) =
      foldingLoop (s ++ [c] ++ chars) false (Str.len (s ++ [c])) chars := by
  have hlen : Str.len s + 1 = Str.len (s ++ [c]) := by
    simp [utf8Size_of_isBlank h]
  have hs : s ++ c :: chars = s ++ [c] ++ chars := by simp
  rw [foldingLoop_cons, if_pos h, hlen, hs]

theorem foldingLoop_crlf (s chars : Str) :
    foldingLoop (s ++ '\r' :: '\n' :: chars) false (Str.len s) ('\r' :: '\n' :: chars) =
      foldingLoop (s ++ ['\r', '\n'] ++ chars) true (Str.len (s ++ ['\r', '\n'])) chars := by
  have hlen : Str.len s + 2 = Str.len (s ++ ['\r', '\n']) := by
    rw [Str.len_append]
    rfl
  have hs : s ++ '\r' :: '\n' :: chars = s ++ ['\r', '\n'] ++ chars := by simp
  rw [foldingLoop_cons, if_neg (by decide), if_neg (by decide), if_pos rfl]
  dsimp only
  rw [if_pos rfl, hlen, hs]

theorem foldingLoop_stop {s rest : Str} (hblank : startsWith isBlank rest = false)
    (hcr : startsWith (· == '\r') rest = false) :
    foldingLoop (s ++ rest) false (Str.len s) rest = .ok (s, rest) := by
  cases rest with
  | nil => exact splitAt_len s []
  | cons c rest =>
    have hblank : ¬ isBlank c = true := by simpa [startsWith] using hblank
    have hcr : c ≠ '\r' := by simpa [startsWith] using hcr
    rw [foldingLoop_cons, if_neg hblank, if_neg Bool.false_ne_true, if_neg hcr, splitAt_len]

theorem foldingLoop_sound (required : Bool) (s chars : Str) :
    (∃ c rest, chars = c ++ rest ∧ Folding required c rest ∧
      foldingLoop (s ++ chars) required (Str.len s) chars = .ok (s ++ c, rest)) ∨
    foldingLoop (s ++ chars) required (Str.len s) chars = invalid := by
  induction h : chars.length using Nat.strongRecOn generalizing required s chars with
  | ind n ih =>
    by_cases hblank : startsWith isBlank chars = true
    · obtain ⟨d, chars, rfl, hblank⟩ := startsWith_iff.mp hblank
      rw [foldingLoop_blank hblank]
      rcases ih chars.length (by simp [← h]) false (s ++ [d]) chars rfl with
        ⟨c, rest, rfl, hc, hok⟩ | hinvalid
      · exact .inl ⟨d :: c, rest, rfl, .blank hblank hc, by simpa using hok⟩
      · exact .inr hinvalid
    have hblank : startsWith isBlank chars = false := by simpa using hblank
    cases required with
    | true =>
      cases chars with
      | nil => exact .inr rfl
      | cons d chars =>
        rw [foldingLoop_cons, if_neg (by simpa [startsWith] using hblank)]
        exact .inr rfl
    | false =>
      by_cases hcr : startsWith (· == '\r') chars = true
      · obtain ⟨d, chars, rfl, hd⟩ := startsWith_iff.mp hcr
        obtain rfl := beq_iff_eq.mp hd
        cases chars with
        | nil => exact .inr rfl
        | cons e chars =>
          by_cases hlf : e = '\n'
          · subst hlf
            rw [foldingLoop_crlf]
            have hlt : chars.length < n := by
              rw [← h]
              exact Nat.lt_trans (Nat.lt_succ_self _) (Nat.lt_succ_self _)
            rcases ih chars.length hlt true (s ++ ['\r', '\n']) chars rfl with
              ⟨c, rest, rfl, hc, hok⟩ | hinvalid
            · exact .inl ⟨'\r' :: '\n' :: c, rest, rfl, .crlf hc, by simpa using hok⟩
            · exact .inr hinvalid
          · rw [foldingLoop_cons, if_neg (by decide), if_neg (by decide), if_pos rfl]
            exact .inr (if_neg hlf)
      · have hcr : startsWith (· == '\r') chars = false := by simpa using hcr
        exact .inl ⟨[], chars, rfl, .stop hblank hcr, by simpa using foldingLoop_stop hblank hcr⟩

theorem foldingLoop_complete {required : Bool} {c rest : Str} (h : Folding required c rest)
    (s : Str) :
    foldingLoop (s ++ (c ++ rest)) required (Str.len s) (c ++ rest) = .ok (s ++ c, rest) := by
  induction h generalizing s with
  | stop hblank hcr => simpa using foldingLoop_stop hblank hcr
  | @blank required d c rest hblank _ ih =>
    rw [List.cons_append, foldingLoop_blank hblank, ih]
    simp
  | crlf _ ih =>
    rw [List.cons_append, List.cons_append, foldingLoop_crlf, ih]
    simp

theorem sound_fws : Sound parseFoldingWhitespace fun c a rest => a = c ∧ Fws c rest := by
  intro s
  cases s with
  | nil => exact .inr rfl
  | cons d chars =>
    rw [parseFoldingWhitespace]
    by_cases hblank : isBlank d = true
    · rw [if_pos hblank]
      have hlen : 1 = Str.len [d] := by simp [utf8Size_of_isBlank hblank]
      rcases foldingLoop_sound false [d] chars with ⟨c, rest, rfl, hc, hok⟩ | hinvalid
      · refine .inl ⟨d :: c, d :: c, rest, rfl, ⟨rfl, d, c, rfl, hblank, hc⟩, ?_⟩
        rw [hlen]
        exact hok
      · rw [hlen]
        exact .inr hinvalid
    · rw [if_neg hblank]
      exact .inr rfl

/-- **`parse_folding_whitespace` reads folding whitespace.** -/
theorem reads_fws : Reads parseFoldingWhitespace fun c a rest => a = c ∧ Fws c rest := by
  refine sound_fws.reads ?_
  rintro c a rest ⟨rfl, d, f, rfl, hblank, hf⟩
  have hlen : 1 = Str.len [d] := by simp [utf8Size_of_isBlank hblank]
  rw [List.cons_append, parseFoldingWhitespace, if_pos hblank, hlen]
  exact foldingLoop_complete hf [d]

end Rtsp.Common
