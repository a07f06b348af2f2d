import Rtsp.Header.Common.Gaps.Comments

/-!
# What is read between the fields

`parse_comment_and_folding_whitespace` takes off comments and whitespace in any order,
as many as there are, and is called between any two fields of a date. It takes off
exactly what `Gap` says, and no call of it panics.

A gap ends where neither can begin. As for whitespace this depends on what follows, and
it is the first character of the rest that counts (`opensGap`). Whether there has to be
anything at all is up to the caller, who says whether the gap is optional (`GapText`).
-/

namespace Rtsp.Common

open Syntax Lib

/-- Comments and folding whitespace, up to where there are no more of them. -/
inductive Gap : Str → Str → Prop where
  | stop {rest} : startsWith (· == '(') rest = false → startsWith isBlank rest = false →
      Gap [] rest
  | folding {f g rest} : Fws f (g ++ rest) → Gap g rest → Gap (f ++ g) rest
  | comment {c g rest} : Comment c → Gap g rest → Gap (c ++ g) rest

/-- Whitespace and line breaks. -/
def isFolding (c : Char) : Bool := isBlank c || c == '\r' || c == '\n'

/-- The characters that gaps begin with, or go on with. -/
def opensGap (c : Char) : Bool := c == '(' || isFolding c

theorem startsWith_opensGap {rest : Str} (h : startsWith opensGap rest = false) :
    startsWith (· == '(') rest = false ∧ startsWith isBlank rest = false ∧
      startsWith (· == '\r') rest = false := by
  cases rest with
  | nil => exact ⟨rfl, rfl, rfl⟩
  | cons c t =>
    change (c == '(' || (isBlank c || c == '\r' || c == '\n')) = false at h
    rw [Bool.or_eq_false_iff, Bool.or_eq_false_iff, Bool.or_eq_false_iff] at h
    exact ⟨h.1, h.2.1.1, h.2.1.2⟩

theorem Gap.nil {rest : Str} (h : startsWith opensGap rest = false) : Gap [] rest :=
  have h := startsWith_opensGap h
  .stop h.1 h.2.1

theorem Folding.blanks {b rest : Str} (hb : ∀ c ∈ b, isBlank c = true)
    (h : startsWith opensGap rest = false) : Folding false b rest := by
  induction b with
  | nil =>
    have h := startsWith_opensGap h
    exact .stop h.2.1 h.2.2
  | cons c b ih => exact .blank (hb c (by simp)) (ih fun d hd => hb d (List.mem_cons_of_mem _ hd))

/-- Blanks in front of something else. -/
theorem Gap.blanks {b rest : Str} (hb : ∀ c ∈ b, isBlank c = true)
    (h : startsWith opensGap rest = false) : Gap b rest := by
  cases b with
  | nil => exact .nil h
  | cons c b =>
    have hblanks := Folding.blanks (fun d hd => hb d (List.mem_cons_of_mem _ hd)) h
    have hgap : Gap (c :: b ++ []) rest :=
      .folding ⟨c, b, rfl, hb c (by simp), hblanks⟩ (.nil h)
    rwa [List.append_nil] at hgap

theorem Gap.space {rest : Str} (h : startsWith opensGap rest = false) : Gap [' '] rest :=
  .blanks (by simp [isBlank]) h

/-- The loop goes on behind a part. -/
theorem gapLoop_part {parse : StrParser Str} {isOptional : Bool} {fuel : Nat} {s a b : Str}
    (h : parse (a ++ b) = .ok (a, b)) :
    (do
      let (bytesParsed, chars) ← getNewIter (s ++ (a ++ b)) parse (Str.len s)
      gapLoop (s ++ (a ++ b)) isOptional fuel true bytesParsed chars) =
    gapLoop (s ++ a ++ b) isOptional fuel true (Str.len (s ++ a)) b := by
  rw [getNewIter_ok h, ok_bind, List.append_assoc]

theorem gapLoop_sound (isOptional : Bool) (fuel : Nat) (found : Bool) (s chars : Str)
    (hfuel : chars.length < fuel) :
    (∃ c rest, chars = c ++ rest ∧ (Gap c rest ∧ (found || isOptional) = true ∨
        Gap c rest ∧ c ≠ []) ∧
      gapLoop (s ++ chars) isOptional fuel found (Str.len s) chars = .ok (s ++ c, rest)) ∨
    gapLoop (s ++ chars) isOptional fuel found (Str.len s) chars = invalid := by
  induction fuel generalizing found s chars with
  | zero => exact absurd hfuel (Nat.not_lt_zero _)
  | succ fuel ih =>
    -- What the loop does behind a part that is not empty.
    have hrest : ∀ a b, chars = a ++ b → a ≠ [] →
        (∃ c rest, b = c ++ rest ∧ Gap c rest ∧
          gapLoop (s ++ a ++ b) isOptional fuel true (Str.len (s ++ a)) b =
            .ok (s ++ a ++ c, rest)) ∨
        gapLoop (s ++ a ++ b) isOptional fuel true (Str.len (s ++ a)) b = invalid := by
      rintro a b rfl ha
      have hpos := List.length_pos_iff.mpr ha
      rw [List.length_append] at hfuel
      rcases ih true (s ++ a) b (by omega) with ⟨c, rest, hb, hc, hok⟩ | hinvalid
      · exact .inl ⟨c, rest, hb, hc.elim (·.1) (·.1), hok⟩
      · exact .inr hinvalid
    rw [gapLoop]
    by_cases hopen : startsWith (· == '(') chars = true
    · rw [if_pos hopen]
      rcases sound_comment chars with ⟨_, c, b, rfl, ⟨rfl, hc⟩, hok⟩ | hinvalid
      · have hne : c ≠ [] := by
          obtain ⟨t, rfl, -⟩ := hc
          exact List.cons_ne_nil _ t
        rw [gapLoop_part hok]
        rcases hrest c b rfl hne with ⟨g, rest, rfl, hg, hloop⟩ | hloop
        · exact .inl ⟨c ++ g, rest, by simp, .inr ⟨.comment hc hg, by simp [hne]⟩,
            by simpa using hloop⟩
        · exact .inr hloop
      · rw [getNewIter_invalid hinvalid]
        exact .inr rfl
    rw [if_neg hopen]
    by_cases hblank : startsWith isBlank chars = true
    · rw [if_pos hblank]
      rcases sound_fws chars with ⟨_, f, b, rfl, ⟨rfl, hf⟩, hok⟩ | hinvalid
      · have hne : f ≠ [] := by
          obtain ⟨d, t, rfl, -⟩ := hf
          exact List.cons_ne_nil d t
        rw [gapLoop_part hok]
        rcases hrest f b rfl hne with ⟨g, rest, rfl, hg, hloop⟩ | hloop
        · exact .inl ⟨f ++ g, rest, by simp, .inr ⟨.folding hf hg, by simp [hne]⟩,
            by simpa using hloop⟩
        · exact .inr hloop
      · rw [getNewIter_invalid hinvalid]
        exact .inr rfl
    rw [if_neg hblank]
    by_cases hfound : (found || isOptional) = true
    · rw [if_pos hfound, splitAt_len]
      refine .inl ⟨[], chars, rfl, .inl ⟨.stop ?_ ?_, hfound⟩, by simp⟩
      · exact Bool.eq_false_iff.mpr hopen
      · exact Bool.eq_false_iff.mpr hblank
    · rw [if_neg hfound]
      exact .inr rfl

theorem gapLoop_complete {c rest : Str} (h : Gap c rest) (isOptional : Bool) (fuel : Nat)
    (found : Bool) (s : Str) (hfuel : c.length < fuel)
    (hfound : (found || isOptional) = true ∨ c ≠ []) :
    gapLoop (s ++ (c ++ rest)) isOptional fuel found (Str.len s) (c ++ rest) =
      .ok (s ++ c, rest) := by
  induction h generalizing fuel found s with
  | @stop rest hopen hblank =>
    obtain ⟨fuel, rfl⟩ := Nat.exists_eq_add_one_of_ne_zero (Nat.ne_of_gt (Nat.zero_lt_of_lt hfuel))
    have hfound : (found || isOptional) = true := hfound.resolve_right fun h => h rfl
    rw [List.nil_append, gapLoop, if_neg (Bool.eq_false_iff.mp hopen),
      if_neg (Bool.eq_false_iff.mp hblank), if_pos hfound, splitAt_len, List.append_nil]
  | @folding f g rest hf _ ih =>
    obtain ⟨fuel, rfl⟩ := Nat.exists_eq_add_one_of_ne_zero (Nat.ne_of_gt (Nat.zero_lt_of_lt hfuel))
    have hok := (reads_fws (f ++ (g ++ rest)) f (g ++ rest)).mpr ⟨f, rfl, rfl, hf⟩
    obtain ⟨d, t, rfl, hblank, -⟩ := hf
    have hopen : ¬ startsWith (· == '(') (d :: t ++ (g ++ rest)) = true := by
      intro hopen
      obtain rfl := beq_iff_eq.mp hopen
      cases hblank
    have hblank : startsWith isBlank (d :: t ++ (g ++ rest)) = true := hblank
    have hlt : g.length < fuel := by
      simp only [List.cons_append, List.length_cons, List.length_append] at hfuel
      omega
    have hloop := ih fuel true (s ++ d :: t) hlt (.inl rfl)
    rw [List.append_assoc, gapLoop, if_neg hopen, if_pos hblank, gapLoop_part hok, hloop,
      List.append_assoc]
  | @comment c g rest hc _ ih =>
    obtain ⟨fuel, rfl⟩ := Nat.exists_eq_add_one_of_ne_zero (Nat.ne_of_gt (Nat.zero_lt_of_lt hfuel))
    have hok := (reads_comment (c ++ (g ++ rest)) c (g ++ rest)).mpr ⟨c, rfl, rfl, hc⟩
    obtain ⟨t, rfl, -⟩ := hc
    have hlt : g.length < fuel := by
      simp only [List.cons_append, List.length_cons, List.length_append] at hfuel
      omega
    have hloop := ih fuel true (s ++ '(' :: t) hlt (.inl rfl)
    have hopen : startsWith (· == '(') ('(' :: t ++ (g ++ rest)) = true := rfl
    rw [List.append_assoc, gapLoop, if_pos hopen, gapLoop_part hok, hloop, List.append_assoc]

/-- What a gap is where it may be empty, and where it may not. -/
def GapText (isOptional : Bool) : Reading Char Str := fun c a rest =>
  a = c ∧ Gap c rest ∧ (isOptional = true ∨ c ≠ [])

theorem sound_gap (isOptional : Bool) :
    Sound (parseCommentAndFoldingWhitespace isOptional) (GapText isOptional) := by
  intro s
  rcases gapLoop_sound isOptional (s.length + 1) false [] s (Nat.lt_succ_self _) with
    ⟨c, rest, hs, hc, hok⟩ | hinvalid
  · refine .inl ⟨c, c, rest, hs, ⟨rfl, hc.elim (·.1) (·.1), ?_⟩, hok⟩
    exact hc.imp (·.2) (·.2)
  · exact .inr hinvalid

/-- **`parse_comment_and_folding_whitespace` reads gaps.** -/
theorem reads_gap (isOptional : Bool) :
    Reads (parseCommentAndFoldingWhitespace isOptional) (GapText isOptional) := by
  refine (sound_gap isOptional).reads ?_
  rintro c a rest ⟨rfl, hc, hne⟩
  refine gapLoop_complete hc isOptional _ false [] ?_ hne
  rw [List.length_append]
  omega

end Rtsp.Common
