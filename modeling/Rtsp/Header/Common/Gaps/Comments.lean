import Rtsp.Header.Common.Gaps.Folding

/-!
# What is read as a comment

A comment is in parentheses, comments nest, and a backslash quotes a character.
`Comment` says it as a grammar of its own, written from what `parse_comment` does; how
it differs from the grammar in the comments of `types/date.rs` is the subject of
`Common.Comments`.

Inside a comment whitespace is read by `parse_folding_whitespace`, whose end depends on
what follows. That does no harm here, because something always follows, if only the
closing parenthesis: `Fws.append_rest` says that the next character decides, and so a
comment is a text by itself, with no argument for the rest.

`parse_comment` calls itself for a comment inside a comment. The model gives it fuel,
and the lemmas about the loop are for any fuel that is more than the characters left, so
what is shown does not depend on how much was given.
-/

namespace Rtsp.Common

open Syntax Lib

theorem Folding.congr_rest {required : Bool} {c rest rest' : Str} (h : Folding required c rest)
    (hblank : startsWith isBlank rest' = startsWith isBlank rest)
    (hcr : startsWith (· == '\r') rest' = startsWith (· == '\r') rest) :
    Folding required c rest' := by
  induction h with
  | stop h₁ h₂ => exact .stop (hblank.trans h₁) (hcr.trans h₂)
  | blank hc _ ih => exact .blank hc (ih hblank hcr)
  | crlf _ ih => exact .crlf (ih hblank hcr)

/-- Only the next character decides where whitespace ends. -/
theorem Fws.append_rest {f s rest : Str} (hs : s ≠ []) : Fws f (s ++ rest) ↔ Fws f s := by
  obtain ⟨c, t, rfl⟩ := List.exists_cons_of_ne_nil hs
  constructor
  · rintro ⟨d, g, rfl, hd, hg⟩
    exact ⟨d, g, rfl, hd, hg.congr_rest rfl rfl⟩
  · rintro ⟨d, g, rfl, hd, hg⟩
    exact ⟨d, g, rfl, hd, hg.congr_rest rfl rfl⟩

/-- The characters that `parse_quoted_pair` takes behind a backslash. -/
def IsQuotable (c : Char) : Prop := ('!' < c ∧ c < '~') ∨ c = ' ' ∨ c = '\t'

/-- A comment behind its opening parenthesis. -/
inductive CommentRest : Str → Prop where
  | close : CommentRest [')']
  | folding {f s} : Fws f s → CommentRest s → CommentRest (f ++ s)
  | nested {c s} : CommentRest c → CommentRest s → CommentRest ('(' :: c ++ s)
  | quoted {c s} : IsQuotable c → CommentRest s → CommentRest ('\\' :: c :: s)
  | text {c s} : isCommentText c = true → CommentRest s → CommentRest (c :: s)

def Comment (c : Str) : Prop := ∃ s, c = '(' :: s ∧ CommentRest s

theorem CommentRest.ne_nil {s : Str} (h : CommentRest s) : s ≠ [] := by
  induction h with
  | folding _ _ ih => simp [ih]
  | _ => simp

theorem utf8Size_of_le {c : Char} (h : c ≤ '~') : c.utf8Size = 1 :=
  Str.utf8Size_of_lt (Nat.lt_of_le_of_lt (UInt32.le_iff_toNat_le.mp h) (by decide))

theorem utf8Size_of_isCommentText {c : Char} (h : isCommentText c = true) : c.utf8Size = 1 := by
  apply utf8Size_of_le
  simp only [isCommentText, Bool.or_eq_true, Bool.and_eq_true, decide_eq_true_eq] at h
  rcases h with (⟨-, h⟩ | ⟨-, h⟩) | ⟨-, h⟩
  · exact Char.le_trans h (by decide)
  · exact Char.le_trans h (by decide)
  · exact h

theorem utf8Size_of_isQuotable {c : Char} (h : IsQuotable c) : c.utf8Size = 1 := by
  rcases h with ⟨-, h⟩ | rfl | rfl
  · exact utf8Size_of_le (Char.not_lt.mp (Char.lt_asymm h))
  · rfl
  · rfl

theorem sound_quotedPair : Sound parseQuotedPair fun c a _ =>
    a = c ∧ ∃ d, c = ['\\', d] ∧ IsQuotable d := by
  intro s
  match s with
  | [] => exact .inr rfl
  | [c] => exact .inr rfl
  | c :: d :: rest =>
    rw [parseQuotedPair]
    by_cases h : c = '\\' ∧ IsQuotable d
    · obtain ⟨rfl, hd⟩ := h
      have hlen : 2 = Str.len ['\\', d] := by
        rw [Str.len_cons, Str.len_cons, utf8Size_of_isQuotable hd]
        rfl
      refine .inl ⟨_, _, rest, rfl, ⟨rfl, d, rfl, hd⟩, ?_⟩
      rw [if_pos ⟨rfl, hd⟩, hlen]
      exact splitAt_len ['\\', d] rest
    · exact .inr (if_neg h)

theorem parseQuotedPair_complete {d : Char} (hd : IsQuotable d) (rest : Str) :
    parseQuotedPair ('\\' :: d :: rest) = .ok (['\\', d], rest) := by
  have hlen : 2 = Str.len ['\\', d] := by
    rw [Str.len_cons, Str.len_cons, utf8Size_of_isQuotable hd]
    rfl
  rw [parseQuotedPair, if_pos ⟨rfl, hd⟩, hlen]
  exact splitAt_len ['\\', d] rest

/-- The loop goes on behind a part. -/
theorem commentLoop_part {parse : StrParser Str} {fuel : Nat} {s a b : Str}
    (h : parse (a ++ b) = .ok (a, b)) :
    (do
      let (bytesParsed, chars) ← getNewIter (s ++ (a ++ b)) parse (Str.len s)
      commentLoop fuel (s ++ (a ++ b)) bytesParsed chars) =
    commentLoop fuel (s ++ a ++ b) (Str.len (s ++ a)) b := by
  rw [getNewIter_ok h, ok_bind, List.append_assoc]

theorem commentLoop_text {fuel : Nat} {c : Char} (h : isCommentText c = true) (s chars : Str) :
    commentLoop (fuel + 1) (s ++ c :: chars) (Str.len s) (c :: chars) =
      commentLoop fuel (s ++ [c] ++ chars) (Str.len (s ++ [c])) chars := by
  have hne : ∀ d, isCommentText d = false → c ≠ d := by
    rintro d hd rfl
    rw [h] at hd
    cases hd
  have hblank : ¬ isBlank c = true := by
    simp [isBlank, hne ' ' (by decide), hne '\t' (by decide)]
  have hlen : Str.len s + 1 = Str.len (s ++ [c]) := by
    simp [utf8Size_of_isCommentText h]
  have hs : s ++ c :: chars = s ++ [c] ++ chars := by simp
  rw [commentLoop, if_neg hblank, if_neg (hne '(' (by decide)), if_neg (hne ')' (by decide)),
    if_neg (hne '\\' (by decide)), if_pos h, hlen, hs]

theorem commentLoop_sound (fuel : Nat) (s chars : Str) (hfuel : chars.length < fuel) :
    (∃ c rest, chars = c ++ rest ∧ CommentRest c ∧
      commentLoop fuel (s ++ chars) (Str.len s) chars = .ok (s ++ c, rest)) ∨
    commentLoop fuel (s ++ chars) (Str.len s) chars = invalid := by
  induction fuel generalizing s chars with
  | zero => exact absurd hfuel (Nat.not_lt_zero _)
  | succ fuel ih =>
    cases chars with
    | nil => exact .inr rfl
    | cons d chars =>
      rw [List.length_cons] at hfuel
      -- What the loop does behind a part that is not empty.
      have hrest : ∀ a b, d :: chars = a ++ b → a ≠ [] →
          (∃ c rest, b = c ++ rest ∧ CommentRest c ∧
            commentLoop fuel (s ++ a ++ b) (Str.len (s ++ a)) b = .ok (s ++ a ++ c, rest)) ∨
          commentLoop fuel (s ++ a ++ b) (Str.len (s ++ a)) b = invalid := by
        intro a b hab ha
        apply ih
        have hlen := congrArg List.length hab
        have hpos := List.length_pos_iff.mpr ha
        rw [List.length_cons, List.length_append] at hlen
        omega
      rw [commentLoop]
      by_cases hblank : isBlank d = true
      · rw [if_pos hblank]
        rcases sound_fws (d :: chars) with ⟨_, f, b, hab, ⟨rfl, hf⟩, hok⟩ | hinvalid
        · have hne : f ≠ [] := by
            obtain ⟨e, g, rfl, -⟩ := hf
            exact List.cons_ne_nil e g
          rw [hab] at hok ⊢
          rw [commentLoop_part hok]
          rcases hrest f b hab hne with ⟨c, rest, rfl, hc, hloop⟩ | hloop
          · have hf := (Fws.append_rest hc.ne_nil).mp hf
            exact .inl ⟨f ++ c, rest, by simp, .folding hf hc, by simpa using hloop⟩
          · exact .inr hloop
        · rw [getNewIter_invalid hinvalid]
          exact .inr rfl
      rw [if_neg hblank]
      by_cases hopen : d = '('
      · subst hopen
        rw [if_pos rfl]
        have hlen : 1 = Str.len ['('] := rfl
        rcases ih ['('] chars (by omega) with ⟨c, b, rfl, hc, hok⟩ | hinvalid
        · have hok : parseCommentWith (commentLoop fuel) ('(' :: c ++ b) = .ok ('(' :: c, b) := hok
          rw [← List.cons_append, commentLoop_part hok]
          rcases hrest ('(' :: c) b rfl (by simp) with ⟨c', rest, rfl, hc', hloop⟩ | hloop
          · refine .inl ⟨'(' :: c ++ c', rest, by simp, .nested hc hc', ?_⟩
            simpa using hloop
          · exact .inr hloop
        · have hinvalid : parseCommentWith (commentLoop fuel) ('(' :: chars) = invalid := hinvalid
          rw [getNewIter_invalid hinvalid]
          exact .inr rfl
      rw [if_neg hopen]
      by_cases hclose : d = ')'
      · subst hclose
        rw [if_pos rfl]
        exact .inl ⟨[')'], chars, rfl, .close, splitAt_len_add s [')'] chars rfl⟩
      rw [if_neg hclose]
      by_cases hquote : d = '\\'
      · rw [if_pos hquote]
        rcases sound_quotedPair (d :: chars) with ⟨_, q, b, hab, ⟨rfl, e, rfl, he⟩, hok⟩ | hinvalid
        · rw [hab] at hok ⊢
          rw [commentLoop_part hok]
          rcases hrest ['\\', e] b hab (by simp) with ⟨c, rest, rfl, hc, hloop⟩ | hloop
          · exact .inl ⟨'\\' :: e :: c, rest, rfl, .quoted he hc, by simpa using hloop⟩
          · exact .inr hloop
        · rw [getNewIter_invalid hinvalid]
          exact .inr rfl
      rw [if_neg hquote]
      by_cases htext : isCommentText d = true
      · rw [if_pos htext]
        have hlen : Str.len s + 1 = Str.len (s ++ [d]) := by
          simp [utf8Size_of_isCommentText htext]
        have hs : s ++ d :: chars = s ++ [d] ++ chars := by simp
        rw [hlen, hs]
        rcases hrest [d] chars rfl (by simp) with ⟨c, rest, rfl, hc, hloop⟩ | hloop
        · exact .inl ⟨d :: c, rest, rfl, .text htext hc, by simpa using hloop⟩
        · exact .inr hloop
      · rw [if_neg htext]
        exact .inr rfl

theorem commentLoop_complete {c : Str} (h : CommentRest c) (fuel : Nat) (s rest : Str)
    (hfuel : c.length < fuel) :
    commentLoop fuel (s ++ (c ++ rest)) (Str.len s) (c ++ rest) = .ok (s ++ c, rest) := by
  induction h generalizing fuel s rest with
  | close =>
    obtain ⟨fuel, rfl⟩ := Nat.exists_eq_add_one_of_ne_zero (Nat.ne_of_gt (Nat.zero_lt_of_lt hfuel))
    exact splitAt_len_add s [')'] rest rfl
  | @folding f c hf hc ih =>
    obtain ⟨fuel, rfl⟩ := Nat.exists_eq_add_one_of_ne_zero (Nat.ne_of_gt (Nat.zero_lt_of_lt hfuel))
    have hf' : Fws f (c ++ rest) := (Fws.append_rest hc.ne_nil).mpr hf
    have hok := (reads_fws (f ++ (c ++ rest)) f (c ++ rest)).mpr ⟨f, rfl, rfl, hf'⟩
    obtain ⟨d, g, rfl, hblank, -⟩ := hf
    have hlt : c.length < fuel := by
      simp only [List.cons_append, List.length_cons, List.length_append] at hfuel
      omega
    have hloop := ih fuel (s ++ d :: g) rest hlt
    rw [List.append_assoc, List.cons_append, commentLoop, if_pos hblank, ← List.cons_append,
      commentLoop_part hok, hloop, List.append_assoc]
  | @nested c c' hc _ ih ih' =>
    obtain ⟨fuel, rfl⟩ := Nat.exists_eq_add_one_of_ne_zero (Nat.ne_of_gt (Nat.zero_lt_of_lt hfuel))
    simp only [List.cons_append, List.length_cons, List.length_append] at hfuel
    have hok : parseCommentWith (commentLoop fuel) ('(' :: c ++ (c' ++ rest)) =
        .ok ('(' :: c, c' ++ rest) := ih fuel ['('] (c' ++ rest) (by omega)
    have hloop := ih' fuel (s ++ '(' :: c) rest (by omega)
    rw [List.append_assoc, List.cons_append, commentLoop, if_neg (by decide), if_pos rfl,
      ← List.cons_append, commentLoop_part hok, hloop, List.append_assoc]
  | @quoted d c hd _ ih =>
    obtain ⟨fuel, rfl⟩ := Nat.exists_eq_add_one_of_ne_zero (Nat.ne_of_gt (Nat.zero_lt_of_lt hfuel))
    have hok : parseQuotedPair (['\\', d] ++ (c ++ rest)) = .ok (['\\', d], c ++ rest) :=
      parseQuotedPair_complete hd (c ++ rest)
    have hlt : c.length < fuel := by
      simp only [List.length_cons] at hfuel
      omega
    have hloop := ih fuel (s ++ ['\\', d]) rest hlt
    have hquote : commentLoop (fuel + 1) (s ++ ('\\' :: d :: c ++ rest)) (Str.len s)
        ('\\' :: d :: c ++ rest) = (do
          let (bytesParsed, chars) ←
            getNewIter (s ++ (['\\', d] ++ (c ++ rest))) parseQuotedPair (Str.len s)
          commentLoop fuel (s ++ (['\\', d] ++ (c ++ rest))) bytesParsed chars) := rfl
    rw [hquote, commentLoop_part hok, hloop, List.append_assoc]
    rfl
  | @text d c hd _ ih =>
    obtain ⟨fuel, rfl⟩ := Nat.exists_eq_add_one_of_ne_zero (Nat.ne_of_gt (Nat.zero_lt_of_lt hfuel))
    have hlt : c.length < fuel := by
      simp only [List.length_cons] at hfuel
      omega
    have hloop := ih fuel (s ++ [d]) rest hlt
    rw [List.cons_append, commentLoop_text hd, List.append_assoc, ← List.append_assoc s, hloop]
    simp

theorem sound_comment : Sound parseComment fun c a _ => a = c ∧ Comment c := by
  intro s
  cases s with
  | nil => exact .inr rfl
  | cons d chars =>
    rw [parseComment, parseCommentWith]
    by_cases hopen : d = '('
    · subst hopen
      rw [if_pos rfl]
      rcases commentLoop_sound _ ['('] chars (Nat.lt_succ_self _) with ⟨c, rest, rfl, hc, hok⟩ | h
      · exact .inl ⟨'(' :: c, _, rest, rfl, ⟨rfl, c, rfl, hc⟩, hok⟩
      · exact .inr h
    · exact .inr (if_neg hopen)

/-- **`parse_comment` reads comments.** -/
theorem reads_comment : Reads parseComment fun c a _ => a = c ∧ Comment c := by
  refine sound_comment.reads ?_
  rintro c a rest ⟨rfl, c, rfl, hc⟩
  refine commentLoop_complete hc _ ['('] rest ?_
  simp only [List.cons_append, List.length_cons, List.length_append]
  omega

end Rtsp.Common
