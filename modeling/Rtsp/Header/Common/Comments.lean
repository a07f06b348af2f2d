import Rtsp.Header.Common.Grammar

/-!
# Comments of the grammar

`parse_comment` against the documented rule, with whitespace anywhere between the
parts. The parser takes neither `\!` nor `\~`, although both are quoted pairs, and
it looks for whitespace where it finds a blank, so a `CRLF` has to have one in front
of it. Every other comment it reads (`readsComments_anyComment_iff`).

There are two readings of the rule. In one the whitespace between two parts is a single
`FWS`, as the documentation has it; in the other there may be several. The result is
shown for both, and the exception is the same.

The exception is described on the text by a scan (`known`), which does not know where a
comment ends. It remembers one thing: whether there was a blank in front, since a parser
that is in its whitespace loop accepts a line break and one that is not does not.

Nested comments are entered by a call in the source, and so they are here, with one
bound on turns and on nesting together; it is shown to suffice.
-/

namespace Rtsp.Common.Grammar

open Computability Syntax Lib Lib.Abnf

/-- A comment behind its opening parenthesis. -/
inductive Contents : Str → Prop where
  | close : Contents [')']
  | ctext {c s} : isCtext c = true → Contents s → Contents (c :: s)
  | quotedPair {c s} : isVchar c = true ∨ isBlank c = true → Contents s → Contents ('\\' :: c :: s)
  | folding {f s} : f ∈ fws → Contents s → Contents (f ++ s)
  | comment {c s} : Contents c → Contents s → Contents ('(' :: (c ++ s))

/-- Any number of `ctext`, `quoted-pair`, `FWS` and `comment` in parentheses. -/
def anyComment : Language Char := {s | ∃ t, s = '(' :: t ∧ Contents t}

/-- The rule of the documentation is stricter only in that it has no `FWS` behind another. -/
theorem contents_of_commentEnd {s : Str} (h : CommentEnd s) : Contents s := by
  have hfolding : ∀ {f s : Str}, f ∈ opt fws → Contents s → Contents (f ++ s) := by
    rintro f s (rfl | hf) hs
    · exact hs
    · exact .folding hf hs
  induction h with
  | close hf => exact hfolding hf .close
  | ctext hf hc _ ih => exact hfolding hf (.ctext hc ih)
  | quotedPair hf hc _ ih => exact hfolding hf (.quotedPair hc ih)
  | comment hf _ _ ih ih' => exact hfolding hf (.comment ih ih')

theorem comment_le : comment ≤ anyComment := by
  rintro _ ⟨t, rfl, ht⟩
  exact ⟨t, rfl, contents_of_commentEnd ht⟩

/-! ## What the parser does not know -/

/-- No quoted `!` or `~`, and no `CR` but behind a blank that is not quoted. -/
def known : Bool → Str → Bool
  | _, [] => true
  | afterBlank, c :: s =>
    if c = '\\' then
      match s with
      | d :: s => d != '!' && d != '~' && known false s
      | [] => true
    else (afterBlank || c != '\r') && known (isBlank c) s

theorem known_quoted (afterBlank : Bool) (d : Char) (s : Str) :
    known afterBlank ('\\' :: d :: s) = (d != '!' && d != '~' && known false s) := by
  rw [known.eq_def]
  rfl

theorem known_cons (afterBlank : Bool) {c : Char} (s : Str) (hquote : c ≠ '\\') :
    known afterBlank (c :: s) = ((afterBlank || c != '\r') && known (isBlank c) s) := by
  rw [known.eq_def]
  dsimp only
  rw [if_neg hquote]

/-- What is in front matters to a `CR` only. -/
theorem known_of_not_cr {s : Str} (h : startsWith (· == '\r') s = false) (afterBlank : Bool) :
    known afterBlank s = known false s := by
  cases s with
  | nil => rfl
  | cons c s =>
    have hcr : (c != '\r') = true := by simpa [startsWith] using h
    rw [known.eq_def, known.eq_def false]
    dsimp only
    rw [hcr, Bool.or_true, Bool.or_true]

/-! ## What the parser reads -/

theorem ne_of_isBlank {c : Char} (h : isBlank c = true) : c ≠ '\\' ∧ c ≠ '\r' := by
  constructor
  all_goals
    rintro rfl
    cases h

/-- Whitespace is read as a whole, so every `CR` of it is behind a blank. -/
theorem known_of_folding {required : Bool} {f rest : Str} (h : Folding required f rest)
    (t : Str) (ht : rest ≠ []) (hrest : known false (rest ++ t) = true) :
    known (!required) (f ++ rest ++ t) = true := by
  induction h with
  | @stop rest _ hcr =>
    obtain ⟨c, r, rfl⟩ := List.exists_cons_of_ne_nil ht
    have hcr : startsWith (· == '\r') (c :: r ++ t) = false := hcr
    rw [List.nil_append, known_of_not_cr hcr]
    exact hrest
  | @blank required c s rest hc _ ih =>
    obtain ⟨hquote, hcr⟩ := ne_of_isBlank hc
    rw [List.cons_append, List.cons_append, known_cons _ _ hquote, hc, Bool.and_eq_true,
      Bool.or_eq_true]
    exact ⟨.inr (bne_iff_ne.mpr hcr), ih ht hrest⟩
  | @crlf s rest _ ih =>
    have hlf : known false ('\n' :: (s ++ rest ++ t)) = true := by
      rw [known_cons _ _ (by decide)]
      exact ih ht hrest
    rw [List.cons_append, List.cons_append, List.cons_append, List.cons_append,
      known_cons _ _ (by decide)]
    exact hlf

theorem isCommentText_ne {c : Char} (h : isCommentText c = true) :
    c ≠ '\\' ∧ c ≠ '\r' ∧ isBlank c = false := by
  refine ⟨?_, ?_, Bool.eq_false_iff.mpr fun hblank => ?_⟩
  · rintro rfl
    cases h
  · rintro rfl
    cases h
  · simp only [isBlank, Bool.or_eq_true, beq_iff_eq] at hblank
    rcases hblank with rfl | rfl
    · cases h
    · cases h

theorem not_excluded_of_isQuotable {c : Char} (h : IsQuotable c) : c ≠ '!' ∧ c ≠ '~' := by
  constructor
  · rintro rfl
    rcases h with ⟨h, -⟩ | h | h
    · exact absurd h (by decide)
    · cases h
    · cases h
  · rintro rfl
    rcases h with ⟨-, h⟩ | h | h
    · exact absurd h (by decide)
    · cases h
    · cases h

theorem known_of_commentRest {s : Str} (h : CommentRest s) (t : Str)
    (ht : known false t = true) : known false (s ++ t) = true := by
  induction h generalizing t with
  | close =>
    rw [List.singleton_append, known_cons _ _ (by decide)]
    exact ht
  | @folding f s hf hs ih =>
    obtain ⟨c, f, rfl, hc, hf⟩ := hf
    obtain ⟨hquote, hcr⟩ := ne_of_isBlank hc
    have hrest := known_of_folding hf t hs.ne_nil (ih t ht)
    rw [List.cons_append, List.cons_append, known_cons _ _ hquote, hc, Bool.and_eq_true]
    exact ⟨bne_iff_ne.mpr hcr, hrest⟩
  | @nested c s _ _ ih ih' =>
    have hrest := ih (s ++ t) (ih' t ht)
    rw [List.cons_append, List.cons_append, List.append_assoc, known_cons _ _ (by decide)]
    exact hrest
  | @quoted c s hc _ ih =>
    obtain ⟨hmark, htilde⟩ := not_excluded_of_isQuotable hc
    rw [List.cons_append, List.cons_append, known_quoted, ih t ht, Bool.and_true,
      Bool.and_eq_true]
    exact ⟨bne_iff_ne.mpr hmark, bne_iff_ne.mpr htilde⟩
  | @text c s hc _ ih =>
    obtain ⟨hquote, hcr, hblank⟩ := isCommentText_ne hc
    rw [List.cons_append, known_cons _ _ hquote, hblank, Bool.and_eq_true]
    exact ⟨bne_iff_ne.mpr hcr, ih t ht⟩

theorem contents_of_commentRest {s : Str} (h : CommentRest s) : Contents s := by
  induction h with
  | close => exact .close
  | folding hf _ ih => exact .folding (mem_fws hf) ih
  | nested _ _ ih ih' => exact .comment ih ih'
  | quoted hc _ ih => exact .quotedPair (isVchar_of_isQuotable hc) ih
  | @text c _ hc _ ih =>
    rw [isCommentText_eq c] at hc
    exact .ctext hc ih

/-! ## What is known is read -/

/-- A text of which the parser reads what it knows: behind a blank the rest of the whitespace, and
    then the comment to its end. Behind the end nothing is asked that was not asked before. -/
def Understood (s : Str) : Prop := ∀ afterBlank t, known afterBlank (s ++ t) = true →
  known false t = true ∧ ∃ f r, s = f ++ r ∧ CommentRest r ∧
    if afterBlank then Folding false f r else f = []

theorem Understood.rest {s t : Str} (h : Understood s) (hknown : known false (s ++ t) = true) :
    known false t = true ∧ CommentRest s := by
  obtain ⟨ht, f, r, rfl, hr, hf⟩ := h false t hknown
  obtain rfl : f = [] := hf
  exact ⟨ht, hr⟩

/-- A part that is no whitespace. -/
theorem Understood.of_part {s : Str} (hblank : startsWith isBlank s = false)
    (hcr : startsWith (· == '\r') s = false) (h : ∀ afterBlank t,
      known afterBlank (s ++ t) = true → known false t = true ∧ CommentRest s) :
    Understood s := by
  intro afterBlank t hknown
  obtain ⟨ht, hs⟩ := h afterBlank t hknown
  refine ⟨ht, [], s, rfl, hs, ?_⟩
  cases afterBlank with
  | false => rfl
  | true => exact .stop hblank hcr

theorem Understood.blank {c : Char} {s : Str} (hc : isBlank c = true) (h : Understood s) :
    Understood (c :: s) := by
  intro afterBlank t hknown
  rw [List.cons_append, known_cons _ _ (ne_of_isBlank hc).1, hc, Bool.and_eq_true] at hknown
  obtain ⟨ht, f, r, rfl, hr, hf⟩ := h true t hknown.2
  cases afterBlank with
  | false => exact ⟨ht, [], c :: (f ++ r), rfl, .folding ⟨c, f, rfl, hc, hf⟩ hr, rfl⟩
  | true => exact ⟨ht, c :: f, r, rfl, hr, .blank hc hf⟩

theorem Understood.crlf {c : Char} {s : Str} (hc : isBlank c = true) (h : Understood s) :
    Understood ('\r' :: '\n' :: c :: s) := by
  intro afterBlank t hknown
  rw [List.cons_append, known_cons _ _ (by decide), Bool.and_eq_true] at hknown
  obtain ⟨hcr, hknown⟩ := hknown
  cases afterBlank with
  | false => cases hcr
  | true =>
    rw [List.cons_append, known_cons _ _ (by decide), Bool.and_eq_true] at hknown
    rw [List.cons_append, known_cons _ _ (ne_of_isBlank hc).1, hc, Bool.and_eq_true] at hknown
    obtain ⟨ht, f, r, rfl, hr, hf⟩ := h true t hknown.2.2
    exact ⟨ht, '\r' :: '\n' :: c :: f, r, rfl, hr, .crlf (.blank hc hf)⟩

/-- Whitespace is blanks, some of them with a line break in front. -/
theorem fws_le_units : fws ≤ (wsp + crlf * wsp)∗ := by
  have hwsp : wsp ≤ (wsp + crlf * wsp)∗ := (le_add_of_nonneg_right bot_le).trans le_kstar
  have hline : crlf * plus wsp ≤ (wsp + crlf * wsp)∗ := by
    rw [plus, ← mul_assoc]
    refine mul_le_kstar ((le_add_of_nonneg_left bot_le).trans le_kstar) (kstar_le_kstar hwsp)
  refine add_le ?_ (mul_le_kstar (plus_le hwsp) (kstar_le_kstar hline))
  rw [opt, add_mul, one_mul, mul_assoc]
  exact add_le (plus_le hwsp) (mul_le_kstar (kstar_le_kstar hwsp) hline)

theorem Understood.folding {f s : Str} (hf : f ∈ fws) (h : Understood s) :
    Understood (f ++ s) := by
  obtain ⟨L, rfl, hL⟩ := Language.mem_kstar.mp (fws_le_units hf)
  clear hf
  induction L with
  | nil => exact h
  | cons u L ih =>
    have hrest := ih fun v hv => hL v (List.mem_cons_of_mem u hv)
    rw [List.flatten_cons, List.append_assoc]
    rcases hL u (by simp) with ⟨c, rfl, hc⟩ | hline
    · exact hrest.blank hc
    · obtain ⟨_, rfl, _, ⟨c, rfl, hc⟩, rfl⟩ := Language.mem_mul.mp hline
      exact hrest.crlf hc

theorem isQuotable_of_isVchar {c : Char} (h : isVchar c = true ∨ isBlank c = true)
    (hmark : c ≠ '!') (htilde : c ≠ '~') : IsQuotable c := by
  rcases h with h | h
  · rw [isVchar, Bool.and_eq_true, decide_eq_true_eq, decide_eq_true_eq] at h
    have hlo : c.toNat ≠ 33 := fun h => hmark (Char.toNat_inj.mp h)
    have hhi : c.toNat ≠ 126 := fun h => htilde (Char.toNat_inj.mp h)
    refine .inl ⟨UInt32.lt_iff_toNat_lt.mpr ?_, UInt32.lt_iff_toNat_lt.mpr ?_⟩
    · exact Nat.lt_of_le_of_ne h.1 hlo.symm
    · exact Nat.lt_of_le_of_ne h.2 hhi
  · rw [isBlank, Bool.or_eq_true, beq_iff_eq, beq_iff_eq] at h
    exact .inr h

theorem understood_contents {s : Str} (h : Contents s) : Understood s := by
  induction h with
  | close =>
    refine .of_part rfl rfl fun afterBlank t hknown => ⟨?_, .close⟩
    rw [List.singleton_append, known_cons _ _ (by decide), Bool.and_eq_true] at hknown
    exact hknown.2
  | @ctext c s hc _ ih =>
    rw [← isCommentText_eq c] at hc
    obtain ⟨hquote, hcr, hblank⟩ := isCommentText_ne hc
    refine .of_part hblank (beq_false_of_ne hcr) fun afterBlank t hknown => ?_
    rw [List.cons_append, known_cons _ _ hquote, hblank, Bool.and_eq_true] at hknown
    obtain ⟨ht, hs⟩ := ih.rest hknown.2
    exact ⟨ht, .text hc hs⟩
  | @quotedPair c s hc _ ih =>
    refine .of_part rfl rfl fun afterBlank t hknown => ?_
    rw [List.cons_append, List.cons_append, known_quoted, Bool.and_eq_true, Bool.and_eq_true,
      bne_iff_ne, bne_iff_ne] at hknown
    obtain ⟨ht, hs⟩ := ih.rest hknown.2
    exact ⟨ht, .quoted (isQuotable_of_isVchar hc hknown.1.1 hknown.1.2) hs⟩
  | folding hf _ ih => exact ih.folding hf
  | @comment c s _ _ ih ih' =>
    refine .of_part rfl rfl fun afterBlank t hknown => ?_
    rw [List.cons_append, List.append_assoc, known_cons _ _ (by decide),
      Bool.and_eq_true] at hknown
    obtain ⟨hrest, hc⟩ := ih.rest hknown.2
    obtain ⟨ht, hs⟩ := ih'.rest hrest
    exact ⟨ht, .nested hc hs⟩

/-- **What the parser takes for a comment** are the comments it knows. -/
theorem comment_iff {c : Str} : Comment c ↔ c ∈ anyComment ∧ known false c = true := by
  constructor
  · rintro ⟨s, rfl, hs⟩
    refine ⟨⟨s, rfl, contents_of_commentRest hs⟩, ?_⟩
    have hknown := known_of_commentRest hs [] rfl
    rw [List.append_nil] at hknown
    rw [known_cons _ _ (by decide)]
    exact hknown
  · rintro ⟨⟨s, rfl, hs⟩, hknown⟩
    rw [known_cons _ _ (by decide), Bool.and_eq_true] at hknown
    have hrest := (understood_contents hs).rest (t := [])
    rw [List.append_nil] at hrest
    exact ⟨s, rfl, (hrest hknown.2).2⟩

/-! ## The parser against the rule -/

/-- The parser takes off exactly the comments of a language, and otherwise returns an error. -/
def ReadsComments (l : Language Char) (s : Str) : Prop :=
  (∀ c rest, parseComment s = .ok (c, rest) ↔ s = c ++ rest ∧ c ∈ l) ∧
    ∀ p, parseComment s ≠ .error (.panic p)

theorem readsComments_iff {l : Language Char} (hread : ∀ c, Comment c → c ∈ l)
    (hl : l ≤ anyComment) (s : Str) :
    ReadsComments l s ↔ ∀ c rest, s = c ++ rest → c ∈ l → known false c = true := by
  have hok : ∀ c rest, parseComment s = .ok (c, rest) ↔ s = c ++ rest ∧ Comment c := by
    intro c rest
    rw [reads_comment s c rest]
    constructor
    · rintro ⟨_, hs, rfl, hc⟩
      exact ⟨hs, hc⟩
    · rintro ⟨hs, hc⟩
      exact ⟨c, hs, rfl, hc⟩
  constructor
  · rintro ⟨hreads, -⟩ c rest hs hc
    exact (comment_iff.mp ((hok c rest).mp ((hreads c rest).mpr ⟨hs, hc⟩)).2).2
  · intro hknown
    refine ⟨fun c rest => ?_, sound_comment.safe s⟩
    rw [hok]
    refine and_congr_right fun hs => ⟨hread c, fun hc => ?_⟩
    exact comment_iff.mpr ⟨hl hc, hknown c rest hs hc⟩

/-- **`parse_comment` is exact where it knows the comment** that stands at the front, if one
    does. -/
theorem readsComments_anyComment_iff (s : Str) : ReadsComments anyComment s ↔
    ∀ c rest, s = c ++ rest → c ∈ anyComment → known false c = true :=
  readsComments_iff (fun _ hc => (comment_iff.mp hc).1) le_rfl s

/-- It is so too by the rule that has no whitespace behind whitespace. -/
theorem readsComments_comment_iff (s : Str) : ReadsComments comment s ↔
    ∀ c rest, s = c ++ rest → c ∈ comment → known false c = true :=
  readsComments_iff (fun _ => mem_comment) comment_le s

theorem not_readsComments {c : Str} (hc : c ∈ anyComment) (h : parseComment c = invalid) :
    ¬ ReadsComments anyComment c := by
  rintro ⟨hreads, -⟩
  have hread := (hreads c []).mpr ⟨(List.append_nil c).symm, hc⟩
  rw [h] at hread
  cases hread

/-- `(\!)` is a comment that is not read, and so is one that begins with a line break. -/
theorem comments_unread : ¬ ReadsComments anyComment ['(', '\\', '!', ')'] ∧
    ¬ ReadsComments anyComment ['(', '\r', '\n', ' ', ')'] := by
  have hcrlf : [] ++ ['\r', '\n'] ∈ wsp∗ * crlf :=
    Language.append_mem_mul (Language.nil_mem_kstar wsp) rfl
  have hline : ['\r', '\n'] ++ [' '] ∈ opt (wsp∗ * crlf) * plus wsp :=
    Language.append_mem_mul (mem_opt hcrlf) (mem_plus (mem_char rfl))
  constructor
  · exact not_readsComments ⟨['\\', '!', ')'], rfl, .quotedPair (.inl rfl) .close⟩ (by decide)
  · exact not_readsComments ⟨['\r', '\n', ' ', ')'], rfl, .folding (.inl hline) .close⟩ (by decide)

end Rtsp.Common.Grammar
