import Rtsp.Header.Common.DayName
import Rtsp.Header.Common.Grammar

/-!
# How the grammar divides a date

Comments and whitespace can stand nearly everywhere, and the grammar is ambiguous
about which rule they belong to. Where they begin and end is not: outside of
comments there is only whitespace in them (`Neutral.unique`). So a date of the
grammar is divided in one way into its numbers and names (`Division`).

Well-formedness needs this in one direction. A string that is in the grammar has some
division into the rules, and the parser has its own; for the grammar to say something
about what the parser has read, the two must agree on where the parts are.

`nesting` is neither of the two. It knows parentheses, backslashes and whitespace, and
nothing of lines or rules, and both kinds of gaps can be shown to be neutral for it. A
part that begins with another character then has only one place to begin.

The zone is left out of the division, since there the two need not agree.
-/

namespace Rtsp.Common.Grammar

open Computability Syntax Lib Lib.Abnf

/-- How deep in comments a text ends that begins at a depth. There is no depth where it ends behind
    a backslash, or has something other than whitespace outside of comments. -/
def nesting : Nat → Str → Option Nat
  | depth, [] => some depth
  | 0, c :: s => if c = '(' then nesting 1 s else if isFolding c then nesting 0 s else none
  | depth + 1, c :: s =>
    if c = '(' then nesting (depth + 2) s
    else if c = ')' then nesting depth s
    else if c = '\\' then
      match s with
      | _ :: s => nesting (depth + 1) s
      | [] => none
    else nesting (depth + 1) s

theorem nesting_open (depth : Nat) (s : Str) :
    nesting (depth + 1) ('(' :: s) = nesting (depth + 2) s := by
  rw [nesting.eq_def]
  rfl

theorem nesting_close (depth : Nat) (s : Str) :
    nesting (depth + 1) (')' :: s) = nesting depth s := by
  rw [nesting.eq_def]
  rfl

theorem nesting_quoted (depth : Nat) (c : Char) (s : Str) :
    nesting (depth + 1) ('\\' :: c :: s) = nesting (depth + 1) s := by
  rw [nesting.eq_def]
  rfl

theorem nesting_text (depth : Nat) {c : Char} (s : Str) (hopen : c ≠ '(') (hclose : c ≠ ')')
    (hquote : c ≠ '\\') : nesting (depth + 1) (c :: s) = nesting (depth + 1) s := by
  rw [nesting.eq_def]
  dsimp only
  rw [if_neg hopen, if_neg hclose, if_neg hquote]

theorem nesting_append {depth depth' : Nat} {s : Str} (h : nesting depth s = some depth')
    (t : Str) : nesting depth (s ++ t) = nesting depth' t := by
  fun_induction nesting depth s with
  | case1 depth =>
    cases h
    rfl
  | case2 s ih => exact ih h
  | case3 c s hopen hfold ih =>
    rw [List.cons_append, nesting, if_neg hopen, if_pos hfold]
    exact ih h
  | case4 => cases h
  | case5 depth s ih =>
    rw [List.cons_append, Nat.succ_eq_add_one, nesting_open]
    exact ih h
  | case6 depth s _ ih =>
    rw [List.cons_append, Nat.succ_eq_add_one, nesting_close]
    exact ih h
  | case7 depth c s _ _ ih =>
    rw [List.cons_append, List.cons_append, Nat.succ_eq_add_one, nesting_quoted]
    exact ih h
  | case8 => cases h
  | case9 depth c s hopen hclose hquote ih =>
    rw [List.cons_append, Nat.succ_eq_add_one, nesting_text depth _ hopen hclose hquote]
    exact ih h

/-- Comments are closed, and outside of them is whitespace. -/
def Neutral (g : Str) : Prop := nesting 0 g = some 0

theorem Neutral.append {g g' : Str} (h : Neutral g) (h' : Neutral g') : Neutral (g ++ g') :=
  (nesting_append h g').trans h'

/-- Outside of comments a text goes on with nothing else. -/
theorem nesting_eq_none {c : Char} (h : opensGap c = false) (s : Str) :
    nesting 0 (c :: s) = none := by
  rw [opensGap, Bool.or_eq_false_iff, beq_eq_false_iff_ne] at h
  rw [nesting, if_neg h.1, if_neg (Bool.eq_false_iff.mp h.2)]

theorem Neutral.startsWith_of_ne_nil {g : Str} (h : Neutral g) (hne : g ≠ []) {p : Char → Bool}
    (hp : ∀ c, p c = true → opensGap c = false) (t : Str) : startsWith p (g ++ t) = false := by
  obtain ⟨c, g, rfl⟩ := List.exists_cons_of_ne_nil hne
  refine Bool.eq_false_iff.mpr fun hc => ?_
  rw [Neutral, nesting_eq_none (hp c hc)] at h
  cases h

theorem Neutral.startsWith {g t : Str} (h : Neutral g) {p : Char → Bool}
    (hp : ∀ c, p c = true → opensGap c = false) (ht : startsWith p t = false) :
    Common.startsWith p (g ++ t) = false := by
  by_cases hne : g = []
  · rwa [hne]
  · exact h.startsWith_of_ne_nil hne hp t

/-- **A gap ends where something else begins**, whichever way it is taken apart. -/
theorem Neutral.unique {g g' t t' : Str} (hg : Neutral g) (hg' : Neutral g') (h : g ++ t = g' ++ t')
    (ht : Common.startsWith opensGap t = false) (ht' : Common.startsWith opensGap t' = false) :
    g = g' ∧ t = t' := by
  have hend : ∀ {g a t : Str}, Neutral g → Neutral (g ++ a) →
      Common.startsWith opensGap (a ++ t) = false → a = [] := by
    intro g a t hg hga hat
    cases a with
    | nil => rfl
    | cons c a =>
      have hnone := nesting_eq_none hat a
      rw [Neutral, nesting_append hg, hnone] at hga
      cases hga
  rcases List.append_eq_append_iff.mp h with ⟨a, rfl, rfl⟩ | ⟨a, rfl, rfl⟩
  · obtain rfl := hend hg hg' ht
    simp
  · obtain rfl := hend hg' hg ht'
    simp

/-- Nor does a run of characters end anywhere else than before another. -/
theorem run_unique {p : Char → Bool} {c c' t t' : Str} (h : c ++ t = c' ++ t')
    (hc : ∀ x ∈ c, p x = true) (hc' : ∀ x ∈ c', p x = true) (ht : startsWith p t = false)
    (ht' : startsWith p t' = false) : c = c' ∧ t = t' := by
  have hend : ∀ {c a t : Str}, (∀ x ∈ c ++ a, p x = true) → startsWith p (a ++ t) = false →
      a = [] := by
    intro c a t hca hat
    cases a with
    | nil => rfl
    | cons x a => exact absurd (hca x (by simp)) (Bool.eq_false_iff.mp hat)
  rcases List.append_eq_append_iff.mp h with ⟨a, rfl, rfl⟩ | ⟨a, rfl, rfl⟩
  · obtain rfl := hend hc' ht
    simp
  · obtain rfl := hend hc ht'
    simp

/-! ## What is neutral -/

theorem nesting_folding {f : Str} (h : ∀ c ∈ f, isFolding c = true) (depth : Nat) :
    nesting depth f = some depth := by
  induction f with
  | nil => cases depth <;> rfl
  | cons c f ih =>
    have hc := h c (by simp)
    have hf := ih fun d hd => h d (List.mem_cons_of_mem c hd)
    have hne : c ≠ '(' ∧ c ≠ ')' ∧ c ≠ '\\' := by
      refine ⟨?_, ?_, ?_⟩
      all_goals
        rintro rfl
        cases hc
    cases depth with
    | zero => rw [nesting, if_neg hne.1, if_pos hc, hf]
    | succ depth => rw [nesting_text depth f hne.1 hne.2.1 hne.2.2, hf]

theorem fws_le : fws ≤ (char isFolding)∗ := by
  have hwsp : wsp ≤ (char isFolding)∗ := char_le fun c hc => by simp [isFolding, hc]
  have hcrlf : crlf ≤ (char isFolding)∗ := by
    rintro s rfl
    exact mem_kstar_char (List.all_eq_true.mp rfl)
  have hline := mul_le_kstar hcrlf (plus_le hwsp)
  refine add_le (mul_le_kstar (opt_le (mul_le_kstar (kstar_le_kstar hwsp) hcrlf)) (plus_le hwsp)) ?_
  exact mul_le_kstar (plus_le hwsp) (kstar_le_kstar hline)

theorem nesting_fws {f : Str} (h : f ∈ opt fws) (depth : Nat) : nesting depth f = some depth := by
  have hfolding : f ∈ (char isFolding)∗ := opt_le fws_le h
  exact nesting_folding (forall_of_mem_kstar_char hfolding) depth

theorem isCtext_ne {c : Char} (h : isCtext c = true) : c ≠ '(' ∧ c ≠ ')' ∧ c ≠ '\\' := by
  refine ⟨?_, ?_, ?_⟩
  all_goals
    rintro rfl
    cases h

/-- A comment is left where it was entered. -/
theorem CommentEnd.nesting {s : Str} (h : CommentEnd s) (depth : Nat) :
    nesting (depth + 1) s = some depth := by
  induction h generalizing depth with
  | @close f hf => rw [nesting_append (nesting_fws hf _), nesting_close, Grammar.nesting]
  | @ctext f c s hf hc _ ih =>
    obtain ⟨hopen, hclose, hquote⟩ := isCtext_ne hc
    rw [nesting_append (nesting_fws hf _), nesting_text depth s hopen hclose hquote, ih]
  | @quotedPair f c s hf _ _ ih =>
    rw [nesting_append (nesting_fws hf _), nesting_quoted, ih]
  | @comment f c s hf _ _ ih ih' =>
    rw [nesting_append (nesting_fws hf _), nesting_open, nesting_append (ih (depth + 1)), ih']

def neutral : Language Char := {g | Neutral g}

theorem neutral_closed : neutral∗ ≤ neutral := by
  refine kstar_le_of_mul_le_left ?_ ?_
  · rintro g rfl
    exact (rfl : nesting 0 [] = some 0)
  · intro x hx
    obtain ⟨g, hg, g', hg', rfl⟩ := Language.mem_mul.mp hx
    exact Neutral.append hg hg'

theorem neutral_of_cfws {g : Str} (h : g ∈ opt cfws) : Neutral g := by
  have hfws : fws ≤ neutral∗ := fun f hf => mem_kstar (nesting_fws (mem_opt hf) 0)
  have hcomment : comment ≤ neutral∗ := by
    rintro _ ⟨t, rfl, ht⟩
    exact mem_kstar (ht.nesting 0)
  have hle : opt cfws ≤ neutral∗ := by
    rw [opt_cfws]
    exact mul_le_kstar (kstar_le_kstar (mul_le_kstar (opt_le hfws) hcomment)) (opt_le hfws)
  exact neutral_closed (hle h)

theorem neutral_of_fws {g : Str} (h : g ∈ fws) : Neutral g := nesting_fws (mem_opt h) 0

/-! ## The parts of a date -/

/-- Up to the day, which is a number that ends here. -/
def ToDay (s t : Str) : Prop := ∃ d, d ≠ [] ∧ (∀ c ∈ d, c.isDigit = true) ∧
  startsWith Char.isDigit t = false ∧
  ((∃ g, s = g ++ (d ++ t) ∧ Neutral g) ∨
    ∃ g n g₁ g₂, s = g ++ (n ++ (g₁ ++ ',' :: (g₂ ++ (d ++ t)))) ∧ Neutral g ∧ n ∈ dayName ∧
      Neutral g₁ ∧ Neutral g₂)

/-- Up to the month. -/
def ToMonth (s t : Str) : Prop := ∃ g m, s = g ++ (m ++ t) ∧ Neutral g ∧ m ∈ month

/-- Up to the hour, which has a colon behind it. -/
def ToHour (s t : Str) : Prop := ∃ g y g' h, s = g ++ (y ++ (g' ++ (h ++ t))) ∧ Neutral g ∧ y ≠ [] ∧
  (∀ c ∈ y, c.isDigit = true) ∧ Neutral g' ∧ h ∈ digit * digit ∧
  ∃ g'' u, t = g'' ++ ':' :: u ∧ Neutral g''

/-- Up to the number behind a colon. -/
def ToNumber (s t : Str) : Prop := ∃ g g' m, s = g ++ ':' :: (g' ++ (m ++ t)) ∧ Neutral g ∧
  Neutral g' ∧ m ∈ digit * digit

/-- A date that is divided behind the time of day. -/
def Division (s x : Str) : Prop := ∃ s₁ s₂ s₃ s₄, ToDay s s₁ ∧ ToMonth s₁ s₂ ∧ ToHour s₂ s₃ ∧
  ToNumber s₃ s₄ ∧ (ToNumber s₄ x ∨ s₄ = x)

theorem opt_fws_le : opt fws ≤ opt cfws := by
  intro f hf
  rw [opt_cfws]
  exact Language.append_mem_mul (Language.nil_mem_kstar _) hf

theorem exists_surrounded {l : Language Char} {s : Str} (h : s ∈ opt cfws * l * opt cfws) :
    ∃ g c g', s = g ++ (c ++ g') ∧ Neutral g ∧ c ∈ l ∧ g' ∈ opt cfws := by
  obtain ⟨_, hfirst, g', hg', rfl⟩ := Language.mem_mul.mp h
  obtain ⟨g, hg, c, hc, rfl⟩ := Language.mem_mul.mp hfirst
  exact ⟨g, c, g', List.append_assoc .., neutral_of_cfws hg, hc, hg'⟩

theorem exists_dayOfWeek {s : Str} (h : s ∈ dayOfWeek) :
    ∃ g n g', s = g ++ (n ++ g') ∧ Neutral g ∧ n ∈ dayName ∧ Neutral g' := by
  rcases h with h | h
  · obtain ⟨f, hf, n, hn, rfl⟩ := Language.mem_mul.mp h
    exact ⟨f, n, [], by simp, neutral_of_cfws (opt_fws_le hf), hn, rfl⟩
  · obtain ⟨g, n, g', hs, hg, hn, hg'⟩ := exists_surrounded h
    exact ⟨g, n, g', hs, hg, hn, neutral_of_cfws hg'⟩

/-- A rule with whitespace where `[CFWS]` could be. -/
theorem surrounded_of_fws {l : Language Char} {s : Str} (h : s ∈ opt fws * l * fws) :
    s ∈ opt cfws * l * opt cfws := by
  obtain ⟨_, hfirst, f', hf', rfl⟩ := Language.mem_mul.mp h
  obtain ⟨f, hf, c, hc, rfl⟩ := Language.mem_mul.mp hfirst
  exact Language.append_mem_mul (Language.append_mem_mul (opt_fws_le hf) hc)
    (opt_fws_le (mem_opt hf'))

theorem digits_of_mem {l : Language Char} (hl : l ≤ digit∗) {y : Str} (h : y ∈ digit * l) :
    y ≠ [] ∧ ∀ c ∈ y, c.isDigit = true := by
  obtain ⟨_, ⟨d, rfl, hd⟩, t, ht, rfl⟩ := Language.mem_mul.mp h
  exact ⟨List.cons_ne_nil d t, forall_of_mem_plus_char (append_mem_plus (mem_char hd) (hl ht))⟩

theorem digit_le : digit ≤ digit∗ := le_kstar

theorem exists_day {s : Str} (h : s ∈ day) : ∃ g d g', s = g ++ (d ++ g') ∧ Neutral g ∧
    (d ≠ [] ∧ ∀ c ∈ d, c.isDigit = true) ∧ Neutral g' := by
  obtain ⟨g, d, g', hs, hg, hd, hg'⟩ := exists_surrounded (h.elim surrounded_of_fws id)
  exact ⟨g, d, g', hs, hg, digits_of_mem (opt_le digit_le) hd, neutral_of_cfws hg'⟩

theorem exists_year {s : Str} (h : s ∈ year) : ∃ g y g', s = g ++ (y ++ g') ∧ Neutral g ∧
    (y ≠ [] ∧ ∀ c ∈ y, c.isDigit = true) ∧ Neutral g' := by
  have htwo : digit * digit∗ ≤ digit∗ := plus_le_kstar
  rcases h with h | h
  · obtain ⟨_, hfirst, f', hf', rfl⟩ := Language.mem_mul.mp h
    obtain ⟨f, hf, y, hy, rfl⟩ := Language.mem_mul.mp hfirst
    rw [mul_assoc, mul_assoc, mul_assoc] at hy
    exact ⟨f, y, f', List.append_assoc .., neutral_of_fws hf,
      digits_of_mem (mul_le_kstar digit_le (mul_le_kstar digit_le htwo)) hy, neutral_of_fws hf'⟩
  · obtain ⟨g, y, g', hs, hg, hy, hg'⟩ := exists_surrounded h
    rw [mul_assoc] at hy
    exact ⟨g, y, g', hs, hg, digits_of_mem htwo hy, neutral_of_cfws hg'⟩

theorem exists_twoDigits {s : Str} (h : s ∈ digit * digit + obsTwoDigits) :
    ∃ g c g', s = g ++ (c ++ g') ∧ Neutral g ∧ c ∈ digit * digit ∧ g' ∈ opt cfws := by
  rcases h with h | h
  · exact ⟨[], s, [], by simp, rfl, h, nil_mem_opt⟩
  · exact exists_surrounded h

theorem name_of_anyOf {ts : List String}
    (hts : (ts.all fun t => t.toList.all Char.isAlpha) = true) {s : Str} (h : s ∈ anyOf ts) :
    (∀ c ∈ s, c.isAlpha = true) ∧ ∃ t ∈ ts, s.length = t.toList.length := by
  simp only [List.all_eq_true] at hts
  obtain ⟨t, ht, hs⟩ := h
  refine ⟨fun c hc => ?_, t, ht, ?_⟩
  · have hlower : c.toLower ∈ t.toList.map Char.toLower := hs ▸ List.mem_map.mpr ⟨c, hc, rfl⟩
    obtain ⟨d, hd, heq⟩ := List.mem_map.mp hlower
    apply isAlpha_of_toLower
    rw [← heq]
    exact Str.isAlpha_toLower (hts t ht d hd)
  · have hlen := congrArg List.length hs
    rwa [List.length_map, List.length_map] at hlen

/-- Three letters. -/
theorem name_of_mem_month {m : Str} (h : m ∈ month) :
    (∀ c ∈ m, c.isAlpha = true) ∧ m.length = 3 := by
  obtain ⟨halpha, t, ht, hlen⟩ := name_of_anyOf rfl h
  refine ⟨halpha, hlen.trans ?_⟩
  clear hlen
  revert t
  decide

theorem exists_date {s : Str} (h : s ∈ date) : ∃ g₀ d g₁ m g₂ y g₃,
    s = g₀ ++ (d ++ (g₁ ++ (m ++ (g₂ ++ (y ++ g₃))))) ∧ Neutral g₀ ∧
      (d ≠ [] ∧ ∀ c ∈ d, c.isDigit = true) ∧ Neutral g₁ ∧ m ∈ month ∧ Neutral g₂ ∧
      (y ≠ [] ∧ ∀ c ∈ y, c.isDigit = true) ∧ Neutral g₃ := by
  obtain ⟨_, hfirst, _, hyear, rfl⟩ := Language.mem_mul.mp h
  obtain ⟨_, hday, m, hm, rfl⟩ := Language.mem_mul.mp hfirst
  obtain ⟨g₀, d, g₁, rfl, hg₀, hd, hg₁⟩ := exists_day hday
  obtain ⟨g₂, y, g₃, rfl, hg₂, hy, hg₃⟩ := exists_year hyear
  exact ⟨g₀, d, g₁, m, g₂, y, g₃, by simp, hg₀, hd, hg₁, hm, hg₂, hy, hg₃⟩

theorem exists_timeOfDay {s : Str} (h : s ∈ timeOfDay) : ∃ g hh g₁ g₂ mm p e,
    s = g ++ (hh ++ (g₁ ++ ':' :: (g₂ ++ (mm ++ (p ++ e))))) ∧ Neutral g ∧ hh ∈ digit * digit ∧
      Neutral g₁ ∧ Neutral g₂ ∧ mm ∈ digit * digit ∧ p ∈ opt cfws ∧ e ∈ opt (colon * second) := by
  obtain ⟨_, hfirst, e, he, rfl⟩ := Language.mem_mul.mp h
  obtain ⟨_, hfront, _, hminute, rfl⟩ := Language.mem_mul.mp hfirst
  obtain ⟨_, hhour, _, rfl, rfl⟩ := Language.mem_mul.mp hfront
  obtain ⟨g, hh, g₁, rfl, hg, hhh, hg₁⟩ := exists_twoDigits hhour
  obtain ⟨g₂, mm, p, rfl, hg₂, hmm, hp⟩ := exists_twoDigits hminute
  exact ⟨g, hh, g₁, g₂, mm, p, e, by simp, hg, hhh, neutral_of_cfws hg₁, hg₂, hmm, hp, he⟩

/-- Behind the minute is the zone, or the second is in front of it. -/
theorem exists_tail {p e z r : Str} (hp : p ∈ opt cfws) (he : e ∈ opt (colon * second))
    (hz : z ∈ zone) (hr : r ∈ opt cfws) :
    ∃ x ∈ zoneEnd, ToNumber (p ++ (e ++ (z ++ r))) x ∨ p ++ (e ++ (z ++ r)) = x := by
  have hend : ∀ {p}, p ∈ opt cfws → p ++ (z ++ r) ∈ zoneEnd := by
    intro p hp
    rw [← List.append_assoc]
    exact Language.append_mem_mul (Language.append_mem_mul hp hz) hr
  rcases mem_opt_iff.mp he with rfl | he
  · exact ⟨p ++ (z ++ r), hend hp, .inr rfl⟩
  · obtain ⟨_, rfl, _, hsecond, rfl⟩ := Language.mem_mul.mp he
    obtain ⟨g, ss, p', rfl, hg, hss, hp'⟩ := exists_twoDigits hsecond
    refine ⟨p' ++ (z ++ r), hend hp', .inl ⟨p, g, ss, ?_, neutral_of_cfws hp, hg, hss⟩⟩
    simp only [List.append_assoc, List.cons_append, List.nil_append]

/-- Behind a day there is no other digit. -/
theorem not_isDigit_of_month {g m : Str} (hg : Neutral g) (hm : m ∈ month) (t : Str) :
    startsWith Char.isDigit (g ++ (m ++ t)) = false := by
  apply hg.startsWith fun _ => not_opensGap_of_isDigit
  obtain ⟨halpha, hlen⟩ := name_of_mem_month hm
  match m with
  | c :: m =>
    refine Bool.eq_false_iff.mpr fun hdigit => ?_
    have hc := halpha c (by simp)
    rw [not_isAlpha_of_isDigit hdigit] at hc
    cases hc

/-- **A date of the grammar can be divided.** -/
theorem exists_division {s : Str} (h : s ∈ dateTime) : ∃ x ∈ zoneEnd, Division s x := by
  obtain ⟨_, h₁, r, hr, rfl⟩ := Language.mem_mul.mp h
  obtain ⟨_, h₂, _, htime, rfl⟩ := Language.mem_mul.mp h₁
  obtain ⟨o, ho, _, hdate, rfl⟩ := Language.mem_mul.mp h₂
  obtain ⟨_, htimeOfDay, z, hz, rfl⟩ := Language.mem_mul.mp htime
  obtain ⟨g₀, d, g₁, m, g₂, y, g₃, rfl, hg₀, ⟨hne, hd⟩, hg₁, hm, hg₂, ⟨hyne, hy⟩, hg₃⟩ :=
    exists_date hdate
  obtain ⟨g₄, hh, g₅, g₆, mm, p, e, rfl, hg₄, hhh, hg₅, hg₆, hmm, hp, he⟩ :=
    exists_timeOfDay htimeOfDay
  obtain ⟨x, hx, htail⟩ := exists_tail hp he hz hr
  generalize hs₄ : p ++ (e ++ (z ++ r)) = s₄ at htail
  have hs₃ : ToNumber (g₅ ++ ':' :: (g₆ ++ (mm ++ s₄))) s₄ := ⟨g₅, g₆, mm, rfl, hg₅, hg₆, hmm⟩
  have hs₂ : ToHour (g₂ ++ (y ++ ((g₃ ++ g₄) ++ (hh ++ (g₅ ++ ':' :: (g₆ ++ (mm ++ s₄)))))))
      (g₅ ++ ':' :: (g₆ ++ (mm ++ s₄))) :=
    ⟨g₂, y, g₃ ++ g₄, hh, rfl, hg₂, hyne, hy, hg₃.append hg₄, hhh, g₅, _, rfl, hg₅⟩
  refine ⟨x, hx, _, _, _, s₄, ⟨d, hne, hd, not_isDigit_of_month hg₁ hm _, ?_⟩,
    ⟨g₁, m, rfl, hg₁, hm⟩, hs₂, hs₃, htail⟩
  rw [← hs₄]
  rcases mem_opt_iff.mp ho with rfl | ho
  · refine .inl ⟨g₀, ?_, hg₀⟩
    simp only [List.append_assoc, List.cons_append, List.nil_append]
  · obtain ⟨_, hname, _, rfl, rfl⟩ := Language.mem_mul.mp ho
    obtain ⟨g, n, g', rfl, hg, hn, hg'⟩ := exists_dayOfWeek hname
    refine .inr ⟨g, n, g', g₀, ?_, hg, hn, hg', hg₀⟩
    simp only [List.append_assoc, List.cons_append, List.nil_append]

end Rtsp.Common.Grammar
