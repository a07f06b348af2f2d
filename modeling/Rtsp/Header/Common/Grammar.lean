import Rtsp.Header.Common.DateTime
import Rtsp.Lib.Abnf

/-!
# The documented grammar of dates

The rules in the documentation of the `Date` header, less `obs-ctext` and `obs-qp`,
which it says are ignored. What the parser takes for comments, whitespace and names
is what the grammar has (`mem_cfws_of_gap`).

The rules are languages, written with the operators of Mathlib in the order in which the
documentation has them. Nested comments are not regular and are an inductive predicate.
Letters in quotation marks are in any case, which is a rule of the notation.

Where the documentation repeats a rule under another name (`obs-hour` and its like),
there is one definition. Whatever else looks odd is in the documentation: an hour of 99
is in the grammar, and so is the thirty-first of February.
-/

namespace Rtsp.Common.Grammar

open Computability Syntax Lib Lib.Abnf

/-! ## Whitespace and comments -/

def wsp : Language Char := char isBlank

def crlf : Language Char := {['\r', '\n']}

def obsFws : Language Char := plus wsp * (crlf * plus wsp)∗

def fws : Language Char := opt (wsp∗ * crlf) * plus wsp + obsFws

/-- `%d33-39 / %d42-91 / %d93-126` -/
def isCtext (c : Char) : Bool :=
  (33 ≤ c.toNat && c.toNat ≤ 39) || (42 ≤ c.toNat && c.toNat ≤ 91) ||
    (93 ≤ c.toNat && c.toNat ≤ 126)

/-- `%x21-7E` -/
def isVchar (c : Char) : Bool := 33 ≤ c.toNat && c.toNat ≤ 126

/-- `*([FWS] ccontent) [FWS] ")"` -/
inductive CommentEnd : Str → Prop where
  | close {f} : f ∈ opt fws → CommentEnd (f ++ [')'])
  | ctext {f c s} : f ∈ opt fws → isCtext c = true → CommentEnd s → CommentEnd (f ++ c :: s)
  | quotedPair {f c s} : f ∈ opt fws → isVchar c = true ∨ isBlank c = true → CommentEnd s →
      CommentEnd (f ++ '\\' :: c :: s)
  | comment {f c s} : f ∈ opt fws → CommentEnd c → CommentEnd s → CommentEnd (f ++ '(' :: (c ++ s))

def comment : Language Char := {s | ∃ t, s = '(' :: t ∧ CommentEnd t}

def cfws : Language Char := plus (opt fws * comment) * opt fws + fws

/-! ## Dates -/

/-- A literal, in which case does not matter. -/
def literal (t : String) : Language Char := {s | s.map Char.toLower = t.toList.map Char.toLower}

def anyOf (ts : List String) : Language Char := {s | ∃ t ∈ ts, s ∈ literal t}

def comma : Language Char := {[',']}

def colon : Language Char := {[':']}

def digit : Language Char := char Char.isDigit

def dayName : Language Char := anyOf ["Mon", "Tue", "Wed", "Thu", "Fri", "Sat", "Sun"]

def obsDayOfWeek : Language Char := opt cfws * dayName * opt cfws

def dayOfWeek : Language Char := opt fws * dayName + obsDayOfWeek

def obsDay : Language Char := opt cfws * (digit * opt digit) * opt cfws

def day : Language Char := opt fws * (digit * opt digit) * fws + obsDay

def month : Language Char :=
  anyOf ["Jan", "Feb", "Mar", "Apr", "May", "Jun", "Jul", "Aug", "Sep", "Oct", "Nov", "Dec"]

def obsYear : Language Char := opt cfws * (digit * digit * digit∗) * opt cfws

def year : Language Char := fws * (digit * digit * digit * digit * digit∗) * fws + obsYear

def date : Language Char := day * month * year

/-- `obs-hour`, `obs-minute` and `obs-second` -/
def obsTwoDigits : Language Char := opt cfws * (digit * digit) * opt cfws

def hour : Language Char := digit * digit + obsTwoDigits

def minute : Language Char := digit * digit + obsTwoDigits

def second : Language Char := digit * digit + obsTwoDigits

def timeOfDay : Language Char := hour * colon * minute * opt (colon * second)

/-- `%d65-73 / %d75-90 / %d97-105 / %d107-122` -/
def isMilitaryZone (c : Char) : Bool :=
  (65 ≤ c.toNat && c.toNat ≤ 73) || (75 ≤ c.toNat && c.toNat ≤ 90) ||
    (97 ≤ c.toNat && c.toNat ≤ 105) || (107 ≤ c.toNat && c.toNat ≤ 122)

def obsZone : Language Char :=
  anyOf ["UT", "GMT", "EST", "EDT", "CST", "CDT", "MST", "MDT", "PST", "PDT"] + char isMilitaryZone

def isSign (c : Char) : Bool := c == '+' || c == '-'

def zone : Language Char := fws * char isSign * (digit * digit * digit * digit) + obsZone

def time : Language Char := timeOfDay * zone

def dateTime : Language Char := opt (dayOfWeek * comma) * date * time * opt cfws

/-- What stands behind the time of day. -/
def zoneEnd : Language Char := opt cfws * zone * opt cfws

/-! ## What the parser takes for whitespace -/

theorem blanks_of_folding {required : Bool} {f rest : Str} (h : Folding required f rest) :
    f ∈ if required then plus wsp * (crlf * plus wsp)∗ else wsp∗ * (crlf * plus wsp)∗ := by
  induction h with
  | stop _ _ =>
    exact Language.append_mem_mul (Language.nil_mem_kstar wsp) (Language.nil_mem_kstar _)
  | @blank required c s rest hc _ ih =>
    obtain ⟨b, hb, t, ht, rfl⟩ := Language.mem_mul.mp ih
    cases required with
    | true => exact Language.append_mem_mul (append_mem_plus (mem_char hc) hb) ht
    | false => exact Language.append_mem_mul (append_mem_kstar (mem_char hc) hb) ht
  | @crlf s rest _ ih =>
    obtain ⟨b, hb, t, ht, rfl⟩ := Language.mem_mul.mp ih
    have hcrlf : ['\r', '\n'] ∈ crlf := rfl
    have hline : '\r' :: '\n' :: b ∈ crlf * plus wsp := Language.append_mem_mul hcrlf hb
    exact Language.append_mem_mul (Language.nil_mem_kstar wsp) (append_mem_kstar hline ht)

theorem mem_fws {f rest : Str} (h : Fws f rest) : f ∈ fws := by
  obtain ⟨c, s, rfl, hc, hs⟩ := h
  obtain ⟨b, hb, t, ht, rfl⟩ := Language.mem_mul.mp (blanks_of_folding hs)
  exact .inr (Language.append_mem_mul (append_mem_plus (mem_char hc) hb) ht)

theorem not_isBlank_of_folding {required : Bool} {f rest : Str} (h : Folding required f rest) :
    startsWith isBlank rest = false := by
  induction h with
  | stop hblank _ => exact hblank
  | blank _ _ ih => exact ih
  | crlf _ ih => exact ih

/-- Whitespace is read up to where there is no more of it. -/
theorem not_isBlank_of_fws {f rest : Str} (h : Fws f rest) : startsWith isBlank rest = false := by
  obtain ⟨c, s, -, -, hs⟩ := h
  exact not_isBlank_of_folding hs

theorem isBlank_of_fws {f rest : Str} (h : Fws f rest) (t : Str) :
    startsWith isBlank (f ++ t) = true := by
  obtain ⟨c, s, rfl, hc, -⟩ := h
  exact hc

/-- Whitespace is something. -/
theorem ne_nil_of_mem_fws {f : Str} (h : f ∈ fws) : f ≠ [] := by
  have hplus : ∀ {b : Str}, b ∈ plus wsp → b ≠ [] := by
    intro b hb
    obtain ⟨_, ⟨c, rfl, -⟩, t, -, rfl⟩ := Language.mem_mul.mp hb
    exact List.cons_ne_nil c t
  rcases h with h | h
  · obtain ⟨a, -, b, hb, rfl⟩ := Language.mem_mul.mp h
    simp [hplus hb]
  · obtain ⟨b, hb, a, -, rfl⟩ := Language.mem_mul.mp h
    simp [hplus hb]

/-! ## Comments -/

theorem isCommentText_eq (c : Char) : isCommentText c = isCtext c := rfl

theorem isVchar_of_isQuotable {c : Char} (h : IsQuotable c) :
    isVchar c = true ∨ isBlank c = true := by
  rcases h with ⟨hlo, hhi⟩ | rfl | rfl
  · have hlo : 33 < c.toNat := UInt32.lt_iff_toNat_lt.mp hlo
    have hhi : c.toNat < 126 := UInt32.lt_iff_toNat_lt.mp hhi
    refine .inl ?_
    rw [isVchar, Bool.and_eq_true, decide_eq_true_eq, decide_eq_true_eq]
    omega
  · exact .inr rfl
  · exact .inr rfl

/-- What the parser takes for the rest of a comment can have whitespace in front of it. -/
theorem commentEnd_of_rest {s : Str} (h : CommentRest s) :
    CommentEnd s ∧ (startsWith isBlank s = false → ∀ f ∈ fws, CommentEnd (f ++ s)) := by
  have hboth : ∀ {s}, (∀ f ∈ opt fws, CommentEnd (f ++ s)) →
      CommentEnd s ∧ (startsWith isBlank s = false → ∀ f ∈ fws, CommentEnd (f ++ s)) :=
    fun h => ⟨h [] nil_mem_opt, fun _ f hf => h f (mem_opt hf)⟩
  induction h with
  | close => exact hboth fun f hf => .close hf
  | folding hf _ ih =>
    refine ⟨ih.2 (not_isBlank_of_fws hf) _ (mem_fws hf), fun hblank => ?_⟩
    rw [isBlank_of_fws hf] at hblank
    cases hblank
  | nested _ _ ih ih' => exact hboth fun f hf => .comment hf ih.1 ih'.1
  | quoted hc _ ih => exact hboth fun f hf => .quotedPair hf (isVchar_of_isQuotable hc) ih.1
  | @text c _ hc _ ih =>
    rw [isCommentText_eq c] at hc
    exact hboth fun f hf => .ctext hf hc ih.1

theorem mem_comment {c : Str} (h : Comment c) : c ∈ comment := by
  obtain ⟨t, rfl, ht⟩ := h
  exact ⟨t, rfl, (commentEnd_of_rest ht).1⟩

theorem CommentEnd.getLast? {s : Str} (h : CommentEnd s) : s.getLast? = some ')' := by
  induction h with
  | close _ => simp
  | ctext _ _ _ ih => simp [List.getLast?_append, List.getLast?_cons, ih]
  | quotedPair _ _ _ ih => simp [List.getLast?_append, List.getLast?_cons, ih]
  | comment _ _ _ _ ih => simp [List.getLast?_append, List.getLast?_cons, ih]

/-! ## Gaps -/

/-- Comments, each with whitespace in front of it or without. -/
def comments : Language Char := (opt fws * comment)∗

theorem opt_cfws : opt cfws = comments * opt fws := opt_parts

theorem mem_parts_of_gap {g rest : Str} (h : Gap g rest) : g ∈ comments * opt fws ∧
    (startsWith isBlank g = false → ∀ f ∈ fws, f ++ g ∈ comments * opt fws) := by
  induction h with
  | stop _ _ =>
    have hnil : [] ∈ comments := Language.nil_mem_kstar _
    refine ⟨Language.append_mem_mul hnil nil_mem_opt, fun _ f hf => ?_⟩
    rw [List.append_nil]
    exact Language.append_mem_mul hnil (mem_opt hf)
  | @folding f g rest hf _ ih =>
    have hstop : startsWith isBlank g = false := by
      cases g with
      | nil => rfl
      | cons c t =>
        have hstop := not_isBlank_of_fws hf
        exact hstop
    refine ⟨ih.2 hstop f (mem_fws hf), fun hblank => ?_⟩
    rw [isBlank_of_fws hf] at hblank
    cases hblank
  | @comment c g rest hc _ ih =>
    obtain ⟨w, hw, v, hv, rfl⟩ := Language.mem_mul.mp ih.1
    have hpart : ∀ f ∈ opt fws, f ++ (c ++ (w ++ v)) ∈ comments * opt fws := by
      intro f hf
      have hfirst := append_mem_kstar (Language.append_mem_mul hf (mem_comment hc)) hw
      have hall := Language.append_mem_mul hfirst hv
      rwa [List.append_assoc, List.append_assoc] at hall
    exact ⟨hpart [] nil_mem_opt, fun _ f hf => hpart f (mem_opt hf)⟩

/-- **What the parser takes for a gap is `[CFWS]`.** -/
theorem mem_cfws_of_gap {g rest : Str} (h : Gap g rest) : g ∈ opt cfws := by
  rw [opt_cfws]
  exact (mem_parts_of_gap h).1

theorem comments_le : comments ≤ opt cfws := by
  intro w hw
  have h := Language.append_mem_mul hw (nil_mem_opt (l := fws))
  rwa [List.append_nil, ← opt_cfws] at h

theorem getLast?_of_mem_comments {w : Str} (h : w ∈ comments) :
    w = [] ∨ w.getLast? = some ')' := by
  obtain ⟨L, rfl, hL⟩ := Language.mem_kstar.mp h
  clear h
  induction L with
  | nil => exact .inl rfl
  | cons c L ih =>
    obtain ⟨f, -, _, ⟨t, rfl, ht⟩, rfl⟩ := Language.mem_mul.mp (hL c (by simp))
    have hlast := ht.getLast?
    refine .inr ?_
    rcases ih fun d hd => hL d (by simp [hd]) with hnil | hend
    · simp [hnil, List.getLast?_append, List.getLast?_cons, hlast]
    · rw [List.flatten_cons, List.getLast?_append, hend]
      rfl

/-- A gap that does not end with a comment ends with whitespace. -/
theorem mem_cfws_fws {g : Str} (h : g ∈ opt cfws) (hne : g ≠ []) (hlast : g.getLast? ≠ some ')') :
    g ∈ opt cfws * fws := by
  rw [opt_cfws] at h
  obtain ⟨w, hw, v, hv, rfl⟩ := Language.mem_mul.mp h
  rcases mem_opt_iff.mp hv with rfl | hv
  · rw [List.append_nil] at hne hlast
    rcases getLast?_of_mem_comments hw with h | h
    · exact absurd h hne
    · exact absurd h hlast
  · exact Language.append_mem_mul (comments_le hw) hv

end Rtsp.Common.Grammar
