import Rtsp.Header.Common.Fields.Year

/-!
# What is read as a time of day

Hour and minute in two digits each, with a colon between them, and seconds if there is
another colon. Comments and whitespace may stand on both sides of a colon.

The second colon is optional, and that is what makes the reading of seconds less than
obvious: `parse_colon` skips what could stand in front of a colon, and if none comes it
returns the string it was given, with nothing skipped. So `NoColon` is about the rest of
the input, of which nothing has been read, and `SecondText` has a case in which the text
is empty. The caller tells the two cases apart by whether the length has changed, which
is sound because a colon takes up room (`Colon.len_ne`).

Like a day, the numbers are not compared with anything: `99:99:99` is read.
-/

namespace Rtsp.Common

open Syntax Lib

/-- A colon, with gaps around it. -/
def Colon (c rest : Str) : Prop :=
  ∃ g g', c = g ++ ':' :: g' ∧ Gap g (':' :: g' ++ rest) ∧ Gap g' rest

/-- There is a gap, but no colon behind it. -/
def NoColon (rest : Str) : Prop :=
  ∃ g x, rest = g ++ x ∧ Gap g x ∧ startsWith (· == ':') x = false

theorem splitAt_colon (t : Str) : splitAt (':' :: t) 1 = .ok ([':'], t) := splitAt_len [':'] t

theorem parseColon_of_colon {c rest : Str} (h : Colon c rest) (isOptional : Bool) :
    parseColon isOptional (c ++ rest) = .ok rest := by
  obtain ⟨g, g', rfl, hg, hg'⟩ := h
  have hfirst := (reads_gap true (g ++ (':' :: g' ++ rest)) g (':' :: g' ++ rest)).mpr
    ⟨g, rfl, rfl, hg, .inl rfl⟩
  have hsecond := (reads_gap true (g' ++ rest) g' rest).mpr ⟨g', rfl, rfl, hg', .inl rfl⟩
  have hcolon : startsWith (· == ':') (':' :: g' ++ rest) = true := rfl
  rw [List.append_assoc, parseColon, hfirst, ok_bind]
  dsimp only
  rw [if_pos hcolon, List.cons_append, splitAt_colon, ok_bind]
  dsimp only
  rw [hsecond]
  rfl

theorem parseColon_of_noColon {s : Str} (h : NoColon s) (isOptional : Bool) :
    parseColon isOptional s = if isOptional then .ok s else invalid := by
  obtain ⟨g, x, rfl, hg, hx⟩ := h
  have hgap := (reads_gap true (g ++ x) g x).mpr ⟨g, rfl, rfl, hg, .inl rfl⟩
  rw [parseColon, hgap, ok_bind]
  dsimp only
  rw [hx, if_neg Bool.false_ne_true]
  rfl

theorem parseColon_outcome (isOptional : Bool) (s : Str) :
    (∃ c rest, s = c ++ rest ∧ Colon c rest) ∨ NoColon s ∨ parseColon isOptional s = invalid := by
  rcases sound_gap true s with ⟨_, g, x, rfl, ⟨rfl, hg, -⟩, hok⟩ | hinvalid
  · by_cases hx : startsWith (· == ':') x = true
    · obtain ⟨d, t, rfl, hd⟩ := startsWith_iff.mp hx
      obtain rfl := beq_iff_eq.mp hd
      rcases sound_gap true t with ⟨_, g', rest, rfl, ⟨rfl, hg', -⟩, -⟩ | hinvalid
      · exact .inl ⟨g ++ ':' :: g', rest, by simp, g, g', rfl, hg, hg'⟩
      · refine .inr (.inr ?_)
        rw [parseColon, hok, ok_bind]
        dsimp only
        rw [if_pos hx, splitAt_colon, ok_bind]
        dsimp only
        rw [hinvalid]
        rfl
    · exact .inr (.inl ⟨g, x, rfl, hg, Bool.eq_false_iff.mpr hx⟩)
  · refine .inr (.inr ?_)
    rw [parseColon, hinvalid]
    rfl

theorem leaves_colon (isOptional : Bool) : Leaves (parseColon isOptional) fun c rest =>
    Colon c rest ∨ isOptional = true ∧ c = [] ∧ NoColon rest := by
  intro s rest
  constructor
  · intro h
    rcases parseColon_outcome isOptional s with ⟨c, t, rfl, hc⟩ | hno | hinvalid
    · rw [parseColon_of_colon hc] at h
      cases h
      exact ⟨c, rfl, .inl hc⟩
    · rw [parseColon_of_noColon hno] at h
      split at h
      · next hopt =>
        cases h
        exact ⟨[], rfl, .inr ⟨hopt, rfl, hno⟩⟩
      · cases h
    · rw [hinvalid] at h
      cases h
  · rintro ⟨c, rfl, hc | ⟨hopt, rfl, hno⟩⟩
    · exact parseColon_of_colon hc isOptional
    · rw [List.nil_append, parseColon_of_noColon hno, if_pos hopt]

theorem parseColon_safe (isOptional : Bool) (s : Str) (p : Panic) :
    parseColon isOptional s ≠ .error (.panic p) := by
  intro h
  rcases parseColon_outcome isOptional s with ⟨c, t, rfl, hc⟩ | hno | hinvalid
  · rw [parseColon_of_colon hc] at h
    cases h
  · rw [parseColon_of_noColon hno] at h
    split at h
    · cases h
    · cases h
  · rw [hinvalid] at h
    cases h

/-- Seconds behind a colon, or no colon. -/
def SecondText : Reading Char (Option Nat) := fun c second rest =>
  (∃ c₁ c₂ n, c = c₁ ++ c₂ ∧ Colon c₁ (c₂ ++ rest) ∧ TwoDigits c₂ n rest ∧ second = some n) ∨
    c = [] ∧ second = none ∧ NoColon rest

/-- A colon takes up room. -/
theorem Colon.len_ne {c rest : Str} (h : Colon c rest) : Str.len (c ++ rest) ≠ Str.len rest := by
  obtain ⟨g, g', rfl, -⟩ := h
  have hpos := Str.len_pos (c := ':') g'
  simp only [Str.len_append]
  omega

theorem sound_second : Sound parseSecond SecondText := by
  intro s
  rcases parseColon_outcome true s with ⟨c, t, rfl, hc⟩ | hno | hinvalid
  · have hcolon := parseColon_of_colon hc true
    rcases sound_twoDigits t with ⟨c', n, rest, rfl, hc', hok⟩ | hinvalid
    · refine .inl ⟨c ++ c', some n, rest, by simp, .inl ⟨c, c', n, rfl, hc, hc', rfl⟩, ?_⟩
      rw [parseSecond, hcolon, ok_bind, if_pos hc.len_ne, hok]
      rfl
    · refine .inr ?_
      rw [parseSecond, hcolon, ok_bind, if_pos hc.len_ne, hinvalid]
      rfl
  · refine .inl ⟨[], none, s, rfl, .inr ⟨rfl, rfl, hno⟩, ?_⟩
    rw [parseSecond, parseColon_of_noColon hno]
    exact if_neg (not_not_intro rfl)
  · refine .inr ?_
    rw [parseSecond, hinvalid]
    rfl

theorem reads_second : Reads parseSecond SecondText := by
  refine sound_second.reads ?_
  rintro c second rest (⟨c₁, c₂, n, rfl, hc₁, hc₂, rfl⟩ | ⟨rfl, rfl, hno⟩)
  · have hdigits := (reads_twoDigits (c₂ ++ rest) n rest).mpr ⟨c₂, rfl, hc₂⟩
    rw [List.append_assoc, parseSecond, parseColon_of_colon hc₁, ok_bind, if_pos hc₁.len_ne,
      hdigits]
    rfl
  · rw [List.nil_append, parseSecond, parseColon_of_noColon hno]
    exact if_neg (not_not_intro rfl)

/-- Hour and minute with a colon between them, and seconds if there is another. -/
def TimeOfDayText : Reading Char (Nat × Nat × Option Nat) :=
  TwoDigits.seq fun hour c time rest => ∃ c₁ c₂, c = c₁ ++ c₂ ∧
    (Colon c₁ (c₂ ++ rest) ∨ false = true ∧ c₁ = [] ∧ NoColon (c₂ ++ rest)) ∧
    (TwoDigits.seq fun minute c time rest =>
      ∃ second, SecondText c second rest ∧ time = (hour, minute, second)) c₂ time rest

theorem reads_timeOfDay : Reads parseTimeOfDay TimeOfDayText :=
  reads_twoDigits.bind fun hour => (leaves_colon false).bind <|
    reads_twoDigits.bind fun minute => reads_second.map fun second => (hour, minute, second)

end Rtsp.Common
