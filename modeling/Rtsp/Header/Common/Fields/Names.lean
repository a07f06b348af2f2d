import Rtsp.Header.Common.Fields.Digits

/-!
# What is read as the name of a day or a month

`parse_day_of_week` and `parse_month` differ in nothing but their table of names, so one
definition with the table for an argument (`parseName`) stands for both, and what is
shown here is for any table.

The functions first ask whether there are three *bytes*, and then split behind the
third. A string of three bytes may well have its third in the middle of a character, and
`str::split_at` panics there. `SplitsCharacter` is that condition with no reference to
the parser, and `parseName_panics_iff` says that nothing else makes it panic. It does
not take much of a string: a letter of two bytes and one of three will do.
-/

namespace Rtsp.Common

open Syntax Lib

/-- Three bytes that are a name in some case. -/
def NameText {α : Type} (names : List (Str × α)) : Reading Char α := fun c a _ =>
  Str.len c = 3 ∧ names.lookup (c.map Char.toLower) = some a

/-- The third byte is there, and is not the last of a character. -/
def SplitsCharacter (s : Str) : Prop := 3 ≤ Str.len s ∧ ∀ a b, s = a ++ b → Str.len a ≠ 3

theorem reads_name {α : Type} (names : List (Str × α)) :
    Reads (parseName names) (NameText names) := by
  intro s a rest
  constructor
  · intro h
    unfold parseName at h
    split at h
    · cases h
    obtain ⟨⟨part1, part2⟩, hsplit, h⟩ := bind_eq_ok h
    obtain ⟨name, hname, h⟩ := bind_eq_ok h
    cases h
    unfold splitAt at hsplit
    cases hstr : Str.splitAt s 3 with
    | error p =>
      rw [hstr] at hsplit
      cases hsplit
    | ok parts =>
      rw [hstr] at hsplit
      cases hsplit
      obtain ⟨hs, hlen⟩ := Str.splitAt_eq_ok_iff.mp hstr
      refine ⟨part1, hs, hlen, ?_⟩
      cases hlookup : names.lookup (part1.map Char.toLower) with
      | none =>
        rw [hlookup] at hname
        cases hname
      | some b =>
        rw [hlookup] at hname
        cases hname
        rfl
  · rintro ⟨c, rfl, hlen, hlookup⟩
    have hsplit : splitAt (c ++ rest) 3 = .ok (c, rest) := by
      rw [← hlen]
      exact splitAt_len c rest
    have hle : ¬ Str.len (c ++ rest) < 3 := by
      rw [Str.len_append, hlen]
      omega
    rw [parseName, if_neg hle, hsplit, ok_bind]
    dsimp only
    rw [hlookup]
    rfl

/-- **A name is split off in the middle of a character, or not at all.** -/
theorem parseName_panics_iff {α : Type} {names : List (Str × α)} {s : Str} :
    (∃ p, parseName names s = .error (.panic p)) ↔ SplitsCharacter s := by
  unfold parseName
  split
  · next hlt =>
    refine iff_of_false ?_ fun h => absurd h.1 (by omega)
    rintro ⟨p, h⟩
    cases h
  · next hlt =>
    unfold splitAt
    cases hsplit : Str.splitAt s 3 with
    | error p =>
      refine iff_of_true ⟨p, rfl⟩ ⟨by omega, fun a b hs hlen => ?_⟩
      rw [Str.splitAt_eq_ok_iff.mpr ⟨hs, hlen⟩] at hsplit
      cases hsplit
    | ok parts =>
      obtain ⟨hs, hlen⟩ := Str.splitAt_eq_ok_iff.mp hsplit
      refine iff_of_false ?_ fun h => h.2 _ _ hs hlen
      rintro ⟨p, h⟩
      rcases bind_eq_error_iff.mp h with h | ⟨r, -, h⟩
      · cases h
      rcases bind_eq_error_iff.mp h with h | ⟨r, -, h⟩
      · cases hlookup : names.lookup (r.1.map Char.toLower) with
        | none =>
          rw [hlookup] at h
          cases h
        | some a =>
          rw [hlookup] at h
          cases h
      · cases h

end Rtsp.Common
