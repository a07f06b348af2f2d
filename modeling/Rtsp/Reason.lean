import Rtsp.Syntax

/-!
# Reason phrases

`reason.rs`: a non-empty text without ASCII control characters other than the tab.

The check runs over characters, once the bytes have been found to be UTF-8, and the
order of the two decides which error is returned. `ReasonPhrase` carries the check as a
field, as the source's type does by having no other constructor. A phrase can begin or
end with blanks and is not trimmed.
-/

namespace Rtsp

open Syntax

inductive ReasonPhraseError where
  | empty
  | invalidAscii
  | invalidUtf8
  deriving DecidableEq

namespace ReasonPhrase

/-- The checks of `ReasonPhrase::try_from`. -/
def check (value : Bytes) : Except ReasonPhraseError Unit :=
  match fromUtf8 value with
  | none => .error .invalidUtf8
  | some chars =>
    if value.isEmpty then .error .empty
    else if chars.any isForbiddenAscii then .error .invalidAscii
    else .ok ()

end ReasonPhrase

structure ReasonPhrase where
  text : Bytes
  valid : ReasonPhrase.check text = .ok ()
  deriving DecidableEq

namespace ReasonPhrase

/-- `ReasonPhrase::try_from` -/
def tryFrom (value : Bytes) : Except ReasonPhraseError ReasonPhrase :=
  match h : check value with
  | .ok () => .ok ⟨value, h⟩
  | .error e => .error e

theorem tryFrom_text (r : ReasonPhrase) : tryFrom r.text = .ok r := by
  unfold tryFrom
  split
  · rfl
  · next e h => rw [r.valid] at h; cases h

theorem tryFrom_eq_ok {value : Bytes} {r : ReasonPhrase} (h : tryFrom value = .ok r) :
    r.text = value := by
  unfold tryFrom at h
  split at h
  · cases h; rfl
  · cases h

/-- A reason phrase stays on its line. -/
theorem cr_not_mem (r : ReasonPhrase) : CR ∉ r.text := by
  intro hcr
  have h := r.valid
  unfold check at h
  split at h
  · cases h
  · next cs hcs =>
    split at h
    · cases h
    · split at h
      · cases h
      · next hany =>
        refine hany (List.any_eq_true.mpr ⟨13, ?_, rfl⟩)
        exact (fromUtf8_spells hcs).mem hcr (by decide)

end ReasonPhrase
end Rtsp
