import Mathlib.Data.List.AList

/-!
# Counting the entries of a map

Mathlib's association lists with one entry for each key, as a bag of entries:
looking an entry up and erasing its key takes that entry out and leaves the
others (`perm_cons_erase`); inserting under a new key adds one.

Looking up and erasing are well covered by Mathlib as long as one asks about keys. What
is missing is an account of the entries as a whole: with one entry out and another in,
what is the bag of entries now? As entries have distinct keys, a permutation is the
right equality for it, and sums or counts over all entries follow from it.
-/

namespace Rtsp
namespace Lib

section Keyed

variable {α β : Type}

/-- The entries of a map. -/
def contents (m : AList fun _ : α => β) : List (α × β) := m.entries.map fun e => (e.1, e.2)

@[simp] theorem length_contents (m : AList fun _ : α => β) :
    (contents m).length = m.entries.length := List.length_map _

variable [DecidableEq α]

theorem mem_contents {m : AList fun _ : α => β} {a : α} {b : β} :
    (a, b) ∈ contents m ↔ m.lookup a = some b := by
  rw [← Option.mem_def, AList.mem_lookup_iff]
  constructor
  · intro h
    obtain ⟨⟨a', b'⟩, he, heq⟩ := List.mem_map.mp h
    cases heq
    exact he
  · exact fun h => List.mem_map.mpr ⟨⟨a, b⟩, h, rfl⟩

theorem perm_cons_kerase {l : List (Sigma fun _ : α => β)} {a : α} {b : β}
    (h : (⟨a, b⟩ : Sigma fun _ : α => β) ∈ l) (hl : l.NodupKeys) :
    l.Perm (⟨a, b⟩ :: l.kerase a) := by
  induction l with
  | nil => cases h
  | cons e l ih =>
    obtain ⟨hnot, hnodup⟩ := List.nodupKeys_cons.mp hl
    by_cases hkey : a = e.1
    · rw [List.kerase_cons_eq hkey]
      rcases List.mem_cons.mp h with rfl | hmem
      · exact .refl _
      · exact absurd (List.mem_keys_of_mem hmem) (hkey ▸ hnot)
    · rw [List.kerase_cons_ne hkey]
      have hmem : (⟨a, b⟩ : Sigma fun _ : α => β) ∈ l := by
        rcases List.mem_cons.mp h with rfl | hmem
        · exact absurd rfl hkey
        · exact hmem
      exact ((ih hmem hnodup).cons e).trans (.swap _ _ _)

/-- An entry that is there, and the entries under the other keys. -/
theorem perm_cons_erase {m : AList fun _ : α => β} {a : α} {b : β} (h : m.lookup a = some b) :
    (contents m).Perm ((a, b) :: contents (m.erase a)) :=
  (perm_cons_kerase (AList.mem_lookup_iff.mp h) m.nodupKeys).map _

theorem contents_insert {m : AList fun _ : α => β} {a : α} {b : β} (h : m.lookup a = none) :
    contents (m.insert a b) = (a, b) :: contents m := by
  rw [contents, AList.entries_insert_of_notMem (AList.lookup_eq_none.mp h)]
  rfl

/-- Putting back what was taken out. -/
theorem perm_insert_erase {m : AList fun _ : α => β} {a : α} {b : β} (h : m.lookup a = some b) :
    (contents ((m.erase a).insert a b)).Perm (contents m) := by
  rw [contents_insert (AList.lookup_erase a m)]
  exact (perm_cons_erase h).symm

theorem lookup_insert_erase {m : AList fun _ : α => β} {a : α} {b : β} (h : m.lookup a = some b)
    (c : α) : ((m.erase a).insert a b).lookup c = m.lookup c := by
  by_cases hc : c = a
  · rw [hc, AList.lookup_insert, h]
  · rw [AList.lookup_insert_ne hc, AList.lookup_erase_ne hc]

theorem dlookup_kreplace {l : List (Sigma fun _ : α => β)} {a : α} {b b' : β}
    (h : l.dlookup a = some b) (c : α) :
    (l.kreplace a b').dlookup c = if c = a then some b' else l.dlookup c := by
  induction l with
  | nil => cases h
  | cons e l ih =>
    obtain ⟨k, v⟩ := e
    by_cases hk : a = k
    · have hreplaced : List.kreplace a b' (⟨k, v⟩ :: l) = ⟨a, b'⟩ :: l :=
        List.lookmap_cons_some _ _ (by simp [hk])
      rw [hreplaced]
      by_cases hc : c = a
      · rw [hc, if_pos rfl, List.dlookup_cons_eq]
      · rw [if_neg hc, List.dlookup_cons_ne _ _ hc, List.dlookup_cons_ne _ _ (hk ▸ hc)]
    · have hreplaced : List.kreplace a b' (⟨k, v⟩ :: l) = ⟨k, v⟩ :: List.kreplace a b' l :=
        List.lookmap_cons_none _ _ (by simp [hk])
      rw [List.dlookup_cons_ne _ _ hk] at h
      rw [hreplaced]
      by_cases hc : c = k
      · rw [hc, List.dlookup_cons_eq, List.dlookup_cons_eq, if_neg (Ne.symm hk)]
      · rw [List.dlookup_cons_ne _ _ hc, List.dlookup_cons_ne _ _ hc, ih h]

/-- Replacing the value of a key that is there. -/
theorem lookup_replace {m : AList fun _ : α => β} {a : α} {b b' : β} (h : m.lookup a = some b)
    (c : α) : (m.replace a b').lookup c = if c = a then some b' else m.lookup c :=
  dlookup_kreplace h c

end Keyed

end Lib
end Rtsp
