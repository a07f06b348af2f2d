import Rtsp.Header.Name
import Rtsp.Header.Value

/-!
# Header maps

`header/map.rs`: an ordered multimap from header names to header values. The
map keeps one key for each header, so values of one header all stand under one
spelling of its name; that is the invariant `keyed`. The iteration order is the
order of insertion.

In the code the spelling of a name is kept by the key of the first value, and values
that are appended later go under that key, whatever their name looks like. `key` is that
rule. It is what makes a header come back with a different capitalisation from the one
it was appended with, and `Keyed` is all that has to be known of it.

Looking up, removing and counting are by filters over the list of entries. That costs
time which the multimap does not take, and the order of entries is the same.
-/

namespace Rtsp

/-- Entries under one header have one spelling of its name. -/
def Keyed (entries : List (HeaderName × HeaderValue)) : Prop :=
  ∀ e ∈ entries, ∀ e' ∈ entries, e.1.eqv e'.1 = true → e.1 = e'.1

theorem Keyed.subset {entries entries' : List (HeaderName × HeaderValue)} (h : Keyed entries)
    (hsub : ∀ e ∈ entries', e ∈ entries) : Keyed entries' :=
  fun e he e' he' => h e (hsub e he) e' (hsub e' he')

/-- `ListOrderedMultimap<HeaderName, HeaderValue>`, as its entries in order. -/
structure HeaderMap where
  entries : List (HeaderName × HeaderValue)
  keyed : Keyed entries

/-- A header with a type of its own: how its values are read and written. -/
class TypedHeader (α : Type) (ε : outParam Type) where
  headerName : HeaderName
  decode : List HeaderValue → Except ε (Option α)
  encode : α → List HeaderValue

namespace HeaderMap

@[ext] theorem ext {m m' : HeaderMap} (h : m.entries = m'.entries) : m = m' := by
  cases m
  cases m'
  cases h
  rfl

instance : DecidableEq HeaderMap := fun m m' =>
  decidable_of_iff (m.entries = m'.entries) ⟨ext, congrArg entries⟩

/-- `HeaderMap::default` -/
def empty : HeaderMap := ⟨[], by simp [Keyed]⟩

/-- The key a value is stored under: that of an equal name, if the map has one. -/
def key (m : HeaderMap) (name : HeaderName) : HeaderName :=
  match m.entries.find? (fun e => e.1.eqv name) with
  | some e => e.1
  | none => name

theorem eq_key (m : HeaderMap) {name : HeaderName} {e : HeaderName × HeaderValue}
    (he : e ∈ m.entries) (h : e.1.eqv (m.key name) = true) : e.1 = m.key name := by
  unfold key at h ⊢
  split at h
  · next e' hf => exact m.keyed e he e' (List.mem_of_find?_eq_some hf) h
  · next hf => exact absurd h (by simpa using List.find?_eq_none.mp hf e he)

/-- `append`: the value goes to the end. -/
def append (m : HeaderMap) (name : HeaderName) (value : HeaderValue) : HeaderMap where
  entries := m.entries ++ [(m.key name, value)]
  keyed := by
    intro e he e' he' h
    simp only [List.mem_append, List.mem_singleton] at he he'
    rcases he with he | rfl <;> rcases he' with he' | rfl
    · exact m.keyed e he e' he' h
    · exact m.eq_key he h
    · exact (m.eq_key he' (HeaderName.eqv_comm _ _ ▸ h)).symm
    · rfl

/-- `get_all` -/
def getAll (m : HeaderMap) (name : HeaderName) : List HeaderValue :=
  (m.entries.filter fun e => e.1.eqv name).map (·.2)

/-- `contains_key` -/
def containsKey (m : HeaderMap) (name : HeaderName) : Bool := m.entries.any fun e => e.1.eqv name

def valuesLen (m : HeaderMap) : Nat := m.entries.length

/-- The entries of every other header. -/
def remove (m : HeaderMap) (name : HeaderName) : HeaderMap where
  entries := m.entries.filter fun e => !e.1.eqv name
  keyed := m.keyed.subset fun _ he => (List.mem_filter.mp he).1

/-- `typed_insert`: the first value replaces what was there, the others follow it. A
    header that writes no value leaves the map as it was. -/
def typedInsert {α ε : Type} [TypedHeader α ε] (m : HeaderMap) (header : α) : HeaderMap :=
  match TypedHeader.encode header with
  | [] => m
  | v :: vs =>
    vs.foldl (fun m v => m.append (TypedHeader.headerName α) v)
      ((m.remove (TypedHeader.headerName α)).append (TypedHeader.headerName α) v)

def typedTryGet (α : Type) {ε : Type} [TypedHeader α ε] (m : HeaderMap) : Except ε (Option α) :=
  TypedHeader.decode (m.getAll (TypedHeader.headerName α))

def typedGet (α : Type) {ε : Type} [TypedHeader α ε] (m : HeaderMap) : Option α :=
  match m.typedTryGet α with
  | .ok v => v
  | .error _ => none

theorem append_entries (m : HeaderMap) (name : HeaderName) (value : HeaderValue) :
    (m.append name value).entries = m.entries ++ [(m.key name, value)] := rfl

theorem key_eqv (m : HeaderMap) (name : HeaderName) : (m.key name).eqv name = true := by
  unfold key
  split
  · next e he => simpa using List.find?_some he
  · exact name.eqv_refl

@[simp] theorem getAll_append (m : HeaderMap) (name : HeaderName) (value : HeaderValue) :
    (m.append name value).getAll name = m.getAll name ++ [value] := by
  simp [getAll, append_entries, List.filter_append, m.key_eqv name]

@[simp] theorem getAll_remove (m : HeaderMap) (name : HeaderName) :
    (m.remove name).getAll name = [] := by
  simp [getAll, remove, List.filter_filter]

/-- A name spelled as the map spells it is its own key. -/
theorem key_eq (m : HeaderMap) {name : HeaderName}
    (h : ∀ e ∈ m.entries, e.1.eqv name = true → e.1 = name) : m.key name = name := by
  unfold key
  split
  · next e he => exact h e (List.mem_of_find?_eq_some he) (by simpa using List.find?_some he)
  · rfl

/-- Appending the entries of a map in order builds the map. -/
theorem append_of_keyed (m : HeaderMap) {name : HeaderName} {value : HeaderValue}
    (h : Keyed (m.entries ++ [(name, value)])) :
    (m.append name value).entries = m.entries ++ [(name, value)] := by
  rw [append_entries, m.key_eq]
  intro e he heq
  exact h e (by simp [he]) (name, value) (by simp) heq

end HeaderMap
end Rtsp
