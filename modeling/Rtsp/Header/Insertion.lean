import Rtsp.Header.Types

/-!
# Inserting a typed header

`ExtendWrapper` of `header/map.rs`, which takes the values that a header's
`encode` hands out, in any number of calls of `extend`. The first value replaces
what was there, the others are added behind it. So a header that hands out no
value leaves the old ones in place (`replaces_iff`).

What the entries of the multimap do is up to `ordered_multimap` (`EntryOps`).

`HeaderMap.typedInsert` does what comes of it all in one step. It is not good enough for
a result about the code, since the code's state goes through `Temporary` and back and
could end up there, and since it hands the map to an entry that belongs to another
crate. So the wrapper is here in full, and `insertBatches_encode` ties it to the
function that the rest uses.

How a header groups its values into calls of `extend` is up to the header, hence the
list of batches. An empty batch is possible, and many of them; they change nothing, and
that is exactly the trouble when there is nothing else.
-/

namespace Rtsp

namespace HeaderMap

theorem containsKey_eq_false_iff {m : HeaderMap} {name : HeaderName} :
    m.containsKey name = false ↔ m.getAll name = [] := by
  simp [containsKey, getAll]

theorem remove_append (m : HeaderMap) (name : HeaderName) (value : HeaderValue) :
    (m.append name value).remove name = m.remove name := by
  refine HeaderMap.ext ?_
  simp [remove, append_entries, List.filter_append, m.key_eqv name]

theorem remove_remove (m : HeaderMap) (name : HeaderName) :
    (m.remove name).remove name = m.remove name := by
  refine HeaderMap.ext ?_
  simp [remove, List.filter_filter]

end HeaderMap

/-- What `ordered_multimap` does to the map that an entry borrows. -/
structure EntryOps where
  /-- `OccupiedEntry::insert` -/
  insert : HeaderMap → HeaderName → HeaderValue → HeaderMap
  /-- `OccupiedEntry::append` -/
  append : HeaderMap → HeaderName → HeaderValue → HeaderMap
  /-- `VacantEntry::insert_entry` -/
  insertEntry : HeaderMap → HeaderName → HeaderValue → HeaderMap

namespace EntryOps

/-- What the code relies on: `insert` replaces all values of the key, `append` adds one at the
    end, `insert_entry` creates the key; and none of them touches another key. -/
structure Lawful (ops : EntryOps) : Prop where
  getAll_insert : ∀ {m name} v, m.containsKey name = true →
    (ops.insert m name v).getAll name = [v]
  getAll_append : ∀ {m name} v, m.containsKey name = true →
    (ops.append m name v).getAll name = m.getAll name ++ [v]
  getAll_insertEntry : ∀ {m name} v, m.containsKey name = false →
    (ops.insertEntry m name v).getAll name = [v]
  remove_insert : ∀ {m name} v, m.containsKey name = true →
    (ops.insert m name v).remove name = m.remove name
  remove_append : ∀ {m name} v, m.containsKey name = true →
    (ops.append m name v).remove name = m.remove name
  remove_insertEntry : ∀ {m name} v, m.containsKey name = false →
    (ops.insertEntry m name v).remove name = m.remove name

/-- The operations of a map whose values are all appended. -/
def appending : EntryOps where
  insert m name v := (m.remove name).append name v
  append := .append
  insertEntry := .append

theorem appending_lawful : appending.Lawful where
  getAll_insert v _ := by
    rw [appending, HeaderMap.getAll_append, HeaderMap.getAll_remove]
    rfl
  getAll_append v _ := HeaderMap.getAll_append _ _ v
  getAll_insertEntry v hnone := by
    rw [appending, HeaderMap.getAll_append, HeaderMap.containsKey_eq_false_iff.mp hnone]
    rfl
  remove_insert v _ :=
    (HeaderMap.remove_append _ _ v).trans (HeaderMap.remove_remove _ _)
  remove_append v _ := HeaderMap.remove_append _ _ v
  remove_insertEntry v _ := HeaderMap.remove_append _ _ v

end EntryOps

/-- `ExtendState`, apart from the entry in it. -/
inductive ExtendState where
  | initialOccupied
  | initialVacant
  | rest
  | temporary
  deriving DecidableEq

/-- `ExtendWrapper`, with the map and the key of the entry in its state. -/
structure ExtendWrapper where
  map : HeaderMap
  name : HeaderName
  state : ExtendState

namespace ExtendWrapper

/-- The wrapper that `typed_insert` makes of `self.entry(name)`. -/
def ofEntry (m : HeaderMap) (name : HeaderName) : ExtendWrapper where
  map := m
  name := name
  state := if m.containsKey name then .initialOccupied else .initialVacant

/-- A turn of the loop of `extend`. The state is `Temporary` until the entry is back. -/
def next (ops : EntryOps) (w : ExtendWrapper) (value : HeaderValue) : Rust ExtendWrapper :=
  match w.state with
  | .initialOccupied => .ok { w with map := ops.insert w.map w.name value, state := .rest }
  | .initialVacant => .ok { w with map := ops.insertEntry w.map w.name value, state := .rest }
  | .rest => .ok { w with map := ops.append w.map w.name value, state := .rest }
  | .temporary => .error (.expect "extend state should never become `Temporary`")

/-- `Extend::extend` -/
def extend (ops : EntryOps) (w : ExtendWrapper) (values : List HeaderValue) :
    Rust ExtendWrapper :=
  values.foldlM (next ops) w

end ExtendWrapper

/-- `typed_insert`, of a header whose `encode` calls `extend` with one batch after the other. -/
def HeaderMap.insertBatches (ops : EntryOps) (m : HeaderMap) (name : HeaderName)
    (batches : List (List HeaderValue)) : Rust HeaderMap := do
  let w ← batches.foldlM (ExtendWrapper.extend ops) (.ofEntry m name)
  .ok w.map

/-! ## What the wrapper has done -/

variable {ops : EntryOps} {m : HeaderMap} {name : HeaderName} {w : ExtendWrapper}
  {values : List HeaderValue}

/-- The wrapper once it has been handed these values, of a map that was `m`. -/
structure Inserted (m : HeaderMap) (name : HeaderName) (values : List HeaderValue)
    (w : ExtendWrapper) : Prop where
  sameName : w.name = name
  others : w.map.remove name = m.remove name
  first : values = [] → w = .ofEntry m name
  rest : values ≠ [] → w.state = .rest ∧ w.map.getAll name = values

namespace Inserted

theorem start (m : HeaderMap) (name : HeaderName) : Inserted m name [] (.ofEntry m name) :=
  ⟨rfl, rfl, fun _ => rfl, fun h => absurd rfl h⟩

/-- **A value is taken in**: the first one replaces what was there. -/
theorem next (hops : ops.Lawful) (hw : Inserted m name values w) (v : HeaderValue) :
    ∃ w', w.next ops v = .ok w' ∧ Inserted m name (values ++ [v]) w' := by
  have hne : values ++ [v] ≠ [] := List.append_ne_nil_of_right_ne_nil _ (List.cons_ne_nil v [])
  by_cases hvalues : values = []
  · have hw := hw.first hvalues
    subst hw hvalues
    unfold ExtendWrapper.next ExtendWrapper.ofEntry
    cases hcontains : m.containsKey name with
    | true =>
      exact ⟨_, rfl, rfl, hops.remove_insert v hcontains, fun h => absurd h hne,
        fun _ => ⟨rfl, hops.getAll_insert v hcontains⟩⟩
    | false =>
      exact ⟨_, rfl, rfl, hops.remove_insertEntry v hcontains, fun h => absurd h hne,
        fun _ => ⟨rfl, hops.getAll_insertEntry v hcontains⟩⟩
  · obtain ⟨hstate, hall⟩ := hw.rest hvalues
    have hcontains : w.map.containsKey name = true := by
      rw [← Bool.not_eq_false, HeaderMap.containsKey_eq_false_iff, hall]
      exact hvalues
    rw [← hw.sameName] at hcontains
    unfold ExtendWrapper.next
    rw [hstate]
    refine ⟨_, rfl, hw.sameName, ?_, fun h => absurd h hne, fun _ => ⟨rfl, ?_⟩⟩
    · have hothers := hops.remove_append v hcontains
      rw [hw.sameName] at hothers ⊢
      exact hothers.trans hw.others
    · have happended := hops.getAll_append v hcontains
      rw [hw.sameName] at happended ⊢
      rw [happended, hall]

/-- A call of `extend` takes in a batch. -/
theorem extend (hops : ops.Lawful) (hw : Inserted m name values w) (batch : List HeaderValue) :
    ∃ w', w.extend ops batch = .ok w' ∧ Inserted m name (values ++ batch) w' := by
  induction batch generalizing values w with
  | nil => exact ⟨w, rfl, by rwa [List.append_nil]⟩
  | cons v batch ih =>
    obtain ⟨w₁, hnext, hw₁⟩ := hw.next hops v
    obtain ⟨w', hrest, hw'⟩ := ih hw₁
    refine ⟨w', ?_, by rwa [List.append_assoc] at hw'⟩
    rw [ExtendWrapper.extend, List.foldlM_cons, hnext]
    exact hrest

/-- All calls of `extend` take in all values. -/
theorem extendAll (hops : ops.Lawful) (hw : Inserted m name values w)
    (batches : List (List HeaderValue)) :
    ∃ w', batches.foldlM (ExtendWrapper.extend ops) w = .ok w' ∧
      Inserted m name (values ++ batches.flatten) w' := by
  induction batches generalizing values w with
  | nil => exact ⟨w, rfl, by rwa [List.flatten_nil, List.append_nil]⟩
  | cons batch batches ih =>
    obtain ⟨w₁, hextend, hw₁⟩ := hw.extend hops batch
    obtain ⟨w', hrest, hw'⟩ := ih hw₁
    refine ⟨w', ?_, by rwa [List.flatten_cons, ← List.append_assoc]⟩
    rw [List.foldlM_cons, hextend]
    exact hrest

end Inserted

theorem HeaderMap.remove_of_not_contains (h : m.containsKey name = false) :
    m.remove name = m := by
  refine HeaderMap.ext (List.filter_eq_self.mpr fun e he => ?_)
  have hnone := List.any_eq_false.mp h e he
  simpa using hnone

/-- `typedInsert` is an insertion into a map whose values are all appended. -/
theorem HeaderMap.insertBatches_encode {α ε : Type} [TypedHeader α ε] (m : HeaderMap)
    (header : α) :
    m.insertBatches .appending (TypedHeader.headerName α) [TypedHeader.encode header] =
      .ok (m.typedInsert header) := by
  unfold HeaderMap.typedInsert
  generalize TypedHeader.encode header = values
  generalize TypedHeader.headerName α = name
  -- Behind the first value all others are appended.
  have hrest : ∀ (vs : List HeaderValue) (m : HeaderMap),
      vs.foldlM (ExtendWrapper.next .appending) ⟨m, name, .rest⟩ =
        .ok ⟨vs.foldl (fun m v => m.append name v) m, name, .rest⟩ := fun vs => by
    induction vs with
    | nil => exact fun m => rfl
    | cons v vs ih => exact fun m => ih (m.append name v)
  cases values with
  | nil => rfl
  | cons v vs =>
    have hfirst : (ExtendWrapper.ofEntry m name).next .appending v =
        .ok ⟨(m.remove name).append name v, name, .rest⟩ := by
      unfold ExtendWrapper.next ExtendWrapper.ofEntry
      cases hcontains : m.containsKey name with
      | true => rfl
      | false => rw [HeaderMap.remove_of_not_contains hcontains]; rfl
    have hall : ExtendWrapper.extend .appending (.ofEntry m name) (v :: vs) =
        .ok ⟨vs.foldl (fun m v => m.append name v) ((m.remove name).append name v), name,
          .rest⟩ := by
      rw [ExtendWrapper.extend, List.foldlM_cons, hfirst]
      exact hrest vs _
    rw [HeaderMap.insertBatches, List.foldlM_cons, hall]
    rfl

/-! ## The result -/

/-- What is to hold of an insertion: the values are those of the header and no others, and the
    other headers are as they were. -/
def Replaces (m : HeaderMap) (name : HeaderName) (values : List HeaderValue)
    (result : Rust HeaderMap) : Prop :=
  ∃ m', result = .ok m' ∧ m'.getAll name = values ∧ m'.remove name = m.remove name

/-- **A header with values replaces those that were there**, however it hands them out; one
    without values replaces nothing. In no case does the wrapper panic, or touch another
    header. -/
theorem replaces_iff (hops : ops.Lawful) (m : HeaderMap) (name : HeaderName)
    (batches : List (List HeaderValue)) :
    (∃ m', m.insertBatches ops name batches = .ok m' ∧ m'.remove name = m.remove name) ∧
    (Replaces m name batches.flatten (m.insertBatches ops name batches) ↔
      (∃ batch ∈ batches, batch ≠ []) ∨ m.containsKey name = false) := by
  obtain ⟨w, hrun, hw⟩ := (Inserted.start m name).extendAll hops batches
  rw [List.nil_append] at hw
  have hinsert : m.insertBatches ops name batches = .ok w.map := by
    rw [HeaderMap.insertBatches, hrun]
    rfl
  have hsome : (∃ batch ∈ batches, batch ≠ []) ↔ batches.flatten ≠ [] := by
    simp [List.flatten_eq_nil_iff]
  refine ⟨⟨w.map, hinsert, hw.others⟩, ?_⟩
  rw [hsome]
  constructor
  · rintro ⟨m', hm', hall, -⟩
    rw [hinsert] at hm'
    cases hm'
    by_cases hvalues : batches.flatten = []
    · -- Nothing was handed out, and the old values are there.
      have hfirst := hw.first hvalues
      subst hfirst
      exact .inr (HeaderMap.containsKey_eq_false_iff.mpr (hall.trans hvalues))
    · exact .inl hvalues
  · intro h
    refine ⟨w.map, hinsert, ?_, hw.others⟩
    by_cases hvalues : batches.flatten = []
    · have hnone := h.resolve_left fun hne => hne hvalues
      have hfirst := hw.first hvalues
      subst hfirst
      exact (HeaderMap.containsKey_eq_false_iff.mp hnone).trans hvalues.symm
    · exact (hw.rest hvalues).2

/-- A map with one `Public` header. -/
def publicPlay : HeaderMap := HeaderMap.empty.append (.standard .public) ⟨ascii "PLAY", by decide⟩

/-- Two values in two batches take the place of the one that was there. -/
theorem replaces_iff_batches :
    Replaces publicPlay (.standard .public) [⟨ascii "SETUP", by decide⟩, ⟨ascii "PAUSE", by decide⟩]
      (publicPlay.insertBatches .appending (.standard .public)
        [[⟨ascii "SETUP", by decide⟩], [], [⟨ascii "PAUSE", by decide⟩]]) :=
  (replaces_iff EntryOps.appending_lawful publicPlay (.standard .public) _).2.mpr
    (.inl ⟨_, List.mem_cons_self, List.cons_ne_nil _ _⟩)

/-- A header that hands out no value leaves the one that was there. -/
theorem not_replaces_empty :
    ¬ Replaces publicPlay (.standard .public) []
      (publicPlay.insertBatches .appending (.standard .public) [[]]) := by
  rintro ⟨m', hm', hall, -⟩
  cases hm'
  cases hall

end Rtsp
