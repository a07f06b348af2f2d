import Mathlib.Data.Bool.AllAny
import Rtsp.Header.Map
import Rtsp.Header.RangeFormat
import Rtsp.Method
import Rtsp.Whitespace

/-!
# `Accept-Ranges` and `Public`

`header/types/accept_ranges.rs` and `header/types/public.rs`. Both are a set of
names in one order, written as one list with commas. They are read part by part,
and a part that is no name is an error: a list without a part cannot be written
that way. So a set is read back unless it is empty (`lists_roundTrip_iff`); the
answer of the server to `SETUP` has an empty one.

Where an element goes that is inserted once more is up to `LinkedHashSet`
(`LinkedHashSetOps`).

The two headers differ in what they list, and in the errors. Both decoders insert into
the set while they read, so a name that is listed twice is in the set once; where it
stands then is the set's business and is left open. For reading back what was written it
does not matter, as no name of a set is listed twice.

The empty set is written as one value without a character in it. Read part by part that
is one part, and an empty part is no name. Whether the grammar would allow the header to
be empty is not asked here: what counts is that the library cannot read what it sends.
-/

namespace Rtsp

open Syntax

/-- `LinkedHashSet`: the elements in the order of the links. -/
structure LinkedHashSet (α : Type) where
  elements : List α
  nodup : elements.Nodup

namespace LinkedHashSet

variable {α : Type}

@[ext] theorem ext {s s' : LinkedHashSet α} (h : s.elements = s'.elements) : s = s' := by
  cases s
  cases s'
  cases h
  rfl

/-- `LinkedHashSet::new` -/
def empty : LinkedHashSet α := ⟨[], List.nodup_nil⟩

end LinkedHashSet

/-- `LinkedHashSet::insert` -/
class LinkedHashSetOps where
  insert {α : Type} [DecidableEq α] : LinkedHashSet α → α → LinkedHashSet α

namespace LinkedHashSetOps

/-- What is documented of it: an element that was not in the set is at its end. -/
structure Lawful [LinkedHashSetOps] : Prop where
  insert_new : ∀ {α : Type} [DecidableEq α] (s : LinkedHashSet α) (a : α), a ∉ s.elements →
    (insert s a).elements = s.elements ++ [a]

/-- An element that is inserted once more stays where it is. -/
@[reducible] def keeping : LinkedHashSetOps where
  insert s a :=
    if h : a ∈ s.elements then s
    else ⟨s.elements ++ [a], List.nodup_append.mpr
      ⟨s.nodup, by simp, fun x hx y hy hxy => h (List.mem_singleton.mp hy ▸ hxy ▸ hx)⟩⟩

theorem keeping_lawful : @Lawful keeping := by
  refine @Lawful.mk keeping ?_
  intro α _ s a h
  show (if h : a ∈ s.elements then s else _).elements = _
  rw [dif_neg h]

/-- What is documented of it as well: it adds the element, and no other. -/
structure Adds [LinkedHashSetOps] : Prop where
  mem_insert : ∀ {α : Type} [DecidableEq α] (s : LinkedHashSet α) (a x : α),
    x ∈ (insert s a).elements ↔ x ∈ s.elements ∨ x = a

theorem keeping_adds : @Adds keeping := by
  refine @Adds.mk keeping ?_
  intro α _ s a x
  show x ∈ (if h : a ∈ s.elements then s else _).elements ↔ _
  split
  · next ha =>
    refine ⟨.inl, ?_⟩
    rintro (hx | rfl)
    · exact hx
    · exact ha
  · rw [List.mem_append, List.mem_singleton]

end LinkedHashSetOps

/-! ## Lists with commas -/

/-- `join(", ")` -/
def join (names : List Bytes) : Bytes := (ascii ", ").intercalate names

theorem mem_join {names : List Bytes} {b : Byte} (h : b ∈ join names) :
    b ∈ ascii ", " ∨ ∃ name ∈ names, b ∈ name := by
  induction names with
  | nil => cases h
  | cons name names ih =>
    cases names with
    | nil => exact .inr ⟨name, by simp, by simpa [join] using h⟩
    | cons name' names =>
      rw [join, List.intercalate_cons_cons, List.mem_append, List.mem_append] at h
      rcases h with (h | h) | h
      · exact .inr ⟨name, by simp, h⟩
      · exact .inl h
      · rcases ih h with h | ⟨n, hn, hb⟩
        · exact .inl h
        · exact .inr ⟨n, List.mem_cons_of_mem _ hn, hb⟩

theorem printable_join {names : List Bytes} (h : ∀ name ∈ names, isToken name = true) :
    ∀ b ∈ join names, 32 ≤ b.toNat ∧ b.toNat ≤ 126 := by
  intro b hb
  rcases mem_join hb with hb | ⟨name, hname, hb⟩
  · have hsep : ∀ b ∈ ascii ", ", 32 ≤ b.toNat ∧ b.toNat ≤ 126 :=
      List.all_iff_forall_prop.mp rfl
    exact hsep b hb
  · exact printable_of_isToken (h name hname) b hb

/-- `TypedHeader::encode` of either header: the value is made without a check, and is one. -/
def encodeList {α : Type} (asStr : α → Bytes) (htoken : ∀ a, isToken (asStr a) = true)
    (s : LinkedHashSet α) : List HeaderValue :=
  [⟨join (s.elements.map asStr), HeaderValue.check_printable (printable_join fun name hname => by
    obtain ⟨a, -, rfl⟩ := List.mem_map.mp hname
    exact htoken a)⟩]

section Lists

variable [LinkedHashSetOps] {α ε : Type} [DecidableEq α] (tryFrom : Bytes → Except ε α)

/-- The loop over the parts of one value. -/
def insertParts (s : LinkedHashSet α) : List Str → Except ε (LinkedHashSet α)
  | [] => .ok s
  | part :: parts => do
    let a ← tryFrom (trimWhitespace part).asBytes
    insertParts (LinkedHashSetOps.insert s a) parts

/-- The loop over the values. -/
def insertValues (s : LinkedHashSet α) : List HeaderValue → Except ε (LinkedHashSet α)
  | [] => .ok s
  | value :: values => do
    let s ← insertParts tryFrom s (value.asStr.splitOn ',')
    insertValues s values

/-- `TypedHeader::decode` of either header. -/
def decodeList (values : List HeaderValue) : Except ε (Option (LinkedHashSet α)) := do
  let s ← insertValues tryFrom .empty values
  return if values.isEmpty then none else some s

end Lists

/-- `AcceptRanges` -/
structure AcceptRanges where
  formats : LinkedHashSet RangeFormat

/-- `Public` -/
structure Public where
  methods : LinkedHashSet Method

/-- `AcceptRanges::new` -/
def AcceptRanges.new : AcceptRanges := ⟨.empty⟩

section Headers

variable [LinkedHashSetOps]

instance : TypedHeader AcceptRanges RangeFormatError where
  headerName := .standard .acceptRanges
  decode values := (decodeList RangeFormat.tryFrom values).map (·.map .mk)
  encode x := encodeList RangeFormat.asStr RangeFormat.isToken_asStr x.formats

instance : TypedHeader Public MethodError where
  headerName := .standard .public
  decode values := (decodeList Method.tryFrom values).map (·.map .mk)
  encode x := encodeList Method.asStr Method.isToken_asStr x.methods

end Headers

/-! ## Reading a list back -/

/-- Parts that are the names, but for the whitespace around them. -/
inductive PartsOf {α : Type} (asStr : α → Bytes) : List Str → List α → Prop where
  | nil : PartsOf asStr [] []
  | cons {part parts a as} : (trimWhitespace part).asBytes = asStr a → PartsOf asStr parts as →
      PartsOf asStr (part :: parts) (a :: as)

/-- The parts of a list are its names, all but the first behind a space. -/
theorem splitOn_join {name : Bytes} {names : List Bytes}
    (h : ∀ n ∈ name :: names, isToken n = true) :
    (Str.ofAscii (join (name :: names))).splitOn ',' =
      Str.ofAscii name :: names.map fun n => ' ' :: Str.ofAscii n := by
  have hcomma : ∀ n ∈ name :: names, ',' ∉ Str.ofAscii n := fun n hn =>
    not_mem_ofAscii (c := 44) (h n hn) (by decide)
  induction names generalizing name with
  | nil =>
    rw [join, List.intercalate_singleton]
    exact List.splitOn_eq_singleton (hcomma name (by simp))
  | cons name' names ih =>
    have hrest := ih (fun n hn => h n (List.mem_cons_of_mem _ hn))
      fun n hn => hcomma n (List.mem_cons_of_mem _ hn)
    have hjoin : Str.ofAscii (join (name :: name' :: names)) =
        Str.ofAscii name ++ ',' :: ' ' :: Str.ofAscii (join (name' :: names)) := by
      rw [join, List.intercalate_cons_cons, Str.ofAscii, List.map_append, List.map_append,
        List.append_assoc]
      rfl
    rw [hjoin, List.splitOn_append_cons_self_of_not_mem (hcomma name (by simp)),
      List.splitOn_cons_eq_if_modifyHead, if_neg (by decide), hrest]
    rfl

section RoundTrip

variable {α ε : Type} {asStr : α → Bytes}

theorem partsOf_map (htoken : ∀ a, isToken (asStr a) = true) (as : List α) :
    PartsOf asStr ((as.map asStr).map fun n => ' ' :: Str.ofAscii n) as := by
  induction as with
  | nil => exact .nil
  | cons a as ih =>
    refine .cons ?_ ih
    rw [trimWhitespace_space_word (isWord_of_isToken (htoken a))]
    exact Str.asBytes_ofAscii (ascii_of_isToken (htoken a))

variable [LinkedHashSetOps] [DecidableEq α] {tryFrom : Bytes → Except ε α}

/-- New elements that are read part by part go to the end, in order. -/
theorem insertParts_of_partsOf (hops : LinkedHashSetOps.Lawful)
    (hread : ∀ a, tryFrom (asStr a) = .ok a) {s : LinkedHashSet α} {parts : List Str}
    {as : List α} (h : PartsOf asStr parts as) (hnodup : (s.elements ++ as).Nodup) :
    ∃ s', insertParts tryFrom s parts = .ok s' ∧ s'.elements = s.elements ++ as := by
  induction h generalizing s with
  | nil => exact ⟨s, rfl, (List.append_nil _).symm⟩
  | @cons part parts a as hpart _ ih =>
    have hnew : a ∉ s.elements := by
      intro ha
      exact (List.nodup_append.mp hnodup).2.2 a ha a (by simp) rfl
    have hinsert := hops.insert_new s a hnew
    have happend : s.elements ++ a :: as = (s.elements ++ [a]) ++ as := by simp
    rw [happend, ← hinsert] at hnodup
    obtain ⟨s', hs', helements⟩ := ih hnodup
    refine ⟨s', ?_, ?_⟩
    · rw [insertParts, hpart, hread, ok_bind, hs']
    · rw [helements, hinsert, happend]

/-- A set that is not empty is read back, in its order. -/
theorem decodeList_encodeList (hops : LinkedHashSetOps.Lawful)
    (hread : ∀ a, tryFrom (asStr a) = .ok a) (htoken : ∀ a, isToken (asStr a) = true)
    {s : LinkedHashSet α} (hne : s.elements ≠ []) :
    decodeList tryFrom (encodeList asStr htoken s) = .ok (some s) := by
  obtain ⟨a, as, has⟩ := List.exists_cons_of_ne_nil hne
  have hnames : ∀ n ∈ s.elements.map asStr, isToken n = true := by
    intro n hn
    obtain ⟨a, -, rfl⟩ := List.mem_map.mp hn
    exact htoken a
  let value : HeaderValue :=
    ⟨join (s.elements.map asStr), HeaderValue.check_printable (printable_join hnames)⟩
  have hvalue : value.asStr = Str.ofAscii (join (s.elements.map asStr)) :=
    HeaderValue.asStr_of_ascii fun b hb =>
      Nat.lt_of_le_of_lt (printable_join hnames b hb).2 (by decide)
  have hparts : PartsOf asStr (value.asStr.splitOn ',') s.elements := by
    rw [hvalue, has, List.map_cons, splitOn_join (by rwa [← List.map_cons, ← has])]
    refine .cons ?_ (partsOf_map htoken as)
    rw [trimWhitespace_word (isWord_of_isToken (htoken a))]
    exact Str.asBytes_ofAscii (ascii_of_isToken (htoken a))
  obtain ⟨s', hs', helements⟩ :=
    insertParts_of_partsOf hops hread (s := .empty) hparts s.nodup
  have hs : s' = s := LinkedHashSet.ext helements
  show (do
    let s ← insertValues tryFrom .empty [value]
    return if [value].isEmpty then none else some s) = _
  rw [insertValues, hs', hs]
  rfl

/-- The empty set is written as one part without a name. -/
theorem decodeList_encodeList_empty {e : ε} (hempty : tryFrom [] = .error e)
    (htoken : ∀ a, isToken (asStr a) = true) {s : LinkedHashSet α} (hs : s.elements = []) :
    decodeList tryFrom (encodeList asStr htoken s) = .error e := by
  obtain rfl : s = .empty := LinkedHashSet.ext hs
  let value : HeaderValue := ⟨join [], by decide⟩
  have hvalue : value.asStr.splitOn ',' = [[]] := rfl
  have hword : trimWhitespace [] = [] := trimWhitespace_word fun c hc => nomatch hc
  show (do
    let s ← insertValues tryFrom .empty [value]
    return if [value].isEmpty then none else some s) = _
  rw [insertValues, hvalue, insertParts, hword]
  show ((tryFrom [] >>= _) >>= _) >>= _ = _
  rw [hempty]
  rfl

/-- A header that is such a set. -/
theorem decodes_encodeList_iff {β : Type} (mk : LinkedHashSet α → β)
    (hops : LinkedHashSetOps.Lawful) (hread : ∀ a, tryFrom (asStr a) = .ok a) {e : ε}
    (hempty : tryFrom [] = .error e) (htoken : ∀ a, isToken (asStr a) = true)
    (s : LinkedHashSet α) :
    (decodeList tryFrom (encodeList asStr htoken s)).map (·.map mk) = .ok (some (mk s)) ↔
      s.elements ≠ [] := by
  constructor
  · intro h hs
    rw [decodeList_encodeList_empty hempty htoken hs] at h
    cases h
  · intro hne
    rw [decodeList_encodeList hops hread htoken hne]
    rfl

end RoundTrip

section Result

variable [LinkedHashSetOps]

theorem AcceptRanges.decodes_iff (hops : LinkedHashSetOps.Lawful) (x : AcceptRanges) :
    TypedHeader.decode (TypedHeader.encode x) = .ok (some x) ↔ x.formats.elements ≠ [] :=
  decodes_encodeList_iff AcceptRanges.mk hops RangeFormat.tryFrom_asStr (e := .empty) rfl
    RangeFormat.isToken_asStr x.formats

theorem Public.decodes_iff (hops : LinkedHashSetOps.Lawful) (x : Public) :
    TypedHeader.decode (TypedHeader.encode x) = .ok (some x) ↔ x.methods.elements ≠ [] :=
  decodes_encodeList_iff Public.mk hops Method.tryFrom_asStr (e := .empty) rfl
    Method.isToken_asStr x.methods

end Result

/-- **A list header is read back exactly if it lists something.** -/
theorem lists_roundTrip_iff [LinkedHashSetOps] (hops : LinkedHashSetOps.Lawful) :
    (∀ x : AcceptRanges,
      TypedHeader.decode (TypedHeader.encode x) = .ok (some x) ↔ x.formats.elements ≠ []) ∧
    (∀ x : Public,
      TypedHeader.decode (TypedHeader.encode x) = .ok (some x) ↔ x.methods.elements ≠ []) :=
  ⟨AcceptRanges.decodes_iff hops, Public.decodes_iff hops⟩

/-- Two formats that are read back. -/
theorem lists_roundTrip_iff_two :
    letI : LinkedHashSetOps := .keeping
    let x : AcceptRanges := ⟨[.standard .npt, .standard .clock], by decide⟩
    TypedHeader.decode (TypedHeader.encode x) = .ok (some x) :=
  letI : LinkedHashSetOps := .keeping
  ((lists_roundTrip_iff LinkedHashSetOps.keeping_lawful).1 _).mpr (by decide)

/-- What the server answers to `SETUP` cannot be read. -/
theorem lists_lost : ¬ ∀ [LinkedHashSetOps], LinkedHashSetOps.Lawful → ∀ x : AcceptRanges,
    TypedHeader.decode (TypedHeader.encode x) = .ok (some x) := by
  intro h
  let _ : LinkedHashSetOps := .keeping
  have hlawful := LinkedHashSetOps.keeping_lawful
  exact (AcceptRanges.decodes_iff hlawful .new).mp (h hlawful .new) rfl

end Rtsp
