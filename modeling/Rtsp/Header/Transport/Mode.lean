import Mathlib.Data.List.Forall2
import Rtsp.Header.Lists
import Rtsp.Whitespace.Bytes

/-!
# Transport modes

`Mode` and `parse_modes` of `header/types/transport/mode.rs`. A list of modes is in
quotation marks. The code looks for one at the front and for one at the end, which
can be the same (`readsModes_iff`).

The set of modes is read part by part into a `LinkedHashSet`, and as elsewhere it is
left open where an element goes that is there already. The result only asks which modes
are in the set.

`RECORD` is reserved: it is no mode in any spelling, and a list with it is an error as a
whole.

To look for a quotation mark at either end is right for everything that is longer than
one byte. For the lone mark the slice between the two would begin behind its own end.
-/

namespace Rtsp

open Syntax

/-- The name of a mode that is not standard. -/
@[ext] structure ExtensionMode where
  name : Bytes
  token : isToken name = true
  uppercase : name.map toAsciiUppercase = name
  notPlay : name ≠ ascii "PLAY"
  notRecord : name ≠ ascii "RECORD"

instance : DecidableEq ExtensionMode := fun _ _ => decidable_of_iff' _ ExtensionMode.ext_iff

inductive Mode where
  | extension (e : ExtensionMode)
  | play
  deriving DecidableEq

inductive ModeError where
  | empty
  | invalidCharacter
  | missingQuotes
  | reserved
  deriving DecidableEq

namespace Mode

def asStr : Mode → Bytes
  | play => ascii "PLAY"
  | extension e => e.name

/-- A name in capitals is compared as it is. -/
theorem uppercase_ne {value name : Bytes} (hname : name.map toAsciiUppercase = name)
    (h : eqIgnoreAsciiCase value name = false) : value.map toAsciiUppercase ≠ name := by
  intro heq
  rw [← hname] at heq
  rw [eqIgnoreAsciiCase_iff_uppercase.mpr heq] at h
  cases h

theorem isToken_uppercase {value : Bytes} (htok : isToken value = true) :
    isToken (value.map toAsciiUppercase) = true :=
  (isToken_map_toAsciiUppercase value).trans htok

theorem uppercase_play : (ascii "PLAY").map toAsciiUppercase = ascii "PLAY" := by decide

theorem uppercase_record : (ascii "RECORD").map toAsciiUppercase = ascii "RECORD" := by decide

/-- What `Mode::extension` stores has the properties its checks were for. -/
def ofToken (value : Bytes) (hplay : eqIgnoreAsciiCase value (ascii "PLAY") = false)
    (hrecord : eqIgnoreAsciiCase value (ascii "RECORD") = false) (htok : isToken value = true) :
    ExtensionMode where
  name := value.map toAsciiUppercase
  token := isToken_uppercase htok
  uppercase := map_toAsciiUppercase_idem value
  notPlay := uppercase_ne uppercase_play hplay
  notRecord := uppercase_ne uppercase_record hrecord

/-- `Mode::extension`, which is called where the value is not `PLAY` -/
def ofExtension (value : Bytes) (hplay : eqIgnoreAsciiCase value (ascii "PLAY") = false) :
    Except ModeError Mode :=
  if value.isEmpty then .error .empty
  else if hrecord : eqIgnoreAsciiCase value (ascii "RECORD") = true then .error .reserved
  else if htok : isToken value = true then
    .ok (.extension (ofToken value hplay (Bool.eq_false_iff.mpr hrecord) htok))
  else .error .invalidCharacter

/-- `Mode::try_from` -/
def tryFrom (value : Bytes) : Except ModeError Mode :=
  if hplay : eqIgnoreAsciiCase value (ascii "PLAY") = true then .ok .play
  else ofExtension value (Bool.eq_false_iff.mpr hplay)

theorem asStr_inj {m m' : Mode} (h : m.asStr = m'.asStr) : m = m' := by
  cases m with
  | play =>
    cases m' with
    | play => rfl
    | extension e => exact absurd h.symm e.notPlay
  | extension e =>
    cases m' with
    | play => exact absurd h e.notPlay
    | extension e' => exact congrArg extension (ExtensionMode.ext h)

/-- **A mode is a token other than `RECORD`**, in capitals. -/
theorem tryFrom_eq_ok_iff {value : Bytes} {m : Mode} : tryFrom value = .ok m ↔
    isToken value = true ∧ eqIgnoreAsciiCase value (ascii "RECORD") = false ∧
      m.asStr = value.map toAsciiUppercase := by
  constructor
  · intro h
    unfold tryFrom at h
    split at h
    · next hplay =>
      cases h
      have hupper := eqIgnoreAsciiCase_iff_uppercase.mp hplay
      refine ⟨?_, Bool.eq_false_iff.mpr fun hrecord => ?_, hupper.symm⟩
      · rw [← isToken_map_toAsciiUppercase, hupper]
        decide
      · have hrecord := eqIgnoreAsciiCase_iff_uppercase.mp hrecord
        rw [hupper] at hrecord
        exact absurd hrecord (by decide)
    · unfold ofExtension at h
      split at h
      · cases h
      split at h
      · cases h
      next hrecord =>
      split at h
      · next htok =>
        cases h
        exact ⟨htok, Bool.eq_false_iff.mpr hrecord, rfl⟩
      · cases h
  · rintro ⟨htok, hrecord, hname⟩
    unfold tryFrom
    split
    · next hplay =>
      have hupper := eqIgnoreAsciiCase_iff_uppercase.mp hplay
      rw [asStr_inj (hname.trans hupper : m.asStr = play.asStr)]
    · rw [ofExtension, if_neg (by simp [isToken_ne_nil htok]), dif_neg (by simp [hrecord]),
        dif_pos htok]
      exact congrArg _ (asStr_inj hname.symm)

theorem exists_tryFrom {value : Bytes} (htok : isToken value = true)
    (hrecord : eqIgnoreAsciiCase value (ascii "RECORD") = false) : ∃ m, tryFrom value = .ok m := by
  by_cases hplay : eqIgnoreAsciiCase value (ascii "PLAY") = true
  · exact ⟨.play, dif_pos hplay⟩
  · refine ⟨.extension (ofToken value (Bool.eq_false_iff.mpr hplay) hrecord htok), ?_⟩
    exact tryFrom_eq_ok_iff.mpr ⟨htok, hrecord, rfl⟩

end Mode

/-! ## Lists of modes -/

def DQUOTE : Byte := 34

def COMMA : Byte := 44

section Lists

variable [LinkedHashSetOps]

/-- The loop of `parse_modes` over the parts. -/
def insertModes (modes : LinkedHashSet Mode) : List Bytes → Except ModeError (LinkedHashSet Mode)
  | [] => .ok modes
  | part :: parts => do
    let mode ← Mode.tryFrom (trimBytesWhitespace part)
    insertModes (LinkedHashSetOps.insert modes mode) parts

/-- `parse_modes` -/
def parseModes (value : Bytes) : Rust (Except ModeError (LinkedHashSet Mode)) :=
  let value := trimBytesWhitespace value
  if !([DQUOTE].isPrefixOf value) || !([DQUOTE].isSuffixOf value) then .ok (.error .missingQuotes)
  else do
    let value ← slice value 1 (value.length - 1)
    return insertModes .empty (value.splitOn COMMA)

end Lists

/-- A mode as it may be written in a list: a token other than `RECORD`, in whitespace. -/
def WrittenMode (part token : Bytes) : Prop :=
  isToken token = true ∧ eqIgnoreAsciiCase token (ascii "RECORD") = false ∧
    ∃ w w', part = w ++ (token ++ w') ∧ Whitespace w ∧ Whitespace w'

/-- `mode-spec`: one mode or more, with commas between them, in quotation marks. -/
def ModeSpec (tokens : List Bytes) (value : Bytes) : Prop :=
  tokens ≠ [] ∧ ∃ parts, value = DQUOTE :: ([COMMA].intercalate parts ++ [DQUOTE]) ∧
    List.Forall₂ WrittenMode parts tokens

theorem writtenMode_iff {part token : Bytes} : WrittenMode part token ↔
    trimBytesWhitespace part = token ∧ isToken token = true ∧
      eqIgnoreAsciiCase token (ascii "RECORD") = false := by
  constructor
  · rintro ⟨htoken, hrecord, w, w', rfl, hw, hw'⟩
    exact ⟨trimBytesWhitespace_token hw hw' htoken, htoken, hrecord⟩
  · rintro ⟨rfl, htoken, hrecord⟩
    exact ⟨htoken, hrecord, exists_trimBytesWhitespace part⟩

theorem WrittenMode.not_mem {part token : Bytes} (h : WrittenMode part token) : COMMA ∉ part := by
  obtain ⟨htoken, -, w, w', rfl, hw, hw'⟩ := h
  have hcomma : isSpaceOrTab COMMA = false ∧ COMMA ≠ CR ∧ COMMA ≠ LF := by decide
  rw [List.mem_append, List.mem_append, not_or, not_or]
  exact ⟨hw.not_mem hcomma, isToken_not_mem htoken (by decide), hw'.not_mem hcomma⟩

theorem comma_not_mem {parts tokens : List Bytes} (h : List.Forall₂ WrittenMode parts tokens) :
    ∀ part ∈ parts, COMMA ∉ part := by
  induction h with
  | nil => exact fun _ hpart => absurd hpart List.not_mem_nil
  | cons hwritten _ ih => exact List.forall_mem_cons.mpr ⟨hwritten.not_mem, ih⟩

/-- The parts are what the value is split into. -/
theorem splitOn_parts {parts tokens : List Bytes} (hne : tokens ≠ [])
    (h : List.Forall₂ WrittenMode parts tokens) :
    ([COMMA].intercalate parts).splitOn COMMA = parts := by
  refine List.splitOn_intercalate COMMA (comma_not_mem h) ?_
  rintro rfl
  cases h
  exact hne rfl

section Parse

variable [LinkedHashSetOps]

/-- Parts that are modes are read, and the modes are added. -/
theorem insertModes_complete (hops : LinkedHashSetOps.Adds) {parts tokens : List Bytes}
    (h : List.Forall₂ WrittenMode parts tokens) (modes : LinkedHashSet Mode) :
    ∃ s, insertModes modes parts = .ok s ∧ ∀ m, m ∈ s.elements ↔ m ∈ modes.elements ∨
      ∃ token ∈ tokens, m.asStr = token.map toAsciiUppercase := by
  induction h generalizing modes with
  | nil => exact ⟨modes, rfl, by simp⟩
  | @cons part token parts tokens hwritten _ ih =>
    obtain ⟨htrim, htoken, hrecord⟩ := writtenMode_iff.mp hwritten
    obtain ⟨mode, hmode⟩ := Mode.exists_tryFrom htoken hrecord
    have hname := (Mode.tryFrom_eq_ok_iff.mp hmode).2.2
    obtain ⟨s, hs, hmem⟩ := ih (LinkedHashSetOps.insert modes mode)
    refine ⟨s, ?_, fun m => ?_⟩
    · rw [insertModes, htrim, hmode]
      exact hs
    · have hm : m = mode ↔ m.asStr = token.map toAsciiUppercase := by
        rw [← hname]
        exact ⟨congrArg Mode.asStr, Mode.asStr_inj⟩
      rw [hmem, hops.mem_insert, hm, or_assoc, List.exists_mem_cons_iff]

/-- Parts that are read are modes. -/
theorem insertModes_sound {parts : List Bytes} {modes s : LinkedHashSet Mode}
    (h : insertModes modes parts = .ok s) :
    ∃ tokens, List.Forall₂ WrittenMode parts tokens := by
  induction parts generalizing modes with
  | nil => exact ⟨[], .nil⟩
  | cons part parts ih =>
    obtain ⟨mode, hmode, hrest⟩ := bind_eq_ok h
    obtain ⟨tokens, htokens⟩ := ih hrest
    obtain ⟨htoken, hrecord, -⟩ := Mode.tryFrom_eq_ok_iff.mp hmode
    exact ⟨_ :: tokens, .cons (writtenMode_iff.mpr ⟨rfl, htoken, hrecord⟩) htokens⟩

/-! ## The quotation marks -/

/-- A single mark is the one in front and the one at the end. -/
theorem parseModes_lone {value : Bytes} (h : trimBytesWhitespace value = [DQUOTE]) :
    parseModes value = .error .sliceOutOfRange := by
  rw [parseModes, h]
  rfl

theorem parseModes_quoted {value text : Bytes}
    (h : trimBytesWhitespace value = DQUOTE :: (text ++ [DQUOTE])) :
    parseModes value = .ok (insertModes .empty (text.splitOn COMMA)) := by
  have hprefix : [DQUOTE].isPrefixOf (DQUOTE :: (text ++ [DQUOTE])) = true :=
    List.isPrefixOf_iff_prefix.mpr ⟨text ++ [DQUOTE], rfl⟩
  have hsuffix : [DQUOTE].isSuffixOf (DQUOTE :: (text ++ [DQUOTE])) = true :=
    List.isSuffixOf_iff_suffix.mpr ⟨DQUOTE :: text, rfl⟩
  have hslice : slice (DQUOTE :: (text ++ [DQUOTE])) 1
      ((DQUOTE :: (text ++ [DQUOTE])).length - 1) = .ok text := by
    rw [slice_of_le (by simp) (by simp)]
    simp
  rw [parseModes, h, hprefix, hsuffix, hslice]
  rfl

theorem parseModes_unquoted {value : Bytes} (hlone : trimBytesWhitespace value ≠ [DQUOTE])
    (h : ∀ text, trimBytesWhitespace value ≠ DQUOTE :: (text ++ [DQUOTE])) :
    parseModes value = .ok (.error .missingQuotes) := by
  refine if_pos ?_
  rw [Bool.or_eq_true, Bool.not_eq_true', Bool.not_eq_true', ← Bool.and_eq_false_iff,
    Bool.eq_false_iff, ne_eq, Bool.and_eq_true, List.isPrefixOf_iff_prefix,
    List.isSuffixOf_iff_suffix]
  rintro ⟨⟨t, ht⟩, ⟨u, hu⟩⟩
  cases u with
  | nil => exact hlone hu.symm
  | cons q u =>
    rw [← ht] at hu
    obtain ⟨rfl, hu⟩ := List.cons.inj hu
    exact h u (by rw [← ht, ← hu]; rfl)

end Parse

/-! ## What is read -/

/-- The call returns, with a set exactly where the value is a list of modes in quotation marks, and
    the set is that of the modes in capitals. -/
def ReadsModes [LinkedHashSetOps] (value : Bytes) : Prop :=
  (∀ p, parseModes value ≠ .error p) ∧
  ((∃ s, parseModes value = .ok (.ok s)) ↔
    ∃ tokens, ModeSpec tokens (trimBytesWhitespace value)) ∧
  ∀ s tokens, parseModes value = .ok (.ok s) → ModeSpec tokens (trimBytesWhitespace value) →
    ∀ m, m ∈ s.elements ↔ ∃ token ∈ tokens, m.asStr = token.map toAsciiUppercase

theorem ModeSpec.exists_quoted {tokens : List Bytes} {value : Bytes} (h : ModeSpec tokens value) :
    ∃ text, value = DQUOTE :: (text ++ [DQUOTE]) := by
  obtain ⟨-, parts, hvalue, -⟩ := h
  exact ⟨_, hvalue⟩

/-- A list of modes has no other parts than those it is split into. -/
theorem modeSpec_quoted {tokens : List Bytes} {text : Bytes} :
    ModeSpec tokens (DQUOTE :: (text ++ [DQUOTE])) ↔
      List.Forall₂ WrittenMode (text.splitOn COMMA) tokens := by
  constructor
  · rintro ⟨hne, parts, htext, hparts⟩
    obtain rfl := List.append_cancel_right (List.cons.inj htext).2
    rwa [splitOn_parts hne hparts]
  · intro h
    refine ⟨?_, text.splitOn COMMA, ?_, h⟩
    · rintro rfl
      exact List.splitOn_ne_nil COMMA text (List.forall₂_nil_right_iff.mp h)
    · rw [List.intercalate_splitOn]

/-- **Lists of modes are read exactly, but for a quotation mark on its own**, at which the call
    panics. -/
theorem readsModes_iff [LinkedHashSetOps] (hops : LinkedHashSetOps.Adds) (value : Bytes) :
    ReadsModes value ↔ trimBytesWhitespace value ≠ [DQUOTE] := by
  constructor
  · rintro ⟨hreturns, -⟩ hlone
    exact hreturns _ (parseModes_lone hlone)
  intro hlone
  by_cases hquoted : ∃ text, trimBytesWhitespace value = DQUOTE :: (text ++ [DQUOTE])
  · obtain ⟨text, htext⟩ := hquoted
    have hparse := parseModes_quoted htext
    rw [ReadsModes, hparse, htext]
    refine ⟨fun p h => (by cases h), ?_, ?_⟩
    · constructor
      · rintro ⟨s, hs⟩
        obtain ⟨tokens, htokens⟩ := insertModes_sound (Except.ok.inj hs)
        exact ⟨tokens, modeSpec_quoted.mpr htokens⟩
      · rintro ⟨tokens, htokens⟩
        obtain ⟨s, hs, -⟩ := insertModes_complete hops (modeSpec_quoted.mp htokens) .empty
        exact ⟨s, congrArg _ hs⟩
    · intro s tokens hs htokens m
      obtain ⟨s', hs', hmem⟩ := insertModes_complete hops (modeSpec_quoted.mp htokens) .empty
      obtain rfl := Except.ok.inj (hs'.symm.trans (Except.ok.inj hs))
      rw [hmem]
      exact or_iff_right List.not_mem_nil
  · have hparse := parseModes_unquoted hlone (not_exists.mp hquoted)
    have hspec : ∀ tokens, ¬ ModeSpec tokens (trimBytesWhitespace value) := fun tokens h =>
      hquoted h.exists_quoted
    rw [ReadsModes, hparse]
    refine ⟨fun p h => (by cases h), iff_of_false ?_ (not_exists.mpr hspec), ?_⟩
    · rintro ⟨s, hs⟩
      cases hs
    · intro s tokens hs
      cases hs

theorem readsModes_iff_two : @ReadsModes .keeping (ascii "\"PLAY, OTHER\"") := by
  refine (@readsModes_iff .keeping LinkedHashSetOps.keeping_adds _).mpr ?_
  rw [trimBytesWhitespace, trimBytesWhitespaceLeft_eq, trimBytesWhitespaceRight_eq]
  decide

/-- A quotation mark on its own. -/
theorem not_readsModes : ¬ @ReadsModes .keeping [DQUOTE] := by
  have htrim : trimBytesWhitespace [DQUOTE] = [DQUOTE] := by
    rw [trimBytesWhitespace, trimBytesWhitespaceLeft_eq, trimBytesWhitespaceRight_eq]
    decide
  rintro ⟨hreturns, -⟩
  exact hreturns _ (@parseModes_lone .keeping _ htrim)

end Rtsp
