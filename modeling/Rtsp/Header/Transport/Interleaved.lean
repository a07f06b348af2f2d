import Rtsp.Whitespace.Bytes

/-!
# Interleaved channels

`Interleaved` of `header/types/transport/interleaved.rs`: one channel, or two with a
dash between them. Nothing compares the two, so that the second can be the smaller
one and the interval empty (`realInterval_iff`). What is printed is read back in any
case.

Channels are single bytes, and digits are added up by the checked operations of `u8`: a
number that does not fit is an error and not another number. The subtraction of `0` is
not checked in the source, and here it can fail; it does not, as only digits get there.

What may be written is a relation of its own (`WrittenChannels`), given by the rule of
the documentation together with the whitespace that the code takes around the dash. It
is independent of the parser, and the parser is shown to accept just this.
-/

namespace Rtsp

open Syntax

/-- `RangeInclusive<u8>` -/
structure Interleaved where
  start : Byte
  stop : Byte
  deriving DecidableEq

inductive InterleavedError where
  | empty
  | invalidCharacter
  | overflow
  deriving DecidableEq

def u8Max : Nat := 2 ^ 8 - 1

/-- `u8::checked_mul` -/
def checkedMul (a b : Byte) : Option Byte :=
  if a.toNat * b.toNat ≤ u8Max then some (a * b) else none

/-- `u8::checked_add` -/
def checkedAdd (a b : Byte) : Option Byte :=
  if a.toNat + b.toNat ≤ u8Max then some (a + b) else none

/-- `a - b` on `u8`. -/
def u8Sub (a b : Byte) : Rust Byte := if b ≤ a then .ok (a - b) else .error .overflow

def DASH : Byte := 45

namespace Interleaved

/-- `ok_or(InterleavedError::Overflow)?` -/
def okOrOverflow {α : Type} : Option α → Fallible InterleavedError α
  | some a => .ok a
  | none => .error (.error .overflow)

/-- The loop of `parse_channel` over the bytes, with what stands behind it. -/
def channelLoop (value : Bytes) (channel : Byte) (digitsFound : Nat) :
    Bytes → Fallible InterleavedError (Byte × Bytes)
  | [] =>
    if digitsFound = 0 then .error (.error .empty)
    else do
      let rest ← Fallible.call (sliceFrom value digitsFound)
      return (channel, rest)
  | byte :: bytes =>
    if !isDigit byte then
      if digitsFound > 0 then do
        let rest ← Fallible.call (sliceFrom value digitsFound)
        return (channel, rest)
      else .error (.error .empty)
    else do
      let channel ← okOrOverflow (checkedMul channel 10)
      let digit ← Fallible.call (u8Sub byte 48)
      let channel ← okOrOverflow (checkedAdd channel digit)
      channelLoop value channel (digitsFound + 1) bytes

def parseChannel (value : Bytes) : Fallible InterleavedError (Byte × Bytes) :=
  channelLoop value 0 0 value

/-- `Interleaved::try_from` -/
def tryFrom (value : Bytes) : Fallible InterleavedError Interleaved := do
  let (channelStart, value) ← parseChannel value
  if value.isEmpty then return ⟨channelStart, channelStart⟩
  let value := trimBytesWhitespaceLeft value
  if !([DASH].isPrefixOf value) then .error (.error .invalidCharacter)
  let value ← Fallible.call (sliceFrom value 1)
  let (channelEnd, value) ← parseChannel (trimBytesWhitespaceLeft value)
  if !value.isEmpty then .error (.error .invalidCharacter)
  return ⟨channelStart, channelEnd⟩

/-- `Display` -/
def fmt (i : Interleaved) : Bytes :=
  toDecimal i.start.toNat ++
    if i.start ≠ i.stop then DASH :: toDecimal i.stop.toNat else []

/-- `RangeInclusive::contains` -/
def contains (i : Interleaved) (n : Byte) : Bool := i.start ≤ n && n ≤ i.stop

/-! ## A channel -/

theorem checkedMul_of_le {a b : Byte} (h : a.toNat * b.toNat ≤ u8Max) :
    ∃ c, checkedMul a b = some c ∧ c.toNat = a.toNat * b.toNat := by
  refine ⟨a * b, if_pos h, ?_⟩
  rw [UInt8.toNat_mul]
  exact Nat.mod_eq_of_lt (Nat.lt_succ_of_le h)

theorem checkedAdd_of_le {a b : Byte} (h : a.toNat + b.toNat ≤ u8Max) :
    ∃ c, checkedAdd a b = some c ∧ c.toNat = a.toNat + b.toNat := by
  refine ⟨a + b, if_pos h, ?_⟩
  rw [UInt8.toNat_add]
  exact Nat.mod_eq_of_lt (Nat.lt_succ_of_le h)

theorem u8Sub_of_isDigit {b : Byte} (h : isDigit b = true) :
    ∃ c, u8Sub b 48 = .ok c ∧ c.toNat = b.toNat - 48 := by
  have hle : (48 : Byte) ≤ b := UInt8.le_iff_toNat_le.mpr (toNat_of_isDigit h).1
  exact ⟨b - 48, if_pos hle, UInt8.toNat_sub_of_le b 48 hle⟩

theorem toNat_ofNat_of_le {n : Nat} (h : n ≤ u8Max) : (UInt8.ofNat n).toNat = n := by
  rw [UInt8.toNat_ofNat']
  exact Nat.mod_eq_of_lt (Nat.lt_succ_of_le h)

/-- The digits end here. -/
def EndsDigits (rest : Bytes) : Prop := ∀ b t, rest = b :: t → isDigit b = false

/-- The channel that digits denote, if there is one. -/
def channelOf (n : Nat) (rest : Bytes) : Fallible InterleavedError (Byte × Bytes) :=
  if n ≤ u8Max then .ok (UInt8.ofNat n, rest) else .error (.error .overflow)

theorem channelOf_toNat (channel : Byte) (rest : Bytes) :
    channelOf channel.toNat rest = .ok (channel, rest) := by
  have hle : channel.toNat ≤ u8Max := Nat.le_of_lt_succ channel.toNat_lt
  rw [channelOf, if_pos hle, UInt8.ofNat_toNat]

/-- Behind a digit at least, the loop ends where the digits do. -/
theorem channelLoop_end {pre rest : Bytes} (hne : pre ≠ []) (hrest : EndsDigits rest)
    (channel : Byte) :
    channelLoop (pre ++ rest) channel pre.length rest = .ok (channel, rest) := by
  have hpos : 0 < pre.length := List.length_pos_iff.mpr hne
  have hslice : sliceFrom (pre ++ rest) pre.length = .ok rest := by
    rw [sliceFrom_of_le (by simp), List.drop_left]
  cases rest with
  | nil =>
    rw [channelLoop, if_neg (Nat.ne_of_gt hpos), hslice]
    rfl
  | cons b t =>
    rw [channelLoop, hrest b t rfl, Bool.not_false, if_pos rfl, if_pos hpos, hslice]
    rfl

/-- One more digit is taken in, if the channel is not too large then. -/
theorem channelLoop_digit {b : Byte} (hb : isDigit b = true) (value : Bytes) (channel : Byte)
    (found : Nat) (bytes : Bytes) :
    (∃ channel' : Byte, channel'.toNat = channel.toNat * 10 + (b.toNat - 48) ∧
      channelLoop value channel found (b :: bytes) = channelLoop value channel' (found + 1) bytes) ∨
    (u8Max < channel.toNat * 10 + (b.toNat - 48) ∧
      channelLoop value channel found (b :: bytes) = .error (.error .overflow)) := by
  obtain ⟨digit, hdigit, hnat⟩ := u8Sub_of_isDigit hb
  rw [channelLoop, hb, Bool.not_true, if_neg Bool.false_ne_true, hdigit]
  by_cases hmul : channel.toNat * (10 : Byte).toNat ≤ u8Max
  · obtain ⟨tens, htens, htensNat⟩ := checkedMul_of_le hmul
    rw [htens]
    by_cases hadd : tens.toNat + digit.toNat ≤ u8Max
    · obtain ⟨channel', hchannel, hchannelNat⟩ := checkedAdd_of_le hadd
      refine .inl ⟨channel', ?_, ?_⟩
      · rw [hchannelNat, htensNat, hnat]
        rfl
      · show okOrOverflow (checkedAdd tens digit) >>= _ = _
        rw [hchannel]
        rfl
    · refine .inr ⟨?_, ?_⟩
      · rw [htensNat, hnat, Nat.not_le] at hadd
        exact hadd
      · show okOrOverflow (checkedAdd tens digit) >>= _ = _
        rw [checkedAdd, if_neg hadd]
        rfl
  · refine .inr ⟨?_, ?_⟩
    · exact Nat.lt_of_lt_of_le (Nat.not_le.mp hmul) (Nat.le_add_right _ _)
    · rw [checkedMul, if_neg hmul]
      rfl

/-- The loop goes over the digits, as long as the channel is not too large. -/
theorem channelLoop_digits {ds rest : Bytes} (hds : ∀ b ∈ ds, isDigit b = true)
    (hrest : EndsDigits rest) (pre : Bytes) (hne : pre ++ ds ≠ []) (channel : Byte) :
    channelLoop (pre ++ (ds ++ rest)) channel pre.length (ds ++ rest) =
      channelOf (decimalFrom channel.toNat ds) rest := by
  induction ds generalizing pre channel with
  | nil =>
    rw [List.append_nil] at hne
    rw [List.nil_append, channelLoop_end hne hrest]
    exact (channelOf_toNat channel rest).symm
  | cons b ds ih =>
    have hb := hds b (by simp)
    have hle := le_decimalFrom (channel.toNat * 10 + (b.toNat - 48)) ds
    rcases channelLoop_digit hb (pre ++ b :: (ds ++ rest)) channel pre.length (ds ++ rest) with
      ⟨channel', hchannel, hloop⟩ | ⟨hlt, hloop⟩
    · have hpre : pre ++ b :: (ds ++ rest) = (pre ++ [b]) ++ (ds ++ rest) := by simp
      have hlen : pre.length + 1 = (pre ++ [b]).length := by simp
      have hrest := ih (fun b' hb' => hds b' (List.mem_cons_of_mem b hb')) (pre ++ [b])
        (by simp) channel'
      rw [List.cons_append, hloop, hpre, hlen, hrest, hchannel]
      rfl
    · have hlarge : ¬ decimalFrom channel.toNat (b :: ds) ≤ u8Max :=
        Nat.not_le.mpr (Nat.lt_of_lt_of_le hlt hle)
      rw [List.cons_append, hloop, channelOf, if_neg hlarge]

/-- **A channel is read up to where its digits end.** -/
theorem parseChannel_digits {ds rest : Bytes} (hds : IsDigits ds) (hrest : EndsDigits rest) :
    parseChannel (ds ++ rest) = channelOf (decimal ds) rest :=
  channelLoop_digits hds.2 hrest [] hds.1 0

theorem parseChannel_empty {value : Bytes} (h : EndsDigits value) :
    parseChannel value = .error (.error .empty) := by
  cases value with
  | nil => rfl
  | cons b t =>
    rw [parseChannel, channelLoop, h b t rfl]
    rfl

/-- Every value begins with digits, if only with none. -/
theorem exists_digits (value : Bytes) : ∃ ds rest, value = ds ++ rest ∧
    (∀ b ∈ ds, isDigit b = true) ∧ EndsDigits rest := by
  refine ⟨value.takeWhile isDigit, value.dropWhile isDigit, ?_, ?_, ?_⟩
  · exact (List.takeWhile_append_dropWhile).symm
  · exact List.all_eq_true.mp List.all_takeWhile
  · intro b t hbt
    have hnot := List.head?_dropWhile_not isDigit value
    rw [hbt] at hnot
    exact hnot

/-- What is read, or else the error. -/
theorem parseChannel_spec (value : Bytes) :
    (∃ ds rest, value = ds ++ rest ∧ IsDigits ds ∧ EndsDigits rest ∧ decimal ds ≤ u8Max ∧
      parseChannel value = .ok (UInt8.ofNat (decimal ds), rest)) ∨
    ∃ e, parseChannel value = .error (.error e) := by
  obtain ⟨ds, rest, rfl, hds, hrest⟩ := exists_digits value
  by_cases hne : ds = []
  · subst hne
    exact .inr ⟨.empty, parseChannel_empty hrest⟩
  have hparse := parseChannel_digits ⟨hne, hds⟩ hrest
  by_cases hle : decimal ds ≤ u8Max
  · rw [channelOf, if_pos hle] at hparse
    exact .inl ⟨ds, rest, rfl, ⟨hne, hds⟩, hrest, hle, hparse⟩
  · rw [channelOf, if_neg hle] at hparse
    exact .inr ⟨.overflow, hparse⟩

/-! ## One channel or two -/

/-- A channel as it may be written. -/
def WrittenChannel (ds : Bytes) (n : Nat) : Prop := IsDigits ds ∧ decimal ds = n ∧ n ≤ u8Max

/-- One channel, or two with a dash between them and whitespace around the dash. -/
inductive WrittenChannels : Bytes → Nat → Nat → Prop where
  | one {ds a} : WrittenChannel ds a → WrittenChannels ds a a
  | two {ds w w' es a c} : WrittenChannel ds a → Whitespace w → Whitespace w' →
      WrittenChannel es c → WrittenChannels (ds ++ (w ++ DASH :: (w' ++ es))) a c

theorem parseChannel_written {ds rest : Bytes} {n : Byte} (h : WrittenChannel ds n.toNat)
    (hrest : EndsDigits rest) : parseChannel (ds ++ rest) = .ok (n, rest) := by
  obtain ⟨hds, hn, -⟩ := h
  rw [parseChannel_digits hds hrest, hn, channelOf_toNat]

/-- A digit is no part of whitespace. -/
theorem not_whitespace_of_isDigit {b : Byte} (h : isDigit b = true) :
    isSpaceOrTab b = false ∧ b ≠ CR ∧ b ≠ LF := by
  have htoken : isToken [b] = true := by simp [isToken, isTokenChar, h]
  refine ⟨isSpaceOrTab_of_isToken htoken b (by simp), ?_, ?_⟩
  all_goals
    rintro rfl
    cases h

theorem endsDigits_nil : EndsDigits [] := fun _ _ h => by cases h

theorem endsDigits_dash {w : Bytes} (hw : Whitespace w) (s : Bytes) :
    EndsDigits (w ++ DASH :: s) := by
  intro b t hbt
  refine Bool.eq_false_iff.mpr fun hb => ?_
  cases w with
  | nil =>
    obtain ⟨rfl, -⟩ := List.cons.inj hbt
    cases hb
  | cons x w =>
    obtain ⟨rfl, -⟩ := List.cons.inj hbt
    exact hw.not_mem (not_whitespace_of_isDigit hb) (by simp)

theorem trimBytesWhitespaceLeft_digits {w ds : Bytes} (hw : Whitespace w) (hds : IsDigits ds) :
    trimBytesWhitespaceLeft (w ++ ds) = ds := by
  obtain ⟨b, t, rfl⟩ := List.exists_cons_of_ne_nil hds.1
  obtain ⟨hblank, hcr, -⟩ := not_whitespace_of_isDigit (hds.2 b (by simp))
  exact trimBytesWhitespaceLeft_whitespace hw hblank hcr t

theorem tryFrom_one {ds : Bytes} {n : Byte} (h : WrittenChannel ds n.toNat) :
    tryFrom ds = .ok ⟨n, n⟩ := by
  have hparse := parseChannel_written h endsDigits_nil
  rw [List.append_nil] at hparse
  rw [tryFrom, hparse]
  rfl

/-- The second half of `Interleaved::try_from`, behind the dash. -/
theorem tryFrom_dash {ds w : Bytes} {a : Byte} (ha : WrittenChannel ds a.toNat)
    (hw : Whitespace w) (s : Bytes) :
    tryFrom (ds ++ (w ++ DASH :: s)) = (do
      let (channelEnd, value) ← parseChannel (trimBytesWhitespaceLeft s)
      if !value.isEmpty then .error (.error .invalidCharacter)
      return ⟨a, channelEnd⟩) := by
  have hempty : (w ++ DASH :: s).isEmpty = false := by simp
  rw [tryFrom, parseChannel_written ha (endsDigits_dash hw s), ok_bind]
  dsimp only
  rw [hempty, if_neg Bool.false_ne_true,
    trimBytesWhitespaceLeft_whitespace hw (by decide) (by decide)]
  rfl

theorem tryFrom_two {ds w w' es : Bytes} {a c : Byte} (ha : WrittenChannel ds a.toNat)
    (hw : Whitespace w) (hw' : Whitespace w') (hc : WrittenChannel es c.toNat) :
    tryFrom (ds ++ (w ++ DASH :: (w' ++ es))) = .ok ⟨a, c⟩ := by
  have hparse := parseChannel_written hc endsDigits_nil
  rw [List.append_nil] at hparse
  rw [tryFrom_dash ha hw, trimBytesWhitespaceLeft_digits hw' hc.1, hparse]
  rfl

theorem tryFrom_written {value : Bytes} {a c : Byte} (h : WrittenChannels value a.toNat c.toNat) :
    tryFrom value = .ok ⟨a, c⟩ := by
  generalize ha : a.toNat = m at h
  generalize hc : c.toNat = n at h
  cases h with
  | one hds =>
    obtain rfl : a = c := UInt8.toNat_inj.mp (ha.trans hc.symm)
    exact tryFrom_one (ha.symm ▸ hds)
  | two hds hw hw' hes => exact tryFrom_two (ha.symm ▸ hds) hw hw' (hc.symm ▸ hes)

/-- Either the value is written so, or the call returns an error. -/
theorem tryFrom_spec (value : Bytes) :
    (∃ i, tryFrom value = .ok i ∧ WrittenChannels value i.start.toNat i.stop.toNat) ∨
    ∃ e, tryFrom value = .error (.error e) := by
  have hwritten : ∀ {ds}, IsDigits ds → decimal ds ≤ u8Max →
      WrittenChannel ds (UInt8.ofNat (decimal ds)).toNat := by
    intro ds hds hle
    rw [toNat_ofNat_of_le hle]
    exact ⟨hds, rfl, hle⟩
  rcases parseChannel_spec value with ⟨ds, rest, rfl, hds, -, hle, hparse⟩ | ⟨e, hparse⟩
  · have ha := hwritten hds hle
    by_cases hrest : rest = []
    · subst hrest
      rw [List.append_nil]
      exact .inl ⟨_, tryFrom_one ha, .one ha⟩
    obtain ⟨w, hw, hunits⟩ := exists_trimBytesWhitespaceLeft rest
    have hempty : rest.isEmpty = false := by simp [hrest]
    by_cases hdash : [DASH].isPrefixOf (trimBytesWhitespaceLeft rest) = true
    · obtain ⟨s, hs⟩ := List.isPrefixOf_iff_prefix.mp hdash
      obtain rfl : rest = w ++ DASH :: s := by rw [hw, ← hs]; rfl
      obtain ⟨w', hw', hunits'⟩ := exists_trimBytesWhitespaceLeft s
      rw [tryFrom_dash ha hunits]
      rcases parseChannel_spec (trimBytesWhitespaceLeft s) with
        ⟨es, rest', hes, hdigits, -, hle', hparse'⟩ | ⟨e, hparse'⟩
      · rw [hparse', ok_bind]
        cases rest' with
        | nil =>
          rw [List.append_nil] at hes
          rw [hes] at hw'
          rw [hw']
          exact .inl ⟨_, rfl, .two ha hunits hunits' (hwritten hdigits hle')⟩
        | cons b t => exact .inr ⟨.invalidCharacter, rfl⟩
      · rw [hparse']
        exact .inr ⟨e, rfl⟩
    · refine .inr ⟨.invalidCharacter, ?_⟩
      rw [tryFrom, hparse, ok_bind]
      dsimp only
      rw [hempty, if_neg Bool.false_ne_true, Bool.eq_false_iff.mpr hdash]
      rfl
  · refine .inr ⟨e, ?_⟩
    rw [tryFrom, hparse]
    rfl

/-- **What is read** is one channel or two, as they are written. -/
theorem tryFrom_eq_ok_iff {value : Bytes} {i : Interleaved} :
    tryFrom value = .ok i ↔ WrittenChannels value i.start.toNat i.stop.toNat := by
  constructor
  · intro h
    rcases tryFrom_spec value with ⟨i', hok, hwritten⟩ | ⟨e, herror⟩
    · rw [hok] at h
      cases h
      exact hwritten
    · rw [herror] at h
      cases h
  · exact tryFrom_written

/-! ## Printing -/

theorem writtenChannel_toDecimal (n : Byte) : WrittenChannel (toDecimal n.toNat) n.toNat := by
  have hle : n.toNat ≤ u8Max := Nat.le_of_lt_succ n.toNat_lt
  have hparse := parseDigits_toDecimal n.toNat hle
  obtain ⟨hdigits, hn, -⟩ := (parseDigits_eq_ok_iff (Nat.zero_le u8Max)).mp hparse
  exact ⟨⟨toDecimal_ne_nil n.toNat, hdigits⟩, hn, hle⟩

/-- **What is printed is read back.** -/
theorem tryFrom_fmt (i : Interleaved) : tryFrom i.fmt = .ok i := by
  obtain ⟨a, c⟩ := i
  by_cases hac : a = c
  · subst hac
    have hfmt : fmt ⟨a, a⟩ = toDecimal a.toNat := by simp [fmt]
    rw [hfmt]
    exact tryFrom_one (writtenChannel_toDecimal a)
  · have hfmt : fmt ⟨a, c⟩ = toDecimal a.toNat ++ ([] ++ DASH :: ([] ++ toDecimal c.toNat)) := by
      rw [fmt, if_pos hac]
      rfl
    rw [hfmt]
    exact tryFrom_two (writtenChannel_toDecimal a) .nil .nil (writtenChannel_toDecimal c)

/-! ## Intervals -/

/-- The call returns, and where it succeeds the value is a channel or two in order, of which the
    result is the interval and is read back as it is printed. -/
def RealInterval (value : Bytes) : Prop :=
  (∀ p, tryFrom value ≠ .error (.panic p)) ∧
  ∀ i, tryFrom value = .ok i →
    (∃ a c, WrittenChannels value a c ∧ a ≤ c ∧
      ∀ n, i.contains n = true ↔ a ≤ n.toNat ∧ n.toNat ≤ c) ∧
    tryFrom i.fmt = .ok i

theorem contains_iff {i : Interleaved} {n : Byte} :
    i.contains n = true ↔ i.start.toNat ≤ n.toNat ∧ n.toNat ≤ i.stop.toNat := by
  rw [contains, Bool.and_eq_true, decide_eq_true_eq, decide_eq_true_eq, UInt8.le_iff_toNat_le,
    UInt8.le_iff_toNat_le]

/-- Channels that are written are read. -/
theorem exists_tryFrom {value : Bytes} {a c : Nat} (h : WrittenChannels value a c) :
    ∃ i, tryFrom value = .ok i ∧ i.start.toNat = a ∧ i.stop.toNat = c := by
  have hle : a ≤ u8Max ∧ c ≤ u8Max := by
    cases h with
    | one ha => exact ⟨ha.2.2, ha.2.2⟩
    | two ha _ _ hc => exact ⟨ha.2.2, hc.2.2⟩
  have ha := toNat_ofNat_of_le hle.1
  have hc := toNat_ofNat_of_le hle.2
  refine ⟨⟨UInt8.ofNat a, UInt8.ofNat c⟩, tryFrom_written ?_, ha, hc⟩
  rw [ha, hc]
  exact h

/-- What is written determines the channels. -/
theorem WrittenChannels.unique {value : Bytes} {a c a' c' : Nat} (h : WrittenChannels value a c)
    (h' : WrittenChannels value a' c') : a = a' ∧ c = c' := by
  obtain ⟨i, hi, rfl, rfl⟩ := exists_tryFrom h
  obtain ⟨i', hi', rfl, rfl⟩ := exists_tryFrom h'
  rw [hi] at hi'
  cases hi'
  exact ⟨rfl, rfl⟩

/-- **The channels are an interval unless they are two in the wrong order.** -/
theorem realInterval_iff (value : Bytes) :
    RealInterval value ↔ ¬ ∃ a c, WrittenChannels value a c ∧ c < a := by
  constructor
  · rintro ⟨-, hreal⟩ ⟨a, c, hwritten, hlt⟩
    obtain ⟨i, hi, -, -⟩ := exists_tryFrom hwritten
    obtain ⟨⟨a', c', hwritten', hle, -⟩, -⟩ := hreal i hi
    obtain ⟨rfl, rfl⟩ := hwritten.unique hwritten'
    exact absurd hle (Nat.not_le.mpr hlt)
  · intro horder
    refine ⟨fun p hp => ?_, fun i hi => ?_⟩
    · rcases tryFrom_spec value with ⟨i, hok, -⟩ | ⟨e, herror⟩
      · rw [hok] at hp
        cases hp
      · rw [herror] at hp
        cases hp
    · have hwritten := tryFrom_eq_ok_iff.mp hi
      have hle := Nat.not_lt.mp fun hlt => horder ⟨_, _, hwritten, hlt⟩
      exact ⟨⟨_, _, hwritten, hle, fun n => contains_iff⟩, tryFrom_fmt i⟩

/-- `5-3` is accepted, and no channel is in it. -/
theorem not_realInterval : ¬ RealInterval (ascii "5-3") := by
  rintro ⟨-, hreal⟩
  have hread : tryFrom (toDecimal 5 ++ ([] ++ DASH :: ([] ++ toDecimal 3))) = .ok ⟨5, 3⟩ :=
    tryFrom_two (writtenChannel_toDecimal 5) .nil .nil (writtenChannel_toDecimal 3)
  obtain ⟨⟨a, c, hwritten, hle, -⟩, -⟩ := hreal _ hread
  obtain ⟨rfl, rfl⟩ := hwritten.unique (tryFrom_eq_ok_iff.mp hread)
  exact absurd hle (by decide)

end Interleaved
end Rtsp
