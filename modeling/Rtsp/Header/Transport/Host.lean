import Rtsp.Lib.Abnf
import Rtsp.Syntax

/-!
# The syntax of hosts

The rules of RFC 3986 for the host of a URI: a registered name, an IPv4 address, or
an IP literal in square brackets. Only the literals have colons in them, and what is
in front of such a colon is no host.

The hosts of the grammar are wanted for one property only: whether there is a colon in
them, and what stands in front of it. So the proofs do not parse anything. They bound
the language of each rule by the characters that may occur in it, and find a colon in
literals alone, behind a bracket that belongs to no name.

The rules are written out all the same, down to the nine forms of an IPv6 address. A
bound taken as the definition would make the result one about some language that
contains the hosts.
-/

namespace Rtsp.Uri

open Computability Syntax Lib.Abnf

def literal (t : String) : Language Byte := {ascii t}

/-- `unreserved` -/
def isUnreserved (b : Byte) : Bool := isUpper b || isLower b || isDigit b || b ∈ ascii "-._~"

/-- `sub-delims` -/
def isSubDelim (b : Byte) : Bool := b ∈ ascii "!$&'()*+,;="

def isHexDigit (b : Byte) : Bool := isDigit b || (65 ≤ b && b ≤ 70) || (97 ≤ b && b ≤ 102)

def hexDigit : Language Byte := char isHexDigit

def pctEncoded : Language Byte := literal "%" * hexDigit * hexDigit

def regName : Language Byte := (char isUnreserved + pctEncoded + char isSubDelim)∗

/-! ## Addresses -/

def digit : Language Byte := char isDigit

/-- `%x31-39 DIGIT` and its like: a digit of a range. -/
def digitOf (lo hi : Byte) : Language Byte := char (inRange lo hi)

def decOctet : Language Byte :=
  digit + digitOf 49 57 * digit + literal "1" * digit * digit +
    literal "2" * digitOf 48 52 * digit + literal "25" * digitOf 48 53

def ipv4Address : Language Byte :=
  decOctet * literal "." * decOctet * literal "." * decOctet * literal "." * decOctet

/-- `*n(l)` -/
def upTo (n : Nat) (l : Language Byte) : Language Byte := opt l ^ n

def h16 : Language Byte := hexDigit * upTo 3 hexDigit

def ls32 : Language Byte := h16 * literal ":" * h16 + ipv4Address

/-- `h16 ":"` -/
def piece : Language Byte := h16 * literal ":"

/-- `[ *n( h16 ":" ) h16 ] "::"` -/
def elided (n : Nat) : Language Byte := opt (upTo n piece * h16) * literal "::"

def ipv6Address : Language Byte :=
  piece ^ 6 * ls32 + literal "::" * piece ^ 5 * ls32 + elided 0 * piece ^ 4 * ls32 +
    elided 1 * piece ^ 3 * ls32 + elided 2 * piece ^ 2 * ls32 + elided 3 * piece * ls32 +
    elided 4 * ls32 + elided 5 * h16 + elided 6

/-- `unreserved / sub-delims / ":"` -/
def isLiteralChar (b : Byte) : Bool := isUnreserved b || isSubDelim b || b == 58

def ipvFuture : Language Byte :=
  char (fun b => b == 86 || b == 118) * plus hexDigit * literal "." * plus (char isLiteralChar)

def ipLiteral : Language Byte := literal "[" * (ipv6Address + ipvFuture) * literal "]"

def host : Language Byte := ipLiteral + ipv4Address + regName

/-! ## What hosts are made of -/

theorem literal_le {p : Byte → Bool} {t : String} (h : (ascii t).all p = true) :
    literal t ≤ (char p)∗ := by
  rintro s rfl
  exact mem_kstar_char (List.all_eq_true.mp h)

theorem upTo_le {l m : Language Byte} (h : l ≤ m∗) (n : Nat) : upTo n l ≤ m∗ :=
  pow_le_kstar (opt_le h) n

theorem isUnreserved_of_isDigit {b : Byte} (h : isDigit b = true) : isUnreserved b = true := by
  simp [isUnreserved, h]

theorem isUnreserved_of_isHexDigit {b : Byte} (h : isHexDigit b = true) :
    isUnreserved b = true := by
  simp only [isHexDigit, Bool.or_eq_true, Bool.and_eq_true, decide_eq_true_eq] at h
  rcases h with (hdigit | ⟨hlo, hhi⟩) | ⟨hlo, hhi⟩
  · exact isUnreserved_of_isDigit hdigit
  · have hupper : isUpper b = true := by
      rw [isUpper, Bool.and_eq_true, decide_eq_true_eq, decide_eq_true_eq]
      exact ⟨hlo, UInt8.le_trans hhi (by decide)⟩
    simp [isUnreserved, hupper]
  · have hlower : isLower b = true := by
      rw [isLower, Bool.and_eq_true, decide_eq_true_eq, decide_eq_true_eq]
      exact ⟨hlo, UInt8.le_trans hhi (by decide)⟩
    simp [isUnreserved, hlower]

/-- Digits and dots. -/
theorem ipv4Address_le : ipv4Address ≤ (char isUnreserved)∗ := by
  have hdigit : digit ≤ (char isUnreserved)∗ := char_le fun _ => isUnreserved_of_isDigit
  have hrange : ∀ {lo hi : Byte}, 48 ≤ lo → hi ≤ 57 → digitOf lo hi ≤ (char isUnreserved)∗ := by
    intro lo hi hlo hhi
    refine char_le fun b hb => isUnreserved_of_isDigit ?_
    rw [inRange, Bool.and_eq_true, decide_eq_true_eq, decide_eq_true_eq] at hb
    rw [isDigit, Bool.and_eq_true, decide_eq_true_eq, decide_eq_true_eq]
    exact ⟨UInt8.le_trans hlo hb.1, UInt8.le_trans hb.2 hhi⟩
  have hdot : literal "." ≤ (char isUnreserved)∗ := literal_le (by decide)
  have hoctet : decOctet ≤ (char isUnreserved)∗ := by
    refine add_le (add_le (add_le (add_le hdigit ?_) ?_) ?_) ?_
    · exact mul_le_kstar (hrange (by decide) (by decide)) hdigit
    · exact mul_le_kstar (mul_le_kstar (literal_le (by decide)) hdigit) hdigit
    · exact mul_le_kstar (mul_le_kstar (literal_le (by decide)) (hrange (by decide) (by decide)))
        hdigit
    · exact mul_le_kstar (literal_le (by decide)) (hrange (by decide) (by decide))
  exact mul_le_kstar (mul_le_kstar (mul_le_kstar (mul_le_kstar (mul_le_kstar (mul_le_kstar hoctet
    hdot) hoctet) hdot) hoctet) hdot) hoctet

theorem hexDigit_le : hexDigit ≤ (char isLiteralChar)∗ :=
  char_le fun b hb => by simp [isLiteralChar, isUnreserved_of_isHexDigit hb]

/-- Hexadecimal digits, colons and dots. -/
theorem ipv6Address_le : ipv6Address ≤ (char isLiteralChar)∗ := by
  have hunreserved : char isUnreserved ≤ (char isLiteralChar)∗ :=
    char_le fun b hb => by simp [isLiteralChar, hb]
  have hcolon : literal ":" ≤ (char isLiteralChar)∗ := literal_le (by decide)
  have hcolons : literal "::" ≤ (char isLiteralChar)∗ := literal_le (by decide)
  have h16 : h16 ≤ (char isLiteralChar)∗ := mul_le_kstar hexDigit_le (upTo_le hexDigit_le 3)
  have hls32 : ls32 ≤ (char isLiteralChar)∗ :=
    add_le (mul_le_kstar (mul_le_kstar h16 hcolon) h16)
      (ipv4Address_le.trans (kstar_le_kstar hunreserved))
  have hpiece : piece ≤ (char isLiteralChar)∗ := mul_le_kstar h16 hcolon
  have hpieces : ∀ n, piece ^ n ≤ (char isLiteralChar)∗ := pow_le_kstar hpiece
  have helided : ∀ n, elided n ≤ (char isLiteralChar)∗ := fun n =>
    mul_le_kstar (opt_le (mul_le_kstar (upTo_le hpiece n) h16)) hcolons
  have htail : ∀ m n, elided m * piece ^ n * ls32 ≤ (char isLiteralChar)∗ := fun m n =>
    mul_le_kstar (mul_le_kstar (helided m) (hpieces n)) hls32
  refine add_le (add_le (add_le (add_le (add_le (add_le (add_le (add_le ?_ ?_) (htail 0 4))
    (htail 1 3)) (htail 2 2)) ?_) ?_) ?_) (helided 6)
  · exact mul_le_kstar (hpieces 6) hls32
  · exact mul_le_kstar (mul_le_kstar hcolons (hpieces 5)) hls32
  · exact mul_le_kstar (mul_le_kstar (helided 3) hpiece) hls32
  · exact mul_le_kstar (helided 4) hls32
  · exact mul_le_kstar (helided 5) h16

theorem ipvFuture_le : ipvFuture ≤ (char isLiteralChar)∗ := by
  have hversion : char (fun b => b == 86 || b == 118) ≤ (char isLiteralChar)∗ := by
    refine char_le fun b hb => ?_
    rw [Bool.or_eq_true, beq_iff_eq, beq_iff_eq] at hb
    rcases hb with rfl | rfl
    · decide
    · decide
  exact mul_le_kstar (mul_le_kstar (mul_le_kstar hversion (plus_le hexDigit_le))
    (literal_le (by decide))) plus_le_kstar

/-- What names and IPv4 addresses are made of. -/
def isNameChar (b : Byte) : Bool := isUnreserved b || isSubDelim b || b == 37

theorem regName_le : regName ≤ (char isNameChar)∗ := by
  have hunreserved : char isUnreserved ≤ (char isNameChar)∗ :=
    char_le fun b hb => by simp [isNameChar, hb]
  have hsub : char isSubDelim ≤ (char isNameChar)∗ :=
    char_le fun b hb => by simp [isNameChar, hb]
  have hhex : hexDigit ≤ (char isNameChar)∗ :=
    char_le fun b hb => by simp [isNameChar, isUnreserved_of_isHexDigit hb]
  have hpct : pctEncoded ≤ (char isNameChar)∗ :=
    mul_le_kstar (mul_le_kstar (literal_le (by decide)) hhex) hhex
  exact kstar_le_kstar (add_le (add_le hunreserved hpct) hsub)

theorem mem_regName {s : Bytes} (h : s.all isUnreserved = true) : s ∈ regName := by
  have hle : (char isUnreserved)∗ ≤ regName := by
    refine kstar_mono ?_
    exact (le_add_of_nonneg_right bot_le).trans (le_add_of_nonneg_right bot_le)
  exact hle (mem_kstar_char (List.all_eq_true.mp h))

/-- **Only a literal has a character in it that names do not have.** -/
theorem exists_literal {h : Bytes} (hhost : h ∈ host) {b : Byte} (hb : b ∈ h)
    (hname : isNameChar b = false) :
    ∃ x, h = 91 :: (x ++ [93]) ∧ ∀ c ∈ x, isLiteralChar c = true := by
  have hnot : h ∉ (char isNameChar)∗ := by
    intro hmem
    rw [forall_of_mem_kstar_char hmem b hb] at hname
    cases hname
  have hunreserved : char isUnreserved ≤ (char isNameChar)∗ :=
    char_le fun b hb => by simp [isNameChar, hb]
  rcases hhost with (hliteral | hipv4) | hreg
  · obtain ⟨_, hopen, _, rfl, rfl⟩ := Language.mem_mul.mp hliteral
    obtain ⟨_, rfl, x, hx, rfl⟩ := Language.mem_mul.mp hopen
    have hx : x ∈ (char isLiteralChar)∗ := add_le ipv6Address_le ipvFuture_le hx
    exact ⟨x, rfl, forall_of_mem_kstar_char hx⟩
  · exact absurd (ipv4Address_le.trans (kstar_le_kstar hunreserved) hipv4) hnot
  · exact absurd (regName_le hreg) hnot

/-- **What is in front of the first colon of a host is no host.** -/
theorem not_mem_host_of_cut {front rest : Bytes} (hhost : front ++ 58 :: rest ∈ host) :
    front ∉ host := by
  intro hfront
  obtain ⟨x, hx, hchars⟩ := exists_literal hhost (b := 58) (by simp) (by decide)
  cases front with
  | nil =>
    obtain ⟨h, -⟩ := List.cons.inj hx
    cases h
  | cons b front =>
    obtain ⟨rfl, -⟩ := List.cons.inj hx
    obtain ⟨y, hy, -⟩ := exists_literal hfront (b := 91) (by simp) (by decide)
    -- The front ends with a bracket, which is in the middle of the literal then.
    rw [hy] at hx
    have hrest : y ++ [93] ++ 58 :: rest = x ++ [93] := (List.cons.inj hx).2
    have hmem : (93 : Byte) ∈ x := by
      have hinit := congrArg List.dropLast hrest
      rw [List.dropLast_concat, List.dropLast_append_of_ne_nil (List.cons_ne_nil _ _)] at hinit
      rw [← hinit]
      simp
    have hbracket := hchars 93 hmem
    cases hbracket

theorem nil_mem_upTo (n : Nat) (l : Language Byte) : [] ∈ upTo n l := by
  induction n with
  | zero => exact Language.nil_mem_one
  | succ n ih =>
    rw [upTo, pow_succ]
    exact Language.append_mem_mul ih nil_mem_opt

/-- Addresses are not empty. -/
theorem nil_not_mem_address : [] ∉ ipLiteral + ipv4Address := by
  have hmul : ∀ {a b : Language Byte}, [] ∈ a * b → [] ∈ a ∧ [] ∈ b := by
    intro a b h
    obtain ⟨x, hx, y, hy, hxy⟩ := Language.mem_mul.mp h
    obtain ⟨rfl, rfl⟩ := List.append_eq_nil_iff.mp hxy
    exact ⟨hx, hy⟩
  rintro (h | h)
  · have hbracket := (hmul h).2
    cases hbracket
  · have hdot := (hmul (hmul h).1).2
    cases hdot

/-- The loopback address, `::1`. -/
theorem loopback_mem : ascii "[::1]" ∈ host := by
  have hcolons : [] ++ ascii "::" ∈ elided 5 := Language.append_mem_mul nil_mem_opt rfl
  have hone : ascii "1" ++ [] ∈ h16 :=
    Language.append_mem_mul (mem_char (by decide)) (nil_mem_upTo 3 hexDigit)
  have haddress : ascii "::" ++ ascii "1" ∈ ipv6Address :=
    .inl (.inr (Language.append_mem_mul hcolons hone))
  have hbrackets : ascii "[" ++ (ascii "::" ++ ascii "1") ++ ascii "]" ∈ ipLiteral :=
    Language.append_mem_mul (Language.append_mem_mul rfl (.inl haddress)) rfl
  exact .inl (.inl hbrackets)

end Rtsp.Uri
