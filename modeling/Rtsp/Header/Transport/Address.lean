import Rtsp.Header.Transport.Host

/-!
# Addresses of transports

`Address` of `header/types/transport/address.rs`: a host and a port, or else an
extension. The code cuts at the first colon, which is in the middle of an IPv6
literal; what it then takes for the host is none, and the address becomes an
extension (`recognised_iff`). Hosts and ports are read by `uriparse`.

What `uriparse` and the standard library contribute is in a class (`HostOps`), with the
laws that the result asks for (`LawfulHosts`): hosts are those of the grammar, which is
in `Transport.Host`. The regular expression for an extension is written out as a
function over characters.

That the cut is at the first colon is right for names and for IPv4 addresses, which have
no colon in them, and for an address that is a host without a port. What is in front of
the first colon of a literal is never a host, so a literal cannot be taken for another
host; it ends up as an extension, in lower case.
-/

namespace Rtsp

open Syntax

/-- The characters of `QDTEXT_REGEX`, behind its start. A backslash goes with a quotation mark or
    with another backslash. -/
def isQdtextChars : List Nat → Bool
  | [] => true
  | [c] => isQdtextChar c
  | c :: d :: cs =>
    if c = 92 then (d == 34 || d == 92) && isQdtextChars cs
    else isQdtextChar c && isQdtextChars (d :: cs)
where
  /-- `[ !#-\\[\\]-~]|[^[:ascii:]]` -/
  isQdtextChar (c : Nat) : Bool :=
    c == 32 || c == 33 || (35 ≤ c && c ≤ 91) || (93 ≤ c && c ≤ 126) || !isAscii c

/-- `syntax::is_qdtext` -/
def isQdtext (value : Bytes) : Bool :=
  match fromUtf8 value with
  | some cs => isQdtextChars cs
  | none => false

/-- What is called of `uriparse`, which does not say why it refuses here, and
    `str::to_lowercase`. -/
class HostOps (Host : outParam Type) where
  /-- `Host::try_from` -/
  tryFrom : Bytes → Option Host
  /-- The name of a `Host::RegisteredName` -/
  registeredName : Host → Option Bytes
  /-- `authority::parse_port` -/
  parsePort : Bytes → Option (Option Nat)
  toLowercase : Bytes → Bytes

structure HostPort (Host : Type) where
  host : Option Host
  port : Option Nat

inductive Address (Host : Type) where
  | extension (value : Bytes)
  | hostPort (hostPort : HostPort Host)

/-- `AddressError` -/
inductive AddressError where
  | addressError

def COLON : Byte := 58

def u16Max : Nat := 2 ^ 16 - 1

namespace Address

section Code

variable {Host : Type} [HostOps Host]

/-- `Address::extension` -/
def ofExtension (value : Bytes) : Fallible AddressError (Address Host) :=
  if !isQdtext value then .error (.error .addressError)
  else .ok (.extension (HostOps.toLowercase value))

/-- The parts in front of the first colon and behind it. -/
def cut (value : Bytes) : Rust (Bytes × Option Bytes) :=
  match value.findIdx? (· == COLON) with
  | some i => do
    let host ← slice value 0 i
    let port ← sliceFrom value (i + 1)
    return (host, some port)
  | none => .ok (value, none)

/-- `Address::try_from` -/
def tryFrom (value : Bytes) : Fallible AddressError (Address Host) := do
  let (host, port) ← Fallible.call (cut value)
  match HostOps.tryFrom host with
  | none => ofExtension value
  | some host =>
    let host := if HostOps.registeredName host = some [] then none else some host
    match port with
    | some port =>
      match HostOps.parsePort port with
      | some port => return .hostPort ⟨host, port⟩
      | none => ofExtension value
    | none => return .hostPort ⟨host, none⟩

end Code

/-! ## Where the value is cut -/

theorem findIdx?_of_not_mem {value : Bytes} (h : COLON ∉ value) :
    value.findIdx? (· == COLON) = none := by
  rw [List.findIdx?_eq_none_iff]
  intro b hb
  exact beq_false_of_ne fun hcolon => h (hcolon ▸ hb)

theorem cut_of_not_mem {value : Bytes} (h : COLON ∉ value) : cut value = .ok (value, none) := by
  rw [cut, findIdx?_of_not_mem h]

theorem cut_append {front : Bytes} (rest : Bytes) (h : COLON ∉ front) :
    cut (front ++ COLON :: rest) = .ok (front, some rest) := by
  have hsome : (front ++ COLON :: rest).findIdx? (· == COLON) = some front.length := by
    rw [List.findIdx?_append, findIdx?_of_not_mem h, List.findIdx?_cons]
    simp
  have hhost : slice (front ++ COLON :: rest) 0 front.length = .ok front := by
    rw [slice_zero (by simp), List.take_left]
  have hport : sliceFrom (front ++ COLON :: rest) (front.length + 1) = .ok rest := by
    rw [sliceFrom_of_le (by simp)]
    simp
  rw [cut, hsome]
  dsimp only
  rw [hhost, hport]
  rfl

/-! ## What is recognised -/

/-- What is assumed of `uriparse`: it reads the hosts of RFC 3986 and no others, the registered name
    that is empty is the empty text, and a port in decimals is read as the number. -/
structure LawfulHosts {Host : Type} (ops : HostOps Host) : Prop where
  tryFrom_iff : ∀ s, (∃ x, ops.tryFrom s = some x) ↔ s ∈ Uri.host
  registeredName_iff : ∀ s x, ops.tryFrom s = some x → (ops.registeredName x = some [] ↔ s = [])
  parsePort_toDecimal : ∀ p, p ≤ u16Max → ops.parsePort (toDecimal p) = some (some p)

section Recognised

variable {Host : Type} [ops : HostOps Host]

/-- The address is a host and a port. An empty host is none. -/
def ReadsAs (value h : Bytes) (port : Option Nat) : Prop :=
  ∃ x, HostOps.tryFrom h = some x ∧
    tryFrom value = .ok (.hostPort ⟨if h = [] then none else some x, port⟩)

/-- The host is recognised on its own and with any port behind it. -/
def Recognised (h : Bytes) : Prop :=
  ReadsAs h h none ∧ ∀ p, p ≤ u16Max → ReadsAs (h ++ COLON :: toDecimal p) h (some p)

theorem ofExtension_ne (value : Bytes) (x : HostPort Host) :
    ofExtension value ≠ .ok (.hostPort x) := by
  intro h
  unfold ofExtension at h
  split at h
  · cases h
  · cases h

/-- A value whose front is no host is no host and port either. -/
theorem tryFrom_ne_of_cut {value front : Bytes} {port : Option Bytes}
    (hcut : cut value = .ok (front, port)) (hfront : HostOps.tryFrom front = none)
    (x : HostPort Host) : tryFrom value ≠ .ok (.hostPort x) := by
  have htry : tryFrom value = ofExtension value := by
    rw [tryFrom, hcut, Fallible.call, ok_bind]
    dsimp only
    rw [hfront]
  rw [htry]
  exact ofExtension_ne value x

theorem hostPort_host (hlaw : LawfulHosts ops) {h : Bytes} {x : Host}
    (hx : HostOps.tryFrom h = some x) :
    (if HostOps.registeredName x = some [] then none else some x) =
      if h = [] then none else some x :=
  if_congr (hlaw.registeredName_iff h x hx) rfl rfl

theorem readsAs_host (hlaw : LawfulHosts ops) {h : Bytes} (hhost : h ∈ Uri.host)
    (hcolon : COLON ∉ h) : ReadsAs h h none := by
  obtain ⟨x, hx⟩ := (hlaw.tryFrom_iff h).mpr hhost
  refine ⟨x, hx, ?_⟩
  rw [tryFrom, cut_of_not_mem hcolon, Fallible.call, ok_bind]
  dsimp only
  rw [hx, ← hostPort_host hlaw hx]
  rfl

theorem readsAs_hostPort (hlaw : LawfulHosts ops) {h : Bytes} (hhost : h ∈ Uri.host)
    (hcolon : COLON ∉ h) {p : Nat} (hp : p ≤ u16Max) :
    ReadsAs (h ++ COLON :: toDecimal p) h (some p) := by
  obtain ⟨x, hx⟩ := (hlaw.tryFrom_iff h).mpr hhost
  refine ⟨x, hx, ?_⟩
  rw [tryFrom, cut_append _ hcolon, Fallible.call, ok_bind]
  dsimp only
  rw [hx, ← hostPort_host hlaw hx]
  dsimp only
  rw [hlaw.parsePort_toDecimal p hp]
  rfl

/-- A host with a colon in it is cut there. -/
theorem not_recognised (hlaw : LawfulHosts ops) {h : Bytes} (hhost : h ∈ Uri.host)
    (hcolon : COLON ∈ h) : ¬ Recognised h := by
  rintro ⟨⟨x, -, hread⟩, -⟩
  obtain ⟨front, rest, rfl, hfront⟩ := List.eq_append_cons_of_mem hcolon
  have hnone : HostOps.tryFrom front = none := by
    rw [Option.eq_none_iff_forall_ne_some]
    intro y hy
    exact Uri.not_mem_host_of_cut hhost ((hlaw.tryFrom_iff front).mp ⟨y, hy⟩)
  exact tryFrom_ne_of_cut (cut_append rest hfront) hnone _ hread

/-- **A host is recognised exactly if there is no colon in it.** -/
theorem recognised_iff (hlaw : LawfulHosts ops) {h : Bytes} (hhost : h ∈ Uri.host) :
    Recognised h ↔ COLON ∉ h := by
  constructor
  · intro hrecognised hcolon
    exact not_recognised hlaw hhost hcolon hrecognised
  · intro hcolon
    exact ⟨readsAs_host hlaw hhost hcolon, fun p hp => readsAs_hostPort hlaw hhost hcolon hp⟩

end Recognised

/-! ## The rules themselves -/

open Classical in
/-- Hosts that are read by the rules. -/
@[reducible] noncomputable def byRules : HostOps {h : Bytes // h ∈ Uri.host} where
  tryFrom s := if h : s ∈ Uri.host then some ⟨s, h⟩ else none
  registeredName x := if x.1 ∈ Uri.ipLiteral + Uri.ipv4Address then none else some x.1
  parsePort ds := if ds = [] then some none else (parseDigits u16Max 0 ds).toOption.map some
  toLowercase s := s.map toAsciiLowercase

theorem byRules_tryFrom_iff {s : Bytes} {x : {h : Bytes // h ∈ Uri.host}} :
    byRules.tryFrom s = some x ↔ x.1 = s := by
  constructor
  · intro h
    by_cases hs : s ∈ Uri.host
    · rw [show byRules.tryFrom s = _ from dif_pos hs] at h
      cases h
      rfl
    · rw [show byRules.tryFrom s = _ from dif_neg hs] at h
      cases h
  · rintro rfl
    exact dif_pos x.2

theorem byRules_registeredName_iff {x : {h : Bytes // h ∈ Uri.host}} :
    byRules.registeredName x = some [] ↔ x.1 = [] := by
  constructor
  · intro h
    by_cases haddress : x.1 ∈ Uri.ipLiteral + Uri.ipv4Address
    · rw [show byRules.registeredName x = _ from if_pos haddress] at h
      cases h
    · rw [show byRules.registeredName x = _ from if_neg haddress] at h
      exact Option.some.inj h
  · intro h
    have haddress : x.1 ∉ Uri.ipLiteral + Uri.ipv4Address := by
      rw [h]
      exact Uri.nil_not_mem_address
    rw [show byRules.registeredName x = _ from if_neg haddress, h]

theorem byRules_lawful : LawfulHosts byRules where
  tryFrom_iff s := by
    constructor
    · rintro ⟨x, hx⟩
      rw [← byRules_tryFrom_iff.mp hx]
      exact x.2
    · intro hs
      exact ⟨⟨s, hs⟩, byRules_tryFrom_iff.mpr rfl⟩
  registeredName_iff s x hx := by
    rw [byRules_registeredName_iff, byRules_tryFrom_iff.mp hx]
  parsePort_toDecimal p hp := by
    have hparse := parseDigits_toDecimal p hp
    show (if toDecimal p = [] then _ else (parseDigits u16Max 0 (toDecimal p)).toOption.map some) =
      some (some p)
    rw [if_neg (toDecimal_ne_nil p), hparse]
    rfl

theorem recognised_iff_name : @Recognised _ byRules (ascii "rtsp.example") := by
  have hname : ascii "rtsp.example" ∈ Uri.regName := Uri.mem_regName (by decide)
  exact (@recognised_iff _ byRules byRules_lawful _ (.inr hname)).mpr (by decide)

/-- The loopback address is a host that is not recognised. -/
theorem loopback_unrecognised :
    ascii "[::1]" ∈ Uri.host ∧ ¬ @Recognised _ byRules (ascii "[::1]") :=
  ⟨Uri.loopback_mem, @not_recognised _ byRules byRules_lawful _ Uri.loopback_mem (by decide)⟩

end Address
end Rtsp
