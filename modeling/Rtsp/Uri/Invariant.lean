import Rtsp.Lib.Trans
import Rtsp.Syntax
import Rtsp.Uri.Request

/-!
# What holds of every request URI

A request URI is the asterisk, or has one of the three schemes and a host. Each way
to make one checks that, and each way to change one keeps it (`Valid`). That the
default port is there, and that normalizing leaves a normalized URI, follow from it.

The invariant is about the scheme and the host. Paths and queries may be anything
`uriparse` allows, and the port too. What the code does not check, because `uriparse`
does, is not in it.

A mapper of the caller can return anything. A setter that is given an invalid component
returns an error and leaves the URI as it was; a mapper cannot return an error, and the
code panics instead. So a run of mutators is one in which the calls return, with or
without an error, and the mappers that would panic are told by a condition on what they
return.

The laws are what the documentation of `uriparse` says of the operations that the code
calls. They are assumed for normalizing and for the sentinels; that a constructor makes
a valid URI needs none of them.
-/

namespace Rtsp

open Lib

variable {Authority Path Query E : Type}

/-- What is assumed of `uriparse`: the sentinels are valid, the port that is removed is gone and
    nothing else is, and what is normalized is normalized and stays as it is. -/
structure Uriparse.Lawful (ops : Uriparse Authority Path Query E) : Prop where
  authority_empty : ∃ authority, ops.authorityTryFrom [] = some authority
  path_empty : ∃ path, ops.pathTryFrom [] = some path
  path_asterisk : ∃ path, ops.pathTryFrom (ascii "*") = some path
  port_setPort : ∀ a, ops.port (ops.setPort a none) = none
  registeredName_setPort : ∀ a, ops.registeredName (ops.setPort a none) = ops.registeredName a
  /-- Removing the port preserves normalization. -/
  isNormalized_setPort : ∀ a, ops.authorityIsNormalized a = true →
    ops.authorityIsNormalized (ops.setPort a none) = true
  normalize_setPort : ∀ a, ops.normalizeAuthority a = a →
    ops.normalizeAuthority (ops.setPort a none) = ops.setPort a none
  authority_isNormalized : ∀ a, ops.authorityIsNormalized (ops.normalizeAuthority a) = true
  authority_idem : ∀ a, ops.normalizeAuthority (ops.normalizeAuthority a) = ops.normalizeAuthority a
  authority_host : ∀ a, ops.registeredName a ≠ some [] →
    ops.registeredName (ops.normalizeAuthority a) ≠ some []
  path_isNormalized : ∀ p, ops.pathIsNormalized false (ops.normalizePath false p) = true
  path_idem : ∀ p, ops.normalizePath false (ops.normalizePath false p) = ops.normalizePath false p
  query_isNormalized : ∀ q, ops.queryIsNormalized (ops.normalizeQuery q) = true
  query_idem : ∀ q, ops.normalizeQuery (ops.normalizeQuery q) = ops.normalizeQuery q

/-- The schemes of RTSP. -/
def Scheme.IsRtsp (scheme : Scheme) : Prop :=
  scheme = .rtsp ∨ scheme = .rtsps ∨ scheme = .rtspu

theorem Scheme.not_isRtsp_iff {scheme : Scheme} :
    (scheme ≠ .rtsp ∧ scheme ≠ .rtsps ∧ scheme ≠ .rtspu) ↔ ¬ scheme.IsRtsp := by
  rw [IsRtsp, not_or, not_or]

/-- The scheme is one of RTSP, and the host is not empty. -/
structure Components.Valid (ops : Uriparse Authority Path Query E)
    (components : Components Authority Path Query) : Prop where
  scheme : components.scheme.IsRtsp
  host : ops.registeredName components.authority ≠ some []

namespace URI

/-- The asterisk, or components that are valid. -/
def Valid (ops : Uriparse Authority Path Query E) (uri : URI Authority Path Query) : Prop :=
  ∀ components, uri.components = some components → components.Valid ops

variable {ops : Uriparse Authority Path Query E} {components : Components Authority Path Query}

theorem valid_asterisk : Valid ops asterisk := fun _ h => by cases h

theorem valid_some (h : components.Valid ops) : Valid ops ⟨some components⟩ := by
  rintro _ ⟨rfl⟩
  exact h

/-! ## Normalization -/

/-- **There is a default port** where the scheme is one of RTSP. -/
theorem exists_defaultPort (h : components.scheme.IsRtsp) :
    ∃ port, defaultPort ⟨some components⟩ = .ok (some port) := by
  rw [defaultPort, scheme]
  rcases h with h | h | h
  all_goals
    simp [h]

/-- The port is removed if it is the default port. -/
def removeDefaultPort (ops : Uriparse Authority Path Query E) (port : Nat) (a : Authority) :
    Authority :=
  if ops.port a = some port then ops.setPort a none else a

theorem removeDefaultPort_self {port : Nat} {a : Authority} (h : ops.port a ≠ some port) :
    removeDefaultPort ops port a = a := if_neg h

theorem isDefaultPort_eq (port : Option Nat) (defaultPort : Nat) :
    isDefaultPort port (.ok (some defaultPort)) = .ok (decide (port = some defaultPort)) := by
  cases port with
  | none => rfl
  | some port =>
    show Except.ok (port == defaultPort) = _
    simp
    rfl

/-- The components in normal form, without the port if it is the default port. -/
def normalized (ops : Uriparse Authority Path Query E) (port : Nat)
    (components : Components Authority Path Query) : Components Authority Path Query where
  scheme := components.scheme
  authority := removeDefaultPort ops port (ops.normalizeAuthority components.authority)
  path := ops.normalizePath false components.path
  query := components.query.map ops.normalizeQuery

theorem normalize_some {port : Nat} (hport : defaultPort ⟨some components⟩ = .ok (some port)) :
    normalize ops ⟨some components⟩ = .ok ⟨some (normalized ops port components)⟩ := by
  rw [normalize, hport, ok_bind]
  dsimp only
  rw [isDefaultPort_eq, ok_bind, normalized, removeDefaultPort]
  by_cases h : ops.port (ops.normalizeAuthority components.authority) = some port
  · rw [if_pos h, if_pos (decide_eq_true h)]
    rfl
  · rw [if_neg h, if_neg (by simpa using h)]
    rfl

theorem isNormalized_some {port : Nat} (hport : defaultPort ⟨some components⟩ = .ok (some port))
    (hne : ops.port components.authority ≠ some port)
    (hquery : ∀ q, components.query = some q → ops.queryIsNormalized q = true)
    (hauthority : ops.authorityIsNormalized components.authority = true)
    (hpath : ops.pathIsNormalized false components.path = true) :
    isNormalized ops ⟨some components⟩ = .ok true := by
  have hany : (components.query.any fun query => !ops.queryIsNormalized query) = false := by
    cases hq : components.query with
    | none => rfl
    | some q => simp [hquery q hq]
  rw [isNormalized]
  dsimp only
  rw [hport, isDefaultPort_eq, ok_bind, decide_eq_false hne, if_neg Bool.false_ne_true, hany,
    if_neg Bool.false_ne_true, hauthority, hpath]
  rfl

section RemoveDefaultPort

variable (hlaws : ops.Lawful) (port : Nat) (a : Authority)

include hlaws

theorem port_removeDefaultPort : ops.port (removeDefaultPort ops port a) ≠ some port := by
  rw [removeDefaultPort]
  split
  · rw [hlaws.port_setPort]
    exact Option.some_ne_none port |>.symm
  · next h => exact h

theorem isNormalized_removeDefaultPort (h : ops.authorityIsNormalized a = true) :
    ops.authorityIsNormalized (removeDefaultPort ops port a) = true := by
  rw [removeDefaultPort]
  split
  · exact hlaws.isNormalized_setPort a h
  · exact h

theorem normalize_removeDefaultPort (h : ops.normalizeAuthority a = a) :
    ops.normalizeAuthority (removeDefaultPort ops port a) = removeDefaultPort ops port a := by
  rw [removeDefaultPort]
  split
  · exact hlaws.normalize_setPort a h
  · exact h

theorem host_removeDefaultPort (h : ops.registeredName a ≠ some []) :
    ops.registeredName (removeDefaultPort ops port a) ≠ some [] := by
  rw [removeDefaultPort]
  split
  · rwa [hlaws.registeredName_setPort]
  · exact h

theorem valid_normalized (h : components.Valid ops) : (normalized ops port components).Valid ops :=
  ⟨h.scheme, host_removeDefaultPort hlaws port _ (hlaws.authority_host _ h.host)⟩

theorem normalized_idem :
    normalized ops port (normalized ops port components) = normalized ops port components := by
  have hauthority := normalize_removeDefaultPort hlaws port _
    (hlaws.authority_idem components.authority)
  have hport := port_removeDefaultPort hlaws port (ops.normalizeAuthority components.authority)
  have hquery : (components.query.map ops.normalizeQuery).map ops.normalizeQuery =
      components.query.map ops.normalizeQuery := by
    cases components.query with
    | none => rfl
    | some q => exact congrArg some (hlaws.query_idem q)
  simp only [normalized, hauthority, removeDefaultPort_self hport, hlaws.path_idem, hquery]

end RemoveDefaultPort

/-- **Normalizing leaves a normalized URI**, at which it changes nothing. -/
theorem exists_normalize (hlaws : ops.Lawful) (h : components.Valid ops) :
    ∃ components', normalize ops ⟨some components⟩ = .ok ⟨some components'⟩ ∧
      components'.Valid ops ∧ isNormalized ops ⟨some components'⟩ = .ok true ∧
      normalize ops ⟨some components'⟩ = .ok ⟨some components'⟩ := by
  obtain ⟨port, hport⟩ := exists_defaultPort h.scheme
  have hport' : defaultPort ⟨some (normalized ops port components)⟩ = .ok (some port) := hport
  refine ⟨_, normalize_some hport, valid_normalized hlaws port h,
    isNormalized_some hport' ?_ ?_ ?_ ?_, ?_⟩
  · exact port_removeDefaultPort hlaws port (ops.normalizeAuthority components.authority)
  · intro q hq
    obtain ⟨q, -, rfl⟩ := Option.map_eq_some_iff.mp hq
    exact hlaws.query_isNormalized q
  · exact isNormalized_removeDefaultPort hlaws port _ (hlaws.authority_isNormalized _)
  · exact hlaws.path_isNormalized components.path
  · rw [normalize_some hport', normalized_idem hlaws port]

/-! ## Constructors -/

/-- A call of a constructor. -/
inductive Construction (Authority Path Query : Type) where
  | asterisk
  | builder (b : Builder Authority Path Query)
  | bytes (value : Bytes)
  | parts (scheme : Scheme) (authority : Authority) (path : Path) (query : Option Query)
  /-- A `GenericURI` is made a reference. -/
  | reference (value : URIReference Authority Path Query)

def Construction.make (ops : Uriparse Authority Path Query E) :
    Construction Authority Path Query → Fallible (URIError E) (URI Authority Path Query)
  | .asterisk => .ok URI.asterisk
  | .builder b => build ops b
  | .bytes value => tryFrom ops value
  | .parts scheme authority path query => fromParts ops scheme authority path query
  | .reference value => tryFromReference ops value

variable {uri uri' : URI Authority Path Query}

theorem valid_tryFromReference {value : URIReference Authority Path Query}
    (h : tryFromReference ops value = .ok uri) : uri.Valid ops := by
  unfold tryFromReference at h
  split at h
  · cases h
  split at h
  · cases h
  split at h
  · cases h
  split at h
  · dsimp only at h
    split at h
    · cases h
    · cases h
      exact valid_asterisk
  cases hscheme : value.scheme with
  | none =>
    rw [hscheme] at h
    cases h
  | some scheme =>
    cases hauthority : value.authority with
    | none =>
      -- Such a reference has been turned down.
      next hmissing _ _ =>
        rw [hscheme, hauthority] at hmissing
        exact absurd rfl hmissing
    | some authority =>
      simp only [hscheme, hauthority, expect, Fallible.call, ok_bind] at h
      split at h
      · cases h
      next hrtsp =>
        split at h
        · cases h
        next hhost =>
          cases h
          exact valid_some ⟨not_not.mp (Scheme.not_isRtsp_iff.not.mp hrtsp), hhost⟩

theorem valid_ofReference
    {value : Except (URIReferenceError E) (URIReference Authority Path Query)}
    (h : ofReference ops value = .ok uri) : uri.Valid ops := by
  cases value with
  | ok value => exact valid_tryFromReference h
  | error error =>
    rw [ofReference] at h
    split at h <;> cases h

theorem valid_build {builder : Builder Authority Path Query} (h : build ops builder = .ok uri) :
    uri.Valid ops := by
  rw [build] at h
  split at h
  iterate 3 cases h
  exact valid_ofReference h

/-- **Every constructor makes a valid URI.** -/
theorem Construction.valid {make : Construction Authority Path Query}
    (h : make.make ops = .ok uri) : uri.Valid ops := by
  cases make with
  | asterisk =>
    cases h
    exact valid_asterisk
  | builder b => exact valid_build h
  | bytes value => exact valid_ofReference h
  | parts scheme authority path query =>
    rw [make, fromParts] at h
    exact valid_build h
  | reference value => exact valid_tryFromReference h

/-! ## Mutators -/

theorem exists_path_asterisk (hlaws : ops.Lawful) :
    ∃ path, URI.path ops asterisk = .ok path := by
  obtain ⟨path, hpath⟩ := hlaws.path_asterisk
  refine ⟨path, ?_⟩
  show expect _ (ops.pathTryFrom (ascii "*")) = _
  rw [hpath]
  rfl

theorem setAuthority_ok {authority : Authority} (h : ops.registeredName authority ≠ some []) :
    setAuthority ops ⟨some components⟩ authority =
      (⟨some { components with authority }⟩, .ok (some authority)) := if_neg h

theorem setAuthority_error {authority : Authority} (h : ops.registeredName authority = some []) :
    setAuthority ops uri authority = (uri, .error .emptyHost) := if_pos h

theorem setScheme_ok {scheme : Scheme} (h : scheme.IsRtsp) :
    setScheme (E := E) ⟨some components⟩ scheme =
      (⟨some { components with scheme }⟩, .ok (some scheme)) :=
  if_neg (Scheme.not_isRtsp_iff.not.mpr (not_not.mpr h))

theorem setScheme_error {scheme : Scheme} (h : ¬ scheme.IsRtsp) :
    setScheme (E := E) uri scheme = (uri, .error .nonRTSPScheme) :=
  if_pos (Scheme.not_isRtsp_iff.mpr h)

theorem mapAuthority_some (hlaws : ops.Lawful) {mapper : Authority → Authority}
    (h : ops.registeredName (mapper components.authority) ≠ some []) :
    mapAuthority ops ⟨some components⟩ mapper =
      .ok (⟨some { components with authority := mapper components.authority }⟩,
        some (mapper components.authority)) := by
  obtain ⟨sentinel, hsentinel⟩ := hlaws.authority_empty
  rw [mapAuthority]
  dsimp only
  rw [hsentinel, expect, ok_bind, setAuthority_ok h]
  rfl

theorem mapPath_some (hlaws : ops.Lawful) (mapper : Path → Path) :
    mapPath ops ⟨some components⟩ mapper =
      .ok (⟨some { components with path := ops.setAbsolute (mapper components.path) true }⟩,
        ops.setAbsolute (mapper components.path) true) := by
  obtain ⟨sentinel, hsentinel⟩ := hlaws.path_empty
  rw [mapPath]
  dsimp only
  rw [hsentinel, expect, ok_bind]
  rfl

theorem mapScheme_some {mapper : Scheme → Scheme} (h : (mapper components.scheme).IsRtsp) :
    mapScheme (E := E) ⟨some components⟩ mapper =
      .ok (⟨some { components with scheme := mapper components.scheme }⟩,
        some (mapper components.scheme)) := by
  rw [mapScheme]
  dsimp only
  rw [setScheme_ok h]
  rfl

theorem exists_setPath_asterisk (hlaws : ops.Lawful) (p : Path) :
    ∃ path, setPath ops asterisk p = .ok (asterisk, path) := by
  obtain ⟨path, hpath⟩ := exists_path_asterisk hlaws
  refine ⟨path, ?_⟩
  show URI.path ops asterisk >>= _ = _
  rw [hpath]
  rfl

theorem exists_mapPath_asterisk (hlaws : ops.Lawful) (mapper : Path → Path) :
    ∃ path, mapPath ops asterisk mapper = .ok (asterisk, path) := by
  obtain ⟨path, hpath⟩ := exists_path_asterisk hlaws
  refine ⟨path, ?_⟩
  show URI.path ops asterisk >>= _ = _
  rw [hpath]
  rfl

/-- A call of a mutator. -/
inductive Mutation (Authority Path Query : Type) where
  | setAuthority (authority : Authority)
  | setPath (path : Path)
  | setQuery (query : Option Query)
  | setScheme (scheme : Scheme)
  | mapAuthority (mapper : Authority → Authority)
  | mapPath (mapper : Path → Path)
  | mapQuery (mapper : Option Query → Option Query)
  | mapScheme (mapper : Scheme → Scheme)
  | normalize

namespace Mutation

/-- What the call makes of the URI. What else it returns is left out. -/
def apply (ops : Uriparse Authority Path Query E) (uri : URI Authority Path Query) :
    Mutation Authority Path Query → Rust (URI Authority Path Query)
  | .setAuthority authority => .ok (uri.setAuthority ops authority).1
  | .setPath path => Prod.fst <$> uri.setPath ops path
  | .setQuery query => .ok (uri.setQuery query).1
  | .setScheme scheme => .ok (uri.setScheme (E := E) scheme).1
  | .mapAuthority mapper => Prod.fst <$> uri.mapAuthority ops mapper
  | .mapPath mapper => Prod.fst <$> uri.mapPath ops mapper
  | .mapQuery mapper => .ok (uri.mapQuery mapper).1
  | .mapScheme mapper => Prod.fst <$> uri.mapScheme (E := E) mapper
  | .normalize => uri.normalize ops

/-- A mapper returns what the setter accepts. -/
def Accepted (ops : Uriparse Authority Path Query E) (uri : URI Authority Path Query) :
    Mutation Authority Path Query → Prop
  | .mapAuthority mapper => ∀ components, uri.components = some components →
      ops.registeredName (mapper components.authority) ≠ some []
  | .mapScheme mapper => ∀ components, uri.components = some components →
      (mapper components.scheme).IsRtsp
  | _ => True

/-- **The asterisk is left as it is.** -/
theorem apply_asterisk (hlaws : ops.Lawful) (mutation : Mutation Authority Path Query) :
    mutation.apply ops asterisk = .ok asterisk := by
  cases mutation with
  | setAuthority authority =>
    rw [apply, URI.setAuthority]
    split <;> rfl
  | setPath p =>
    obtain ⟨path, heq⟩ := exists_setPath_asterisk hlaws p
    rw [apply, heq]
    rfl
  | setScheme scheme =>
    rw [apply, URI.setScheme]
    split <;> rfl
  | mapPath mapper =>
    obtain ⟨path, heq⟩ := exists_mapPath_asterisk hlaws mapper
    rw [apply, heq]
    rfl
  | setQuery | mapAuthority | mapQuery | mapScheme | normalize => rfl

/-- **Valid components stay valid**, and no call panics. -/
theorem apply_some (hlaws : ops.Lawful) (h : components.Valid ops)
    {mutation : Mutation Authority Path Query} (hm : mutation.Accepted ops ⟨some components⟩) :
    ∃ components', mutation.apply ops ⟨some components⟩ = .ok ⟨some components'⟩ ∧
      components'.Valid ops := by
  cases mutation with
  | setAuthority authority =>
    by_cases hhost : ops.registeredName authority = some []
    · refine ⟨components, ?_, h⟩
      rw [apply, setAuthority_error hhost]
    · refine ⟨{ components with authority }, ?_, h.scheme, hhost⟩
      rw [apply, setAuthority_ok hhost]
  | setPath p => exact ⟨_, rfl, h.scheme, h.host⟩
  | setQuery query => exact ⟨_, rfl, h.scheme, h.host⟩
  | setScheme scheme =>
    by_cases hrtsp : scheme.IsRtsp
    · refine ⟨{ components with scheme }, ?_, hrtsp, h.host⟩
      rw [apply, setScheme_ok hrtsp]
    · refine ⟨components, ?_, h⟩
      rw [apply, setScheme_error hrtsp]
  | mapAuthority mapper =>
    have hhost := hm components rfl
    refine ⟨{ components with authority := mapper components.authority }, ?_, h.scheme, hhost⟩
    rw [apply, mapAuthority_some hlaws hhost]
    rfl
  | mapPath mapper =>
    refine ⟨{ components with path := ops.setAbsolute (mapper components.path) true }, ?_, h.scheme,
      h.host⟩
    rw [apply, mapPath_some hlaws mapper]
    rfl
  | mapQuery mapper => exact ⟨_, rfl, h.scheme, h.host⟩
  | mapScheme mapper =>
    have hrtsp := hm components rfl
    refine ⟨{ components with scheme := mapper components.scheme }, ?_, hrtsp, h.host⟩
    rw [apply, mapScheme_some hrtsp]
    rfl
  | normalize =>
    obtain ⟨components', heq, hvalid, -⟩ := exists_normalize hlaws h
    exact ⟨components', heq, hvalid⟩

/-- The mutator was called, and has returned. -/
def Step (ops : Uriparse Authority Path Query E) (uri : URI Authority Path Query)
    (mutation : Mutation Authority Path Query) (uri' : URI Authority Path Query) : Prop :=
  mutation.Accepted ops uri ∧ mutation.apply ops uri = .ok uri'

/-- Every mutator returns, and leaves a valid URI. -/
theorem exists_apply (hlaws : ops.Lawful) (h : uri.Valid ops)
    {mutation : Mutation Authority Path Query} (hm : mutation.Accepted ops uri) :
    ∃ uri', mutation.apply ops uri = .ok uri' ∧ uri'.Valid ops := by
  rcases uri with ⟨_ | components⟩
  · exact ⟨asterisk, apply_asterisk hlaws mutation, valid_asterisk⟩
  · obtain ⟨components', heq, h'⟩ := apply_some hlaws (h components rfl) hm
    exact ⟨⟨some components'⟩, heq, valid_some h'⟩

theorem Step.valid (hlaws : ops.Lawful) {mutation : Mutation Authority Path Query}
    (hstep : Step ops uri mutation uri') (h : uri.Valid ops) : uri'.Valid ops := by
  obtain ⟨hm, happly⟩ := hstep
  obtain ⟨_, heq, h'⟩ := exists_apply hlaws h hm
  cases heq.symm.trans happly
  exact h'

end Mutation

/-! ## Runs -/

/-- What is to hold of a URI at any time. -/
structure Sound (ops : Uriparse Authority Path Query E) (uri : URI Authority Path Query) :
    Prop where
  valid : uri.Valid ops
  defaultPort : ∃ port, uri.defaultPort = .ok port
  normalize : ∃ uri', uri.normalize ops = .ok uri' ∧ uri'.isNormalized ops = .ok true ∧
    uri'.normalize ops = .ok uri'
  mutation : ∀ mutation : Mutation Authority Path Query, mutation.Accepted ops uri →
    ∃ uri', mutation.apply ops uri = .ok uri'
  asterisk : uri = asterisk → ∀ mutation : Mutation Authority Path Query,
    mutation.apply ops uri = .ok uri
  /-- The setters that can fail -/
  setAuthority : ∀ authority uri' error, uri.setAuthority ops authority = (uri', .error error) →
    uri' = uri
  setScheme : ∀ scheme uri' (error : URIError E), uri.setScheme scheme = (uri', .error error) →
    uri' = uri

theorem eq_of_setAuthority_error {authority : Authority} {error : URIError E}
    (h : uri.setAuthority ops authority = (uri', .error error)) : uri' = uri := by
  by_cases hhost : ops.registeredName authority = some []
  · rw [setAuthority_error hhost] at h
    exact (congrArg Prod.fst h).symm
  · rw [setAuthority, if_neg hhost] at h
    cases congrArg Prod.snd h

theorem eq_of_setScheme_error {scheme : Scheme} {error : URIError E}
    (h : uri.setScheme scheme = (uri', .error error)) : uri' = uri := by
  by_cases hrtsp : scheme.IsRtsp
  · rw [setScheme, if_neg (Scheme.not_isRtsp_iff.not.mpr (not_not.mpr hrtsp))] at h
    cases congrArg Prod.snd h
  · rw [setScheme_error hrtsp] at h
    exact (congrArg Prod.fst h).symm

/-- **A valid URI is sound.** -/
theorem Valid.sound (hlaws : ops.Lawful) (h : uri.Valid ops) : uri.Sound ops where
  valid := h
  defaultPort := by
    rcases uri with ⟨_ | components⟩
    · exact ⟨none, rfl⟩
    · obtain ⟨port, hport⟩ := exists_defaultPort (h components rfl).scheme
      exact ⟨some port, hport⟩
  normalize := by
    rcases uri with ⟨_ | components⟩
    · exact ⟨URI.asterisk, rfl, rfl, rfl⟩
    · obtain ⟨components', heq, -, hrest⟩ := exists_normalize hlaws (h components rfl)
      exact ⟨⟨some components'⟩, heq, hrest⟩
  mutation mutation hm := by
    obtain ⟨uri', heq, -⟩ := Mutation.exists_apply hlaws h hm
    exact ⟨uri', heq⟩
  asterisk := by
    rintro rfl mutation
    exact mutation.apply_asterisk hlaws
  setAuthority _ _ _ := eq_of_setAuthority_error
  setScheme _ _ _ := eq_of_setScheme_error

/-- **Whatever is made, and whatever is called of it**, the URI is sound. -/
theorem sound_of_run (hlaws : ops.Lawful) {make : Construction Authority Path Query}
    {mutations : List (Mutation Authority Path Query)} (hmake : make.make ops = .ok uri)
    (hrun : Run (Mutation.Step ops) uri mutations uri') : uri'.Sound ops := by
  have hvalid : uri'.Valid ops := hrun.invariant (Construction.valid hmake) fun _ _ _ h hstep =>
    hstep.valid hlaws h
  exact hvalid.sound hlaws

/-- `uriparse` where the authority is a name, perhaps with a port, and the path is the root. -/
def named : Uriparse (Bytes × Option Nat) Bytes Bytes Unit where
  authorityTryFrom name := some (name, none)
  pathTryFrom path := some path
  registeredName authority := some authority.1
  port authority := authority.2
  setPort authority port := (authority.1, port)
  normalizeAuthority authority := (authority.1.map Syntax.toAsciiLowercase, authority.2)
  authorityIsNormalized authority := authority.1.map Syntax.toAsciiLowercase == authority.1
  segments path := [path]
  setAbsolute path _ := path
  normalizePath _ path := path
  pathIsNormalized _ _ := true
  normalizeQuery query := query
  queryIsNormalized _ := true
  referenceTryFrom _ := .error .other
  referenceFromParts scheme authority path query :=
    .ok ⟨some scheme, some authority, path, query, false⟩

theorem named_lawful : named.Lawful where
  authority_empty := ⟨_, rfl⟩
  path_empty := ⟨_, rfl⟩
  path_asterisk := ⟨_, rfl⟩
  port_setPort _ := rfl
  registeredName_setPort _ := rfl
  isNormalized_setPort _ h := h
  normalize_setPort a h := by
    have hname : a.1.map Syntax.toAsciiLowercase = a.1 := congrArg Prod.fst h
    exact congrArg (·, none) hname
  authority_isNormalized a := beq_iff_eq.mpr (Syntax.map_toAsciiLowercase_idem a.1)
  authority_idem a := congrArg (·, a.2) (Syntax.map_toAsciiLowercase_idem a.1)
  authority_host a h := by
    simpa [named] using h
  path_isNormalized _ := rfl
  path_idem _ := rfl
  query_isNormalized _ := rfl
  query_idem _ := rfl

theorem sound_of_run_normalize : Sound named
    ⟨some ⟨.rtsp, (ascii "example.com", none), ascii "/", none⟩⟩ := by
  have hmake : Construction.make named
      (.parts .rtsp (ascii "Example.com", some 554) (ascii "/") none) =
      .ok ⟨some ⟨.rtsp, (ascii "Example.com", some 554), ascii "/", none⟩⟩ := rfl
  have hscheme : Mutation.Step named
      ⟨some ⟨.rtsp, (ascii "Example.com", some 554), ascii "/", none⟩⟩
      (.setScheme (.other (ascii "http")))
      ⟨some ⟨.rtsp, (ascii "Example.com", some 554), ascii "/", none⟩⟩ := ⟨trivial, rfl⟩
  have hnormalize : Mutation.Step named
      ⟨some ⟨.rtsp, (ascii "Example.com", some 554), ascii "/", none⟩⟩ .normalize
      ⟨some ⟨.rtsp, (ascii "example.com", none), ascii "/", none⟩⟩ := ⟨trivial, rfl⟩
  exact sound_of_run named_lawful hmake ((Run.start.snoc hscheme).snoc hnormalize)

end URI
end Rtsp
