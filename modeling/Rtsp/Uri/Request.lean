import Rtsp.Rust

/-!
# Request URIs

`URI` and `Builder` of `uri/request.rs`. The components are those of `uriparse`, of
which the code calls the operations of `Uriparse`. A method that has `&mut self`
returns the new value, with what it returns beside it.

`uriparse` is not in the repository, so its types are parameters and its functions are
fields of a structure, each with the name of what it stands for. Nothing is assumed of
them here. Where the code calls an `expect` or `unwrap` on what they return, the model
can panic, and whether it does depends on the laws (`Uri.Invariant`).

The asterisk has no components, as in the source, and setters leave it as it is. A
mapper is handed the component, and a sentinel stands in its place meanwhile; the
sentinels are made by parsing, and that they can be made is one of the laws.
-/

namespace Rtsp

/-- `uriparse::Scheme`, of which the code knows three. -/
inductive Scheme where
  | rtsp
  | rtsps
  | rtspu
  | other (name : Bytes)
  deriving DecidableEq

/-- `uriparse::URIReference`. Of the fragment the code only asks whether there is one. -/
structure URIReference (Authority Path Query : Type) where
  scheme : Option Scheme
  authority : Option Authority
  path : Path
  query : Option Query
  hasFragment : Bool

/-- `URIReferenceError`, with the errors of the components. -/
inductive URIReferenceError (E : Type) where
  | authority (error : E)
  | fragment (error : E)
  | missingPath
  | path (error : E)
  | query (error : E)
  | scheme (error : E)
  | other

/-- What is called of `uriparse`. -/
structure Uriparse (Authority Path Query E : Type) where
  /-- `Authority::try_from` and `Path::try_from` -/
  authorityTryFrom : Bytes → Option Authority
  pathTryFrom : Bytes → Option Path
  /-- The name of the host, if it is a `Host::RegisteredName` -/
  registeredName : Authority → Option Bytes
  port : Authority → Option Nat
  setPort : Authority → Option Nat → Authority
  normalizeAuthority : Authority → Authority
  authorityIsNormalized : Authority → Bool
  segments : Path → List Bytes
  setAbsolute : Path → Bool → Path
  /-- `Path::normalize` and `Path::is_normalized`, whose argument is `as_reference` -/
  normalizePath : Bool → Path → Path
  pathIsNormalized : Bool → Path → Bool
  normalizeQuery : Query → Query
  queryIsNormalized : Query → Bool
  /-- `URIReference::try_from` and `URIReference::from_parts`, without a fragment -/
  referenceTryFrom : Bytes → Except (URIReferenceError E) (URIReference Authority Path Query)
  referenceFromParts : Scheme → Authority → Path → Option Query →
    Except (URIReferenceError E) (URIReference Authority Path Query)

structure Components (Authority Path Query : Type) where
  scheme : Scheme
  authority : Authority
  path : Path
  query : Option Query

/-- The asterisk has no components. -/
structure URI (Authority Path Query : Type) where
  components : Option (Components Authority Path Query)

inductive URIError (E : Type) where
  | authority (error : E)
  | emptyHost
  | fragmentNotAllowed
  | invalidRelativeReference
  | missingAuthority
  | missingPath
  | missingScheme
  | nonRTSPScheme
  | path (error : E)
  | query (error : E)
  | scheme (error : E)

/-- `TryFrom<URIReferenceError>` -/
def URIError.tryFrom {E : Type} : URIReferenceError E → Option (URIError E)
  | .authority error => some (.authority error)
  | .fragment _ => some .fragmentNotAllowed
  | .missingPath => some .missingPath
  | .path error => some (.path error)
  | .query error => some (.query error)
  | .scheme error => some (.scheme error)
  | .other => none

def rtspDefaultPort : Nat := 554

def rtspsDefaultPort : Nat := 332

def rtspuDefaultPort : Nat := 554

namespace URI

variable {Authority Path Query E : Type}

def asterisk : URI Authority Path Query := ⟨none⟩

def isAsterisk (uri : URI Authority Path Query) : Bool := uri.components.isNone

def authority (uri : URI Authority Path Query) : Option Authority :=
  uri.components.map (·.authority)

def query (uri : URI Authority Path Query) : Option Query := uri.components.bind (·.query)

def scheme (uri : URI Authority Path Query) : Option Scheme := uri.components.map (·.scheme)

def defaultPort (uri : URI Authority Path Query) : Rust (Option Nat) :=
  match uri.scheme with
  | none => .ok none
  | some .rtsp => .ok (some rtspDefaultPort)
  | some .rtsps => .ok (some rtspsDefaultPort)
  | some .rtspu => .ok (some rtspuDefaultPort)
  | some (.other _) => .error (.expect "unexpected request URI scheme")

variable (ops : Uriparse Authority Path Query E)

/-- `URI::path`, which is `ASTERISK_PATH` for the asterisk -/
def path (uri : URI Authority Path Query) : Rust Path :=
  match uri.components with
  | some components => .ok components.path
  | none => expect "expected asterisk path to be valid" (ops.pathTryFrom (ascii "*"))

/-! ## Setters -/

def setAuthority (uri : URI Authority Path Query) (authority : Authority) :
    URI Authority Path Query × Except (URIError E) (Option Authority) :=
  if ops.registeredName authority = some [] then (uri, .error .emptyHost)
  else
    let uri := ⟨uri.components.map fun components => { components with authority }⟩
    (uri, .ok uri.authority)

def setPath (uri : URI Authority Path Query) (path : Path) :
    Rust (URI Authority Path Query × Path) := do
  let uri : URI Authority Path Query :=
    ⟨uri.components.map fun components => { components with path := ops.setAbsolute path true }⟩
  let path ← uri.path ops
  return (uri, path)

def setQuery (uri : URI Authority Path Query) (query : Option Query) :
    URI Authority Path Query × Option Query :=
  let uri := ⟨uri.components.map fun components => { components with query }⟩
  (uri, uri.query)

def setScheme (uri : URI Authority Path Query) (scheme : Scheme) :
    URI Authority Path Query × Except (URIError E) (Option Scheme) :=
  if scheme ≠ .rtsp ∧ scheme ≠ .rtsps ∧ scheme ≠ .rtspu then (uri, .error .nonRTSPScheme)
  else
    let uri := ⟨uri.components.map fun components => { components with scheme }⟩
    (uri, .ok uri.scheme)

/-! ## Mappers

The mapper is given the component, in whose place there is a sentinel until the setter is called. -/

def mapAuthority (uri : URI Authority Path Query) (mapper : Authority → Authority) :
    Rust (URI Authority Path Query × Option Authority) :=
  match uri.components with
  | some components => do
    let sentinel ← expect "expected sentinel authority to be valid" (ops.authorityTryFrom [])
    let authority := mapper components.authority
    match setAuthority ops ⟨some { components with authority := sentinel }⟩ authority with
    | (uri, .ok authority) => return (uri, authority)
    | (_, .error _) => .error (.expect "mapped authority resulted in invalid state")
  | none => return (uri, uri.authority)

def mapPath (uri : URI Authority Path Query) (mapper : Path → Path) :
    Rust (URI Authority Path Query × Path) :=
  match uri.components with
  | some components => do
    let sentinel ← expect "expected sentinel path to be valid" (ops.pathTryFrom [])
    let path := mapper components.path
    setPath ops ⟨some { components with path := sentinel }⟩ path
  | none => do
    let path ← uri.path ops
    return (uri, path)

def mapQuery (uri : URI Authority Path Query) (mapper : Option Query → Option Query) :
    URI Authority Path Query × Option Query :=
  match uri.components with
  | some components => setQuery ⟨some { components with query := none }⟩ (mapper components.query)
  | none => (uri, uri.query)

def mapScheme (uri : URI Authority Path Query) (mapper : Scheme → Scheme) :
    Rust (URI Authority Path Query × Option Scheme) :=
  match uri.components with
  | some components =>
    match setScheme (E := E) uri (mapper components.scheme) with
    | (uri, .ok scheme) => return (uri, scheme)
    | (_, .error _) => .error (.expect "mapped scheme resulted in invalid state")
  | none => return (uri, uri.scheme)

/-! ## Normalization -/

/-- The port is there, and is the default port, which is asked for only then. -/
def isDefaultPort (port : Option Nat) (defaultPort : Rust (Option Nat)) : Rust Bool :=
  match port with
  | some port => do
    let defaultPort ← expect "expected default port for URI" (← defaultPort)
    return port == defaultPort
  | none => return false

def isNormalized (uri : URI Authority Path Query) : Rust Bool :=
  match uri.components with
  | some components => do
    if ← isDefaultPort (ops.port components.authority) uri.defaultPort then return false
    if components.query.any fun query => !ops.queryIsNormalized query then return false
    return ops.authorityIsNormalized components.authority &&
      ops.pathIsNormalized false components.path
  | none => return true

def normalize (uri : URI Authority Path Query) : Rust (URI Authority Path Query) := do
  let defaultPort ← uri.defaultPort
  match uri.components with
  | some components =>
    let components : Components Authority Path Query := { components with
      authority := ops.normalizeAuthority components.authority
      path := ops.normalizePath false components.path
      query := components.query.map ops.normalizeQuery }
    if ← isDefaultPort (ops.port components.authority) (.ok defaultPort) then
      return ⟨some { components with authority := ops.setPort components.authority none }⟩
    else return ⟨some components⟩
  | none => return uri

/-! ## Constructors -/

/-- `TryFrom<URIReference>` -/
def tryFromReference (value : URIReference Authority Path Query) :
    Fallible (URIError E) (URI Authority Path Query) :=
  if value.hasFragment then .error (.error .fragmentNotAllowed)
  else if value.scheme.isSome && value.authority.isNone then .error (.error .missingAuthority)
  else if value.scheme.isNone && value.authority.isSome then .error (.error .missingScheme)
  else if value.scheme.isNone then
    let segments := ops.segments value.path
    if segments.length != 1 || segments.head? != some (ascii "*") || value.query.isSome then
      .error (.error .invalidRelativeReference)
    else .ok asterisk
  else do
    let scheme ← Fallible.call (expect "expected a scheme" value.scheme)
    if scheme ≠ .rtsp ∧ scheme ≠ .rtsps ∧ scheme ≠ .rtspu then .error (.error .nonRTSPScheme)
    else do
      let authority ← Fallible.call (expect "expected a host" value.authority)
      if ops.registeredName authority = some [] then .error (.error .emptyHost)
      else do
        let scheme ← Fallible.call (expect "expected a scheme" value.scheme)
        let authority ← Fallible.call (expect "expected an authority" value.authority)
        return ⟨some ⟨scheme, authority, value.path, value.query⟩⟩

/-- What is made of a reference, or of the error there is instead. -/
def ofReference (value : Except (URIReferenceError E) (URIReference Authority Path Query)) :
    Fallible (URIError E) (URI Authority Path Query) :=
  match value with
  | .ok value => tryFromReference ops value
  | .error error =>
    match URIError.tryFrom error with
    | some error => .error (.error error)
    | none => .error (.panic (.expect "unexpected URI reference error"))

/-- `URI::try_from` -/
def tryFrom (value : Bytes) : Fallible (URIError E) (URI Authority Path Query) :=
  ofReference ops (ops.referenceTryFrom value)

/-- `Builder` -/
structure Builder (Authority Path Query : Type) where
  authority : Option Authority
  path : Option Path
  query : Option Query
  scheme : Option Scheme

/-- `Builder::build` -/
def build (builder : Builder Authority Path Query) :
    Fallible (URIError E) (URI Authority Path Query) :=
  match builder.scheme, builder.authority, builder.path with
  | none, _, _ => .error (.error .missingScheme)
  | some _, none, _ => .error (.error .missingAuthority)
  | some _, some _, none => .error (.error .missingPath)
  | some scheme, some authority, some path =>
    ofReference ops (ops.referenceFromParts scheme authority path builder.query)

def fromParts (scheme : Scheme) (authority : Authority) (path : Path) (query : Option Query) :
    Fallible (URIError E) (URI Authority Path Query) :=
  build ops ⟨some authority, some path, query, some scheme⟩

end URI
end Rtsp
