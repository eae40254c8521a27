import Mathlib.Algebra.GroupWithZero.Nat
import Nagi.Lib.Text

/-! Identifiers and resource scopes of `nagi-capability`.

Only the scopes of the filesystem form a hierarchy. The address parser of the standard library is a parameter of the
scope check. -/

namespace Nagi.Capability

open Lib

def maxIdentifierBytes : Nat := 128

def isAsciiLowercase (char : Char) : Bool := 'a' ≤ char ∧ char ≤ 'z'

def isAsciiDigit (char : Char) : Bool := '0' ≤ char ∧ char ≤ '9'

def isAsciiAlphanumeric (char : Char) : Bool :=
  isAsciiLowercase char ∨ ('A' ≤ char ∧ char ≤ 'Z') ∨ isAsciiDigit char

inductive IdentifierError where
  | empty
  | tooLong
  | invalidNamespace
  | invalidCharacter
  deriving DecidableEq

variable (value : String)

def validateLength : Except IdentifierError Unit :=
  if value = "" then .error .empty
  else if value.utf8ByteSize > maxIdentifierBytes then .error .tooLong
  else .ok ()

def validNamespaceSegment : List Char → Bool
  | [] => false
  | first :: rest => isAsciiLowercase first && rest.all fun char =>
      isAsciiLowercase char || isAsciiDigit char || char = '-'

def validateCapabilityId : Except IdentifierError Unit := do
  validateLength value
  match value.toList.splitOn '.' with
  | [] => .error .invalidNamespace
  | first :: segments =>
    if !validNamespaceSegment first || segments.isEmpty then .error .invalidNamespace
    else if segments.any fun segment => !validNamespaceSegment segment then .error .invalidNamespace
    else .ok ()

def validatePrincipalId : Except IdentifierError Unit := do
  validateLength value
  match value.toList with
  | [] => .error .empty
  | first :: chars =>
    if !isAsciiLowercase first && !isAsciiDigit first then .error .invalidCharacter
    else if chars.any fun char => !(isAsciiLowercase char || isAsciiDigit char || char ∈ ['.', '_', ':', '/', '-']) then
      .error .invalidCharacter
    else .ok ()

def validateSessionId : Except IdentifierError Unit := do
  validateLength value
  match value.toList with
  | [] => .error .empty
  | first :: chars =>
    if !isAsciiAlphanumeric first ||
        chars.any fun char => !(isAsciiAlphanumeric char || char ∈ ['.', '_', ':', '-']) then
      .error .invalidCharacter
    else .ok ()

structure CapabilityId where
  value : String
  valid : validateCapabilityId value = .ok ()
  deriving DecidableEq

structure PrincipalId where
  value : String
  valid : validatePrincipalId value = .ok ()
  deriving DecidableEq

structure SessionId where
  value : String
  valid : validateSessionId value = .ok ()
  deriving DecidableEq

inductive CapabilityScope where
  | unscoped
  | filesystem (path : String)
  | networkOrigin (origin : String)
  | deviceClass (class_ : String)
  | modelProvider (provider : String)
  | automationTarget (target : String)
  | opaqueScope (namespace_ : CapabilityId) (resource : String)
  deriving DecidableEq

inductive ScopeError where
  | invalidFilesystemPath
  | invalidNetworkOrigin
  | invalidScopeToken
  deriving DecidableEq

def ScopeError.toText : ScopeError → String
  | .invalidFilesystemPath => "filesystem paths must be normalized absolute logical paths without dot segments"
  | .invalidNetworkOrigin =>
    "network origins must be canonical lowercase HTTP(S) origins without credentials or path"
  | .invalidScopeToken =>
    "scope values must be non-empty, bounded, and contain no wildcard or control characters"

def validLogicalPath (path : String) : Bool :=
  if path = "" ∨ path.utf8ByteSize > 1024 ∨ path.toList.head? ≠ some '/' ∨ '\\' ∈ path.toList then false
  else if path ≠ "/" ∧ path.toList.getLast? = some '/' then false
  else if path.toList.any Text.isControl then false
  else path = "/" ∨ ((path.toList.splitOn '/').drop 1).all fun segment =>
    segment ≠ [] ∧ segment ≠ ['.'] ∧ segment ≠ ['.', '.']

/-- `str::parse::<u16>`. -/
def parseU16 (text : List Char) : Option Nat :=
  let digits : List Char := match text with
    | '+' :: rest => rest
    | other => other
  let number : Nat := digits.foldl (fun number digit => 10 * number + (digit.toNat - '0'.toNat)) 0
  if digits ≠ [] ∧ digits.all isAsciiDigit ∧ number < 2 ^ 16 then some number else none

def validPort (port : List Char) : Bool :=
  match parseU16 port with
  | some number => 0 < number ∧ port = (toString number).toList
  | none => false

def validHost (host : List Char) : Bool :=
  (host.splitOn '.').all fun label =>
    label ≠ [] ∧ label.head? ≠ some '-' ∧ label.getLast? ≠ some '-' ∧
      label.all fun char => isAsciiLowercase char || isAsciiDigit char || char = '-'

section
variable (isIpv6Addr : List Char → Bool)

def validBracketed (authority : List Char) : Bool :=
  match Text.splitOnce [']'] authority with
  | none => false
  | some (opened, suffix) =>
    if !isIpv6Addr (opened.drop 1) then false
    else
      match suffix with
      | [] => true
      | ':' :: port => validPort port
      | _ => false

def validNamed (authority : List Char) : Bool :=
  match Text.splitOnce [':'] authority with
  | some (host, port) =>
    if ':' ∈ port then false else validDotted host && validPort port
  | none => validDotted authority
where
  validDotted (host : List Char) : Bool :=
    if host = [] ∨ host.head? = some '.' ∨ host.getLast? = some '.' ∨ (Text.splitOnce ['.', '.'] host).isSome then false
    else validHost host

def validCanonicalOrigin (origin : String) : Bool :=
  match Text.splitOnce [':', '/', '/'] origin.toList with
  | none => false
  | some (scheme, authority) =>
    if (scheme ≠ "http".toList ∧ scheme ≠ "https".toList) ∨ authority = [] ∨
        (String.ofList authority).utf8ByteSize > 512 ∨ authority.any fun char => char ∈ ['/', '?', '#', '@'] then
      false
    else if authority.head? = some '[' then validBracketed isIpv6Addr authority
    else validNamed authority

def validateScopeToken : Except ScopeError Unit :=
  if value = "" ∨ value.utf8ByteSize > 256 ∨
      value.toList.any fun char => Text.isControl char || Text.isWhitespace char || char = '*' || char = '?' then
    .error .invalidScopeToken
  else .ok ()

namespace CapabilityScope

def validate : CapabilityScope → Except ScopeError Unit
  | .unscoped => .ok ()
  | .filesystem path => if validLogicalPath path then .ok () else .error .invalidFilesystemPath
  | .networkOrigin origin => if validCanonicalOrigin isIpv6Addr origin then .ok () else .error .invalidNetworkOrigin
  | .deviceClass value | .modelProvider value | .automationTarget value | .opaqueScope _ value =>
    validateScopeToken value

/-- Only filesystem scopes have hierarchical matching. -/
def covers : CapabilityScope → CapabilityScope → Bool
  | .filesystem grant, .filesystem request =>
    grant = request ∨ grant = "/" ∨
      (grant.toList.isPrefixOf request.toList ∧ (request.toList.drop grant.toList.length).head? = some '/')
  | granted, requested => granted = requested

def specificity : CapabilityScope → Nat
  | .filesystem path => path.utf8ByteSize
  | .unscoped => 0
  | _ => 2 ^ 64 - 1

end CapabilityScope
end

/-- The names on the way from the root to a path. -/
def components (path : String) : List (List Char) :=
  if path = "/" then [] else (path.toList.splitOn '/').drop 1

theorem exists_rest {path : String} (valid : validLogicalPath path = true) : ∃ rest, path.toList = '/' :: rest := by
  unfold validLogicalPath at valid
  split at valid
  · cases valid
  · next shape =>
    rw [not_or, not_or, not_or, not_not] at shape
    exact List.head?_eq_some_iff.mp shape.2.2.1

theorem components_eq {path : String} {rest : List Char} (proper : path ≠ "/") (chars : path.toList = '/' :: rest) :
    components path = rest.splitOn '/' := by
  rw [components, if_neg proper, chars]
  have split := Text.splitOn_append_cons [] rest '/'
  rw [List.nil_append] at split
  rfl

/-- A path covers itself, everything if it is the root, and what lies below it. -/
theorem covers_filesystem_iff (grant request : String) :
    (CapabilityScope.filesystem grant).covers (.filesystem request) = true ↔
      grant = request ∨ grant = "/" ∨ ∃ rest, request.toList = grant.toList ++ '/' :: rest := by
  rw [← Text.prefix_then_iff]
  simp only [CapabilityScope.covers, decide_eq_true_eq]

theorem covers_iff_components {grant request : String} (validGrant : validLogicalPath grant = true)
    (validRequest : validLogicalPath request = true) :
    (CapabilityScope.filesystem grant).covers (.filesystem request) = true ↔
      components grant <+: components request := by
  obtain ⟨first, grantChars⟩ := exists_rest validGrant
  obtain ⟨second, requestChars⟩ := exists_rest validRequest
  rw [covers_filesystem_iff]
  by_cases rootGrant : grant = "/"
  · simp [rootGrant, components]
  by_cases rootRequest : request = "/"
  · subst rootRequest
    have parts := components_eq rootGrant grantChars
    have nonempty := List.splitOn_ne_nil '/' first
    constructor
    · rintro (same | same | ⟨rest, longer⟩)
      · exact absurd same rootGrant
      · exact absurd same rootGrant
      · rw [grantChars] at longer
        simp at longer
    · intro initial
      rw [parts, components, if_pos rfl, List.prefix_nil] at initial
      exact absurd initial nonempty
  · rw [components_eq rootGrant grantChars, components_eq rootRequest requestChars, Text.splitOn_prefix_iff,
      grantChars, requestChars, ← String.toList_inj, grantChars, requestChars]
    simp only [rootGrant, false_or, List.cons_append, List.cons.injEq, true_and, @eq_comm _ first]

end Nagi.Capability
