import Bitty.Library.Checks
import Bitty.Library.Text

namespace Bitty.Package

open Text

inductive PackageError
  | manifest (field message : Text)
  | lockfile (message : Text)
  | limitExceeded (field : Text) (limit actual : Nat)
  | incompatible (field message : Text)
  | source (message : Text)
  | duplicate (kind value : Text)
  | notFound (id : Text)
  | generation (message : Text)
  deriving DecidableEq

namespace PackageError

def display : PackageError → Text
  | .manifest field message => "manifest ".toList ++ field ++ ": ".toList ++ message
  | .lockfile message => "lockfile: ".toList ++ message
  | .limitExceeded field limit actual =>
    "limit exceeded ".toList ++ field ++ ": limit ".toList ++ number limit ++ ", actual ".toList ++ number actual
  | .incompatible field message => "incompatible ".toList ++ field ++ ": ".toList ++ message
  | .source message => "source: ".toList ++ message
  | .duplicate kind value => "duplicate ".toList ++ kind ++ ": ".toList ++ value
  | .notFound id => "not found: ".toList ++ id
  | .generation message => "generation: ".toList ++ message

end PackageError

abbrev Check := Except PackageError Unit

def bounded (field : Text) (limit : Nat) (text : Text) : Check :=
  Checks.refuseIf (limit < byteLen text) (.limitExceeded field limit (byteLen text))

@[simp] theorem bounded_ok {field text : Text} {limit : Nat} : bounded field limit text = .ok () ↔ byteLen text ≤ limit := by
  simp [bounded]

end Bitty.Package

namespace Bitty.Package

open Text Checks

def MANIFEST_MAX_BYTES : Nat := 256 * 1024

def MAX_DEPENDENCIES : Nat := 32

def MAX_CAPABILITIES : Nat := 64

def MAX_CAPABILITY_TEXT_BYTES : Nat := 8 * 1024

def MAX_PACKAGE_ID_LEN : Nat := 128

def MAX_NAME_LEN : Nat := 128

def MAX_DESCRIPTION_LEN : Nat := 1024

def MAX_LICENSE_LEN : Nat := 256

def MAX_CAPABILITY_LEN : Nat := 256

def isAsciiWhitespace (c : Char) : Bool := c ∈ [' ', '\t', '\n', '\x0C', '\r']

def isIdentifierChar (c : Char) : Bool := c.isLower ∨ c.isDigit ∨ c = '-' ∨ c = '_'

def validatePackageId (raw : Text) : Check := do
  let field := "package.id".toList
  refuseIf (raw = []) (.manifest field "package id must not be empty".toList)
  bounded field MAX_PACKAGE_ID_LEN raw
  refuseIf (raw.any isWhitespace) (.manifest field "package id must not contain whitespace".toList)
  refuseIf ((raw.splitOn '.').length ≠ 2)
    (.manifest field "package id must be exactly owner.name (one dot)".toList)
  each (fun seg => do
    refuseIf (seg = []) (.manifest field "package id segment must not be empty".toList)
    bounded "package.id.segment".toList 64 seg
    refuseIf (¬seg.head?.any Char.isLower) (.manifest field "segment must start with lowercase letter".toList)
    refuseIf (¬seg.all isIdentifierChar) (.manifest field "segment must be [a-z0-9_-]".toList)) (raw.splitOn '.')

theorem valid_theme : validatePackageId "xuepoo.theme".toList = .ok () := by decide

/-- `owner.name`. -/
structure PackageId where
  asStr : Text
  valid : validatePackageId asStr = .ok ()
  deriving DecidableEq

theorem PackageId.ext {a b : PackageId} (same : a.asStr = b.asStr) : a = b := by
  cases a
  cases b
  cases same
  rfl

def validateSemver (raw field : Text) : Check := do
  let about (problem : String) : PackageError := .manifest field ("version '".toList ++ raw ++ problem.toList)
  refuseIf (raw = []) (.manifest field "version must not be empty".toList)
  bounded field 64 raw
  let parts := (raw.takeWhile fun c => c ≠ '-' ∧ c ≠ '+').splitOn '.'
  refuseIf (parts.length ≠ 3) (about "' must be SemVer X.Y.Z")
  each (fun part => do
    refuseIf (part = []) (about "' has empty numeric component")
    refuseIf (¬part.all Char.isDigit) (about "' numeric components must be digits")
    refuseIf (1 < byteLen part ∧ part.head? = some '0') (about "' must not have leading zeros")) parts
  refuseIf (¬raw.all fun c => c.isAlphanum ∨ c = '.' ∨ c = '-' ∨ c = '+' ∨ c = '_')
    (about "' contains invalid character")

def isRequirementChar (c : Char) : Bool :=
  c.isAlphanum ∨ isAsciiWhitespace c ∨ c ∈ ['.', '-', '+', ',', '<', '>', '=', '^', '~']

def validateVersionReq (raw field : Text) : Check := do
  refuseIf (raw = []) (.manifest field "version requirement must not be empty".toList)
  bounded field 128 raw
  refuseIf (¬raw.all isRequirementChar)
    (.manifest field ("version requirement '".toList ++ raw ++ "' contains invalid character".toList))
  refuseIf ('*' ∈ raw) (.manifest field "wildcard '*' is not allowed in v1".toList)
  refuseIf ('|' ∈ raw) (.manifest field "disjunction '||' is not allowed in v1".toList)
  refuseIf ('&' ∈ raw) (.manifest field "operator '&' is not allowed".toList)

inductive ClosedCapabilityViolation
  | unknownHead
  | paramRequired
  | paramForbidden

/-- The capability heads an installation knows, and whether each requires a parameter. -/
structure CapabilityCatalog where
  heads : Text → Option Bool

def CLOSED_CAPABILITY_HEADS : List Text :=
  ["terminal.semantic-read", "terminal.raw-read", "terminal.input.self", "terminal.input.all", "terminal.input.submit",
    "terminal.manage", "ui.rich", "ui.overlay", "ui.overlay.focus", "ui.present", "ui.protocol-register",
    "clipboard.read", "clipboard.write", "env.read", "fs.read", "fs.write", "process.editor", "process.spawn",
    "network.connect", "runtime.inspect", "runtime.keymaps.read", "runtime.configure", "runtime.plugin-manage",
    "debug.inspect", "debug.trace", "debug.control", "platform.notify", "platform.open-url", "platform.image-file",
    "platform.cpu-read", "platform.memory-read", "platform.battery-read", "platform.network.read",
    "platform.essid.read", "platform.bluetooth.read", "platform.bluetooth.control", "platform.backlight.read",
    "platform.backlight.control", "platform.idle.read", "platform.idle.control", "protocol.register",
    "panel.provider", "panel.create", "panel.focus", "panel.overlay", "browser.embed", "browser.navigation",
    "browser.file-url", "browser.storage", "layout.provider", "workspace.read", "workspace.control",
    "history.transcript.read", "history.commands.read", "history.kv.read", "audio.spectrum", "audio.state.read",
    "audio.state.control", "config.manage"].map String.toList

def capabilityRequiresParam (head : Text) : Bool :=
  head ∈ ["fs.read", "fs.write", "process.spawn", "network.connect", "env.read"].map String.toList

namespace CapabilityCatalog

def core : CapabilityCatalog where
  heads head := if head ∈ CLOSED_CAPABILITY_HEADS then some (capabilityRequiresParam head) else none

def check (catalog : CapabilityCatalog) (head : Text) (hasParam : Bool) : Except ClosedCapabilityViolation Unit :=
  match catalog.heads head with
  | none => .error .unknownHead
  | some true => if hasParam then .ok () else .error .paramRequired
  | some false => if hasParam then .error .paramForbidden else .ok ()

end CapabilityCatalog

def closedViolationError (head : Text) : ClosedCapabilityViolation → PackageError
  | .unknownHead => .manifest "capabilities".toList
    ("unknown capability '".toList ++ head ++ "' (closed set; forward compat requires explicit RFC)".toList)
  | .paramRequired => .manifest "capabilities".toList
    ("capability '".toList ++ head ++ "' requires a ':PARAMETER'".toList)
  | .paramForbidden => .manifest "capabilities".toList
    ("capability '".toList ++ head ++ "' must not have a ':PARAMETER'".toList)

def capabilityHead (raw : Text) : Text := raw.takeWhile (· ≠ ':')

def validateCapabilityWith (catalog : CapabilityCatalog) (raw : Text) : Check := do
  let field := "capabilities".toList
  refuseIf (raw = []) (.manifest field "capability must not be empty".toList)
  bounded field MAX_CAPABILITY_LEN raw
  refuseIf (raw.any fun ch => isControl ch ∨ isWhitespace ch)
    (.manifest field "capability must not contain control characters or whitespace".toList)
  let param := (splitOnce ':' raw).map Prod.snd
  refuseIf ('*' ∈ capabilityHead raw) (.manifest field "wildcards are not allowed in identifier head".toList)
  each (fun p => do
    refuseIf (p = []) (.manifest field "parameter must not be empty".toList)
    bounded "capabilities.param".toList 1024 p) param.toList
  let parts := (capabilityHead raw).splitOn '.'
  refuseIf (parts.length < 2 ∨ 3 < parts.length)
    (.manifest field "capability must be family.resource or family.resource.scope".toList)
  each (fun seg => do
    refuseIf (seg = []) (.manifest field "capability segment must not be empty".toList)
    bounded "capabilities.segment".toList 64 seg
    refuseIf (¬seg.head?.any Char.isLower)
      (.manifest field "capability segment must start with lowercase letter".toList)
    refuseIf (¬seg.all isIdentifierChar) (.manifest field "capability segment must be [a-z0-9_-]".toList)) parts
  (catalog.check (capabilityHead raw) param.isSome).mapError (closedViolationError (capabilityHead raw))

structure CapabilityId where
  asStr : Text
  valid : ∃ catalog, validateCapabilityWith catalog asStr = .ok ()

theorem CapabilityId.ext {a b : CapabilityId} (same : a.asStr = b.asStr) : a = b := by
  cases a
  cases b
  cases same
  rfl

instance : DecidableEq CapabilityId := fun a b =>
  decidable_of_iff (a.asStr = b.asStr) ⟨CapabilityId.ext, congrArg CapabilityId.asStr⟩

structure PackageIdentity where
  id : PackageId
  name : Text
  version : Text
  description : Text
  license : Option Text

def PackageIdentity.validate (identity : PackageIdentity) : Check := do
  validateSemver identity.version "package.version".toList
  refuseIf (trim identity.name = []) (.manifest "package.name".toList "must not be empty or whitespace".toList)
  bounded "package.name".toList MAX_NAME_LEN identity.name
  bounded "package.description".toList MAX_DESCRIPTION_LEN identity.description
  each (fun lic => do
    bounded "package.license".toList MAX_LICENSE_LEN lic
    refuseIf (trim lic = []) (.manifest "package.license".toList "when present must not be empty".toList))
    identity.license.toList

structure Compat where
  bitty : Option Text
  pluginApi : Option Text

def Compat.validate (compat : Compat) : Check := do
  each (validateVersionReq · "compat.bitty".toList) compat.bitty.toList
  each (validateVersionReq · "compat.plugin_api".toList) compat.pluginApi.toList

structure PackageDependency where
  id : PackageId
  versionReq : Text
  prerelease : Bool

def PackageDependency.validate (d : PackageDependency) : Check :=
  validateVersionReq d.versionReq "dependencies.version_req".toList

structure PackageManifest where
  identity : PackageIdentity
  compat : Compat
  dependencies : List PackageDependency
  capabilities : List CapabilityId
  rawBytesLen : Nat
  undeclaredFields : List Text

namespace PackageManifest

def validate (m : PackageManifest) : Check := do
  refuseIf (MANIFEST_MAX_BYTES < m.rawBytesLen) (.limitExceeded "manifest.bytes".toList MANIFEST_MAX_BYTES m.rawBytesLen)
  each (fun unknown => .error (.manifest "manifest".toList ("unknown field '".toList ++ unknown ++ "'".toList)))
    m.undeclaredFields
  m.identity.validate
  m.compat.validate
  refuseIf (MAX_DEPENDENCIES < m.dependencies.length)
    (.limitExceeded "dependencies".toList MAX_DEPENDENCIES m.dependencies.length)
  distinct (·.id.asStr) (fun d => .duplicate "dependency".toList d.id.asStr) PackageDependency.validate
    (fun d => refuseIf (d.id = m.identity.id)
      (.manifest "dependencies".toList "package must not depend on itself".toList)) [] m.dependencies
  refuseIf (MAX_CAPABILITIES < m.capabilities.length)
    (.limitExceeded "capabilities".toList MAX_CAPABILITIES m.capabilities.length)
  distinct CapabilityId.asStr (fun c => .duplicate "capability".toList c.asStr) (fun _ => .ok ()) (fun _ => .ok ()) []
    m.capabilities
  let totalText := (m.capabilities.map fun c => byteLen c.asStr).sum
  refuseIf (MAX_CAPABILITY_TEXT_BYTES < totalText)
    (.limitExceeded "capabilities.text".toList MAX_CAPABILITY_TEXT_BYTES totalText)

end PackageManifest

end Bitty.Package
