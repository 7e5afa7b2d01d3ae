import Bitty.Library.Pattern
import Bitty.Package.Manifest

namespace Bitty.Plugin

inductive PluginError
  | capability (id reason : Text)
  | invalidPluginId (id reason : Text)
  | limitExceeded (field : Text) (limit actual : Nat)
  | duplicate (kind value : Text)
  | notFound (id : Text)
  | grant (message : Text)
  | event (message : Text)
  deriving DecidableEq

open Text

def PluginError.display : PluginError → Text
  | .capability id reason => "capability '".toList ++ id ++ "': ".toList ++ reason
  | .invalidPluginId id reason => "plugin id '".toList ++ id ++ "': ".toList ++ reason
  | .limitExceeded field limit actual =>
    field ++ ": limit ".toList ++ number limit ++ " exceeded (actual ".toList ++ number actual ++ ")".toList
  | .duplicate kind value => "duplicate ".toList ++ kind ++ ": '".toList ++ value ++ "'".toList
  | .notFound id => "plugin not found: '".toList ++ id ++ "'".toList
  | .grant message => "grant: ".toList ++ message
  | .event message => "event: ".toList ++ message

end Bitty.Plugin

namespace Bitty.Plugin

open Text Checks

open Bitty.Package (CapabilityCatalog ClosedCapabilityViolation capabilityHead isIdentifierChar)

/-- What `CapabilityFamily::parse` knows. -/
def CAPABILITY_FAMILIES : List Text :=
  ["terminal", "ui", "clipboard", "env", "fs", "process", "network", "runtime", "debug", "platform", "protocol", "panel",
    "browser", "layout", "workspace", "history", "audio", "config"].map String.toList

def validateSegment (raw seg : Text) : Except PluginError Unit := do
  refuseIf (seg = []) (.capability raw "empty capability segment".toList)
  refuseIf (64 < byteLen seg) (.capability raw "capability segment too long (max 64)".toList)
  refuseIf (¬seg.head?.any Char.isLower) (.capability raw "capability segment must start with lowercase letter".toList)
  refuseIf (¬seg.all isIdentifierChar) (.capability raw "capability segment must be [a-z0-9_-]".toList)

def closedViolation (raw head : Text) : ClosedCapabilityViolation → PluginError
  | .unknownHead => .capability raw
    ("unknown capability '".toList ++ head ++ "' (closed set; forward compat requires explicit RFC)".toList)
  | .paramRequired => .capability raw ("capability '".toList ++ head ++ "' requires a ':PARAMETER'".toList)
  | .paramForbidden => .capability raw ("capability '".toList ++ head ++ "' must not have a ':PARAMETER'".toList)

/-- `CapabilityId::parse_impl`. -/
def validateCapability (catalog : CapabilityCatalog) (raw : Text) : Except PluginError Unit := do
  refuseIf (raw = []) (.capability raw "capability must not be empty".toList)
  refuseIf (512 < byteLen raw) (.capability raw "capability id too long (max 512)".toList)
  refuseIf (raw.any fun ch => isControl ch ∨ isWhitespace ch)
    (.capability raw "capability must not contain control characters or whitespace".toList)
  let head := capabilityHead raw
  let param := (splitOnce ':' raw).map Prod.snd
  refuseIf ('*' ∈ head) (.capability raw "wildcards are not allowed (deny-by-default, no allow-all)".toList)
  each (fun p => do
    refuseIf (p = []) (.capability raw "parameter must not be empty".toList)
    refuseIf (1024 < byteLen p) (.capability raw "parameter too long (max 1024)".toList)) param.toList
  let parts := head.splitOn '.'
  refuseIf (parts.length < 2 ∨ 3 < parts.length)
    (.capability raw "capability must be family.resource or family.resource.scope".toList)
  each (validateSegment raw) parts
  refuseIf (parts.headD [] ∉ CAPABILITY_FAMILIES)
    (.capability raw ("unknown family '".toList ++ parts.headD [] ++ "'".toList))
  (catalog.check head param.isSome).mapError (closedViolation raw head)

structure CapabilityId where
  asStr : Text
  valid : ∃ catalog, validateCapability catalog asStr = .ok ()

namespace CapabilityId

theorem ext {a b : CapabilityId} (same : a.asStr = b.asStr) : a = b := by
  cases a
  cases b
  cases same
  rfl

instance : DecidableEq CapabilityId := fun a b => decidable_of_iff (a.asStr = b.asStr) ⟨ext, congrArg asStr⟩

def parseWith (catalog : CapabilityCatalog) (raw : Text) : Except PluginError CapabilityId :=
  match known : validateCapability catalog raw with
  | .ok () => .ok ⟨raw, catalog, known⟩
  | .error e => .error e

def parse (raw : Text) : Except PluginError CapabilityId := parseWith .core raw

theorem asStr_of_parse {raw : Text} {c : CapabilityId} (parsed : parse raw = .ok c) : c.asStr = raw := by
  unfold parse parseWith at parsed
  split at parsed
  next => rw [← Except.ok.inj parsed]
  next => cases parsed

theorem asStr_injective : Function.Injective asStr := fun _ _ => ext

end CapabilityId

def inOrder (caps : Finset CapabilityId) : List CapabilityId :=
  TextSet.inOrder CapabilityId.asStr CapabilityId.asStr_injective caps

@[simp] theorem mem_inOrder {caps : Finset CapabilityId} {c : CapabilityId} : c ∈ inOrder caps ↔ c ∈ caps :=
  TextSet.mem_inOrder

end Bitty.Plugin

namespace Bitty.Plugin

open Text Checks

open Bitty.Package (isIdentifierChar)

def MAX_PLUGIN_ID_LEN : Nat := 128

def validatePluginId (raw : Text) : Except PluginError Unit := do
  refuseIf (raw = []) (.invalidPluginId raw "plugin id must not be empty".toList)
  refuseIf (MAX_PLUGIN_ID_LEN < byteLen raw) (.invalidPluginId raw "plugin id too long (max 128)".toList)
  refuseIf (raw.any isWhitespace) (.invalidPluginId raw "plugin id must not contain whitespace".toList)
  let parts := raw.splitOn '.'
  refuseIf (parts.length ≠ 2) (.invalidPluginId raw "plugin id must be exactly owner.name (one dot)".toList)
  each (fun seg => do
    refuseIf (seg = []) (.invalidPluginId raw "plugin id segment must not be empty".toList)
    refuseIf (64 < byteLen seg) (.invalidPluginId raw "plugin id segment too long (max 64)".toList)
    refuseIf (¬seg.head?.any Char.isLower) (.invalidPluginId raw "segment must start with lowercase letter".toList)
    refuseIf (¬seg.all isIdentifierChar) (.invalidPluginId raw "segment must be [a-z0-9_-]".toList)) parts

/-- `owner.name`. -/
structure PluginId where
  asStr : Text
  valid : validatePluginId asStr = .ok ()

namespace PluginId

theorem ext {a b : PluginId} (same : a.asStr = b.asStr) : a = b := by
  cases a
  cases b
  cases same
  rfl

instance : DecidableEq PluginId := fun a b => decidable_of_iff (a.asStr = b.asStr) ⟨ext, congrArg asStr⟩

def new (raw : Text) : Except PluginError PluginId :=
  match known : validatePluginId raw with
  | .ok () => .ok ⟨raw, known⟩
  | .error e => .error e

theorem asStr_of_new {raw : Text} {id : PluginId} (made : new raw = .ok id) : id.asStr = raw := by
  unfold new at made
  split at made
  next => rw [← Except.ok.inj made]
  next => cases made

end PluginId

inductive FsAccess
  | read
  | write

structure FilesystemRequest where
  access : FsAccess
  paths : List Text

structure CapabilityRequests where
  ids : Finset CapabilityId := ∅
  filesystem : List FilesystemRequest := []

def CapabilityRequests.contains (requests : CapabilityRequests) (capability : CapabilityId) : Bool :=
  capability ∈ requests.ids || requests.filesystem.any fun request =>
    let name := match request.access with
      | .read => "fs.read".toList
      | .write => "fs.write".toList
    request.paths.any fun path => (CapabilityId.parse (name ++ ':' :: path)).toOption = some capability

end Bitty.Plugin
