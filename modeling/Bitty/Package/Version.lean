import Bitty.Package.Manifest

namespace Bitty.Package

open Text Checks

def MAX_VERSION_LEN : Nat := 64

def U32_MAX : Nat := 4294967295

structure Version where
  major : Nat
  minor : Nat
  patch : Nat
  prerelease : Option Text
  build : Option Text
  raw : Text

def validateIdentifiers (raw : Text) (kind : String) (checkNumericLeadingZero : Bool) : Check := do
  let field := "package.version".toList
  refuseIf (raw = []) (.manifest field (kind ++ " must not be empty").toList)
  bounded ("version." ++ kind).toList 64 raw
  each (fun id => do
    refuseIf (id = [])
      (.manifest field ((kind ++ " identifier must not be empty in '").toList ++ raw ++ "'".toList))
    refuseIf (¬id.all fun c => c.isAlphanum ∨ c = '-' ∨ c = '_')
      (.manifest field ((kind ++ " identifier '").toList ++ id ++ "' contains invalid character".toList))
    refuseIf (checkNumericLeadingZero ∧ id.all Char.isDigit ∧ 1 < byteLen id ∧ id.head? = some '0')
      (.manifest field ((kind ++ " numeric identifier '").toList ++ id ++ "' must not have leading zeros".toList)))
    (raw.splitOn '.')

namespace Version

def parse (raw : Text) : Except PackageError Version := do
  let about (problem : String) : PackageError :=
    .manifest "package.version".toList ("version '".toList ++ raw ++ problem.toList)
  refuseIf (raw = []) (.manifest "package.version".toList "version must not be empty".toList)
  bounded "version".toList MAX_VERSION_LEN raw
  refuseIf (¬raw.all fun c => c.isAlphanum ∨ c = '.' ∨ c = '-' ∨ c = '+' ∨ c = '_')
    (about "' contains invalid character")
  let (withoutBuild, build) := (splitOnce '+' raw).elim (raw, none) fun (a, b) => (a, some b)
  each (fun b => do
    refuseIf (b = []) (about "' has empty build metadata")
    refuseIf ('+' ∈ b) (about "' has multiple '+'")
    validateIdentifiers b "build" false) build.toList
  let (core, prerelease) := (splitOnce '-' withoutBuild).elim (withoutBuild, none) fun (c, pre) => (c, some pre)
  each (fun pre => do
    refuseIf (pre = []) (about "' has empty prerelease")
    validateIdentifiers pre "prerelease" true) prerelease.toList
  let number (part : Text) : Except PackageError Nat := do
    refuseIf (part = []) (about "' has empty numeric component")
    refuseIf (¬part.all Char.isDigit) (about "' numeric components must be digits")
    refuseIf (1 < byteLen part ∧ part.head? = some '0') (about "' must not have leading zeros")
    match parseUnsigned U32_MAX part with
    | some n => .ok n
    | none => .error (about "' numeric component out of range")
  match core.splitOn '.' with
  | [x, y, z] => do
    let major ← number x
    let minor ← number y
    let patch ← number z
    .ok { major, minor, patch, prerelease, build, raw }
  | _ => .error (about "' must be SemVer X.Y.Z")

def compareNumericIdentifiers (a b : Text) : Ordering :=
  let trimmed (text : Text) := text.dropWhile (· = '0')
  (compare (byteLen (trimmed a)) (byteLen (trimmed b))).then (compare (trimmed a) (trimmed b))

def compareIdentifiers (a b : Text) : Ordering :=
  match a.all Char.isDigit, b.all Char.isDigit with
  | true, true => compareNumericIdentifiers a b
  | true, false => .lt
  | false, true => .gt
  | false, false => compare a b

def comparePrerelease (a b : Text) : Ordering :=
  let aIds := a.splitOn '.'
  let bIds := b.splitOn '.'
  (((aIds.zip bIds).map fun (x, y) => compareIdentifiers x y).find? (· ≠ .eq)).getD (compare aIds.length bIds.length)

def cmpPrecedence (a b : Version) : Ordering :=
  (compare a.major b.major).then <| (compare a.minor b.minor).then <| (compare a.patch b.patch).then <|
    match a.prerelease, b.prerelease with
    | none, none => .eq
    | none, some _ => .gt
    | some _, none => .lt
    | some x, some y => comparePrerelease x y

end Version

def MAX_REQUIREMENT_LEN : Nat := 128

def MAX_COMPARATORS : Nat := 16

inductive ComparatorOp
  | equal
  | greater
  | greaterEq
  | less
  | lessEq

def ComparatorOp.label : ComparatorOp → Text
  | .equal => "=".toList
  | .greater => ">".toList
  | .greaterEq => ">=".toList
  | .less => "<".toList
  | .lessEq => "<=".toList

structure Comparator where
  op : ComparatorOp
  version : Version

namespace Comparator

def test (c : Comparator) (candidate : Version) : Bool :=
  match c.op, candidate.cmpPrecedence c.version with
  | .equal, ord => ord = .eq
  | .greater, ord => ord = .gt
  | .greaterEq, ord => ord = .gt ∨ ord = .eq
  | .less, ord => ord = .lt
  | .lessEq, ord => ord = .lt ∨ ord = .eq

def ordering (a b : Comparator) : Ordering :=
  (compare a.op.label b.op.label).then (a.version.cmpPrecedence b.version)

end Comparator

def requirementField : Text := "dependencies.version_req".toList

/-- `^1` and `^1.0` stand for `^1.0.0`. -/
def normalizeVersionStr (raw : Text) : Except PackageError Text :=
  let inCore (c : Char) : Bool := c ≠ '-' ∧ c ≠ '+'
  let core := raw.takeWhile inCore
  let suffix := raw.dropWhile inCore
  match core.count '.' with
  | 2 => .ok (core ++ suffix)
  | 1 => .ok (core ++ ".0".toList ++ suffix)
  | 0 => .ok (core ++ ".0.0".toList ++ suffix)
  | _ => .error (.manifest requirementField
      ("version '".toList ++ raw ++ "' must be SemVer X.Y.Z (caret/tilde shorthand allowed)".toList))

def upperBound (kind part : String) (value : Nat) (text : Nat → Text) : Except PackageError Version :=
  let overflow (reason : Text) : PackageError :=
    .manifest requirementField ((kind ++ " upper bound overflow: ").toList ++ reason)
  if value + 1 ≤ U32_MAX then (Version.parse (text (value + 1))).mapError fun e => overflow e.display
  else .error (overflow ((part ++ " ").toList ++ number value ++ " has no representable successor".toList))

def expandCaret (ver : Version) : Except PackageError (List Comparator) :=
  if ver.major = 0 ∧ ver.minor = 0 then .ok [⟨.equal, ver⟩]
  else do
    let upper ←
      if 0 < ver.major then upperBound "caret" "major" ver.major fun next => number next ++ ".0.0".toList
      else upperBound "caret" "minor" ver.minor fun next => "0.".toList ++ number next ++ ".0".toList
    .ok [⟨.greaterEq, ver⟩, ⟨.less, upper⟩]

def expandTilde (ver : Version) : Except PackageError (List Comparator) := do
  let upper ← upperBound "tilde" "minor" ver.minor fun next =>
    number ver.major ++ ".".toList ++ number next ++ ".0".toList
  .ok [⟨.greaterEq, ver⟩, ⟨.less, upper⟩]

def requiredVersion (verStr missing : Text) : Except PackageError Version := do
  refuseIf (verStr = []) (.manifest requirementField missing)
  bounded requirementField MAX_VERSION_LEN verStr
  let normalized ← normalizeVersionStr verStr
  Version.parse normalized

def comparatorOps : List ComparatorOp := [.greaterEq, .lessEq, .greater, .less, .equal]

def parseSingleComparator (segment : Text) : Except PackageError Comparator := do
  let seg := trim segment
  let (op, rest) := (comparatorOps.findSome? fun op => (stripPrefix op.label seg).map fun rest => (op, rest)).getD
    (.equal, seg)
  let version ← requiredVersion (trim rest) ("comparator '".toList ++ seg ++ "' missing version".toList)
  .ok { op, version }

def parseComparators : List Text → Except PackageError (List Comparator)
  | [] => .ok []
  | part :: rest => do
    refuseIf (trim part = []) (.manifest requirementField "empty comparator segment".toList)
    let comparator ← parseSingleComparator (trim part)
    let others ← parseComparators rest
    .ok (comparator :: others)

structure VersionReq where
  comparators : List Comparator
  raw : Text

namespace VersionReq

def parse (raw : Text) : Except PackageError VersionReq := do
  refuseIf (raw = []) (.manifest requirementField "version requirement must not be empty".toList)
  bounded requirementField MAX_REQUIREMENT_LEN raw
  refuseIf (¬raw.all isRequirementChar)
    (.manifest requirementField ("version requirement '".toList ++ raw ++ "' contains invalid character".toList))
  refuseIf ('*' ∈ raw) (.manifest requirementField "wildcard '*' is not allowed in v1".toList)
  refuseIf ('|' ∈ raw) (.manifest requirementField "disjunction '||' is not allowed in v1".toList)
  let trimmed := trim raw
  refuseIf (trimmed = []) (.manifest requirementField "version requirement must not be empty".toList)
  if trimmed.head? = some '^' ∨ trimmed.head? = some '~' then do
    refuseIf (',' ∈ trimmed) (.manifest requirementField "caret/tilde requirement must not contain ','".toList)
    let ver ← requiredVersion (trim (trimmed.drop 1)) "caret/tilde requires a version".toList
    let comparators ← if trimmed.head? = some '^' then expandCaret ver else expandTilde ver
    .ok { comparators, raw }
  else do
    let parts := trimmed.splitOn ','
    refuseIf (MAX_COMPARATORS < parts.length)
      (.limitExceeded "dependencies.version_req.comparators".toList MAX_COMPARATORS parts.length)
    let comparators ← parseComparators parts
    .ok { comparators := comparators.insertionSort fun a b => a.ordering b ≠ .gt, raw }

def test (req : VersionReq) (candidate : Version) : Bool := req.comparators.all (·.test candidate)

end VersionReq

def checkSingleCompat (requirement hostVersion reqField hostField : Text) : Check := do
  let host ← (Version.parse hostVersion).mapError fun e =>
    .incompatible hostField ("host version '".toList ++ hostVersion ++ "' is malformed: ".toList ++ e.display)
  let req ← (VersionReq.parse requirement).mapError fun e =>
    .incompatible reqField ("requirement '".toList ++ requirement ++ "' is invalid: ".toList ++ e.display)
  refuseIf (req.test host = false) (.incompatible reqField
    ("host version '".toList ++ hostVersion ++ "' does not satisfy requirement '".toList ++ requirement ++ "'".toList))

structure HostVersions where
  bitty : Option Text
  pluginApi : Option Text

def checkHostVersion (requirement host : Option Text) (name : String) : Check :=
  match requirement with
  | none => .ok ()
  | some req =>
    match host with
    | none => .error (.incompatible ("compat." ++ name).toList
        ("host " ++ name ++ " version required but not provided").toList)
    | some host => checkSingleCompat req host ("compat." ++ name).toList ("host." ++ name ++ "_version").toList

def checkCompatibility (manifest : PackageManifest) (hosts : HostVersions) : Check := do
  checkHostVersion manifest.compat.bitty hosts.bitty "bitty"
  checkHostVersion manifest.compat.pluginApi hosts.pluginApi "plugin_api"

example : (VersionReq.parse ">=0.5,<1.0".toList).map (fun req =>
    (Version.parse "0.6.0".toList).map req.test) = .ok (.ok true) := by
  decide

end Bitty.Package
