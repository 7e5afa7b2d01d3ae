import Bitty.Library.Assign
import Bitty.Plugin.Grant.Store

namespace Bitty.Plugin

open Text Checks

def GRANTS_STATE_VERSION : Nat := 1

def MAX_GRANTS_FILE_BYTES : Nat := 64 * 1024

def MAX_GRANTS_PLUGINS : Nat := 256

def MAX_GRANTS_CAPS : Nat := 256

def MAX_GRANTS_LINES : Nat := 4096

def MAX_GRANT_HASH_CHARS : Nat := 512

def GrantOrigin.asStr : GrantOrigin → Text
  | .consentUi => "consent-ui".toList
  | .revoked => "revoked".toList
  | .denied => "denied".toList
  | .carriedForward => "carried-forward".toList

def GrantOrigin.parse (text : Text) : Option GrantOrigin :=
  [.consentUi, .revoked, .denied, .carriedForward].find? fun origin => origin.asStr = text

namespace GrantStore

def GRANTS_COMMENT : Text := "# bitty grant store — machine-generated by the plugin host; do not edit by hand.".toList

def checkRenderable (what value : Text) : Except PluginError Unit :=
  refuseIf ('"' ∈ value ∨ '\\' ∈ value ∨ value.any isControl = true)
    (.grant ("grant store: ".toList ++ what ++ " cannot be rendered safely (quotes, escapes, or control characters)".toList))

def quoted (value : Text) : Text := '"' :: value ++ ['"']

def assignment (key value : Text) : Text := key ++ " = ".toList ++ value

def boolText (b : Bool) : Text := if b then "true".toList else "false".toList

def capList (caps : List CapabilityId) : Text :=
  '[' :: List.intercalate ", ".toList (caps.map fun capability => quoted capability.asStr) ++ [']']

def quotedLine (key value : Text) : Except PluginError Text := do
  checkRenderable key value
  return assignment key (quoted value)

def capLine (key : Text) (caps : Finset CapabilityId) : Except PluginError Text := do
  each (fun capability => checkRenderable key capability.asStr) (inOrder caps)
  return assignment key (capList (inOrder caps))

def recordLines (record : GrantRecord) : Except PluginError (List Text) := do
  let hash ← quotedLine "manifest_hash".toList record.manifestHash
  let decided := assignment "decided_at".toList (number record.decidedAt.toNat)
  let origin ← quotedLine "origin".toList record.origin.asStr
  let denied := assignment "denied".toList (boolText record.denied)
  let granted ← capLine "granted".toList record.granted
  return [hash, decided, origin, denied, granted]

def header (id : Text) : Text := '[' :: "grants.".toList ++ quoted id ++ [']']

def recordPart (store : GrantStore) (id : Text) : Except PluginError (List Text) :=
  match store.records[id]? with
  | some record => recordLines record
  | none => .ok []

def sectionLines (store : GrantStore) (id : Text) : Except PluginError (List Text) := do
  checkRenderable "plugin id".toList id
  let recorded ← store.recordPart id
  let capDenied ← capLine "cap_denied".toList (store.deniedCaps[id]?.getD ∅)
  return [] :: header id :: recorded ++ [assignment "plugin_denied".toList (boolText (decide (id ∈ store.denials))), capDenied]

def sections (store : GrantStore) : List Text → Except PluginError (List Text)
  | [] => .ok []
  | id :: rest => do
    let first ← store.sectionLines id
    let others ← store.sections rest
    return first ++ others

def ids (store : GrantStore) : Finset Text := store.records.keys.toFinset ∪ store.denials ∪ store.deniedCaps.keys.toFinset

def orderedIds (store : GrantStore) : List Text := TextSet.inOrder id Function.injective_id store.ids

def render (store : GrantStore) : Except PluginError Text := do
  let written ← store.sections store.orderedIds
  return unlines (GRANTS_COMMENT :: assignment "grants_version".toList (number GRANTS_STATE_VERSION) :: written)

end GrantStore

def lineError (line : Nat) (message : Text) : PluginError := .grant ("line ".toList ++ number line ++ ": ".toList ++ message)

def splitAssignment (text : Text) (line : Nat) : Except PluginError (Text × Text) :=
  match splitOnce '=' text with
  | none => .error (lineError line "expected `key = value`".toList)
  | some (key, value) =>
    if trim key = [] ∨ trim value = [] then .error (lineError line "expected `key = value`".toList)
    else .ok (trim key, trim value)

def rejectDuplicate (seen : Bool) (key : Text) (line : Nat) : Except PluginError Unit :=
  refuseIf (seen = true) (lineError line ("duplicate key '".toList ++ key ++ "'".toList))

def parseQuoted (value : Text) (line : Nat) : Except PluginError Text :=
  match (stripPrefix ['"'] value).bind (stripSuffix ['"']) with
  | none => .error (lineError line "expected a double-quoted value".toList)
  | some inner =>
    if '"' ∈ inner ∨ '\\' ∈ inner ∨ inner.any isControl = true then
      .error (lineError line "quoted value must not contain quotes, escapes, or control characters".toList)
    else .ok inner

def parseBool (value key : Text) (line : Nat) : Except PluginError Bool :=
  if value = "true".toList then .ok true
  else if value = "false".toList then .ok false
  else .error (lineError line (key ++ " must be true|false, found '".toList ++ value ++ "'".toList))

def readCapabilities (line : Nat) : Finset CapabilityId → List Text → Except PluginError (Finset CapabilityId)
  | out, [] => .ok out
  | out, element :: rest => do
    let text ← parseQuoted (trim element) line
    let capability ← (CapabilityId.parse text).mapError fun error =>
      lineError line ("invalid capability '".toList ++ text ++ "': ".toList ++ error.display)
    refuseIf (capability ∈ out) (lineError line ("duplicate capability '".toList ++ text ++ "'".toList))
    refuseIf (MAX_GRANTS_CAPS < (insert capability out).card)
      (lineError line ("capability list exceeds ".toList ++ number MAX_GRANTS_CAPS ++ " entries".toList))
    readCapabilities line (insert capability out) rest

def parseCapabilityArray (value : Text) (line : Nat) : Except PluginError (Finset CapabilityId) :=
  match (stripPrefix ['['] value).bind (stripSuffix [']']) with
  | none => .error (lineError line "capability list must be an array of quoted capabilities".toList)
  | some inner => if trim inner = [] then .ok ∅ else readCapabilities line ∅ ((trim inner).splitOn ',')

structure SectionBuilder where
  id : Text
  line : Nat
  manifestHash : Option Text := none
  decidedAt : Option UInt64 := none
  origin : Option GrantOrigin := none
  denied : Option Bool := none
  granted : Option (Finset CapabilityId) := none
  pluginDenied : Option Bool := none
  capDenied : Option (Finset CapabilityId) := none

namespace SectionBuilder

def start (header : Text) (line : Nat) : Except PluginError SectionBuilder :=
  match stripPrefix "grants.".toList (trim header) with
  | none => .error (lineError line "expected section `[grants.\"<id>\"]`".toList)
  | some inner => do
    let id ← parseQuoted inner line
    let _ ← (PluginId.new id).mapError fun error =>
      lineError line ("invalid plugin id '".toList ++ id ++ "': ".toList ++ error.display)
    return { id, line }

def set (builder : SectionBuilder) (key value : Text) (line : Nat) : Except PluginError SectionBuilder :=
  if key = "manifest_hash".toList then do
    rejectDuplicate builder.manifestHash.isSome key line
    let parsed ← parseQuoted value line
    refuseIf (parsed = [] ∨ MAX_GRANT_HASH_CHARS < byteLen parsed ∨ parsed.any (fun ch => isWhitespace ch ∨ isControl ch) = true)
      (lineError line "manifest_hash must be 1..=512 non-whitespace characters".toList)
    return { builder with manifestHash := some parsed }
  else if key = "decided_at".toList then do
    rejectDuplicate builder.decidedAt.isSome key line
    match parseU64 value with
    | none => throw (lineError line ("decided_at must be an unsigned integer, found '".toList ++ value ++ "'".toList))
    | some parsed => return { builder with decidedAt := some parsed }
  else if key = "origin".toList then do
    rejectDuplicate builder.origin.isSome key line
    let parsed ← parseQuoted value line
    match GrantOrigin.parse parsed with
    | none => throw (lineError line
        ("unknown origin '".toList ++ parsed ++ "' (want consent-ui|revoked|denied|carried-forward)".toList))
    | some origin => return { builder with origin := some origin }
  else if key = "denied".toList then do
    rejectDuplicate builder.denied.isSome key line
    return { builder with denied := some (← parseBool value key line) }
  else if key = "granted".toList then do
    rejectDuplicate builder.granted.isSome key line
    return { builder with granted := some (← parseCapabilityArray value line) }
  else if key = "plugin_denied".toList then do
    rejectDuplicate builder.pluginDenied.isSome key line
    return { builder with pluginDenied := some (← parseBool value key line) }
  else if key = "cap_denied".toList then do
    rejectDuplicate builder.capDenied.isSome key line
    return { builder with capDenied := some (← parseCapabilityArray value line) }
  else .error (lineError line ("unknown key '".toList ++ key ++ "' in grants section".toList))

/-- A field that a record cannot do without. -/
def require {α : Type} (builder : SectionBuilder) (name : String) (value : Option α) : Except PluginError α :=
  match value with
  | some a => .ok a
  | none => .error (lineError builder.line
    ("plugin '".toList ++ builder.id ++ "' is missing `".toList ++ name.toList ++ "`".toList))

def hasRecord (builder : SectionBuilder) : Bool :=
  builder.manifestHash.isSome || builder.decidedAt.isSome || builder.origin.isSome || builder.denied.isSome ||
    builder.granted.isSome

def record (builder : SectionBuilder) : Except PluginError GrantRecord := do
  let manifestHash ← builder.require "manifest_hash" builder.manifestHash
  let decidedAt ← builder.require "decided_at" builder.decidedAt
  let origin ← builder.require "origin" builder.origin
  let denied ← builder.require "denied" builder.denied
  let granted ← builder.require "granted" builder.granted
  let pluginId ← (PluginId.new builder.id).mapError fun error =>
    lineError builder.line ("invalid plugin id '".toList ++ builder.id ++ "': ".toList ++ error.display)
  return ⟨pluginId, manifestHash, granted, decidedAt, origin, denied⟩

def mark (builder : SectionBuilder) (store : GrantStore) : GrantStore :=
  let denied := if builder.pluginDenied.getD false then store.deny builder.id else store
  match builder.capDenied with
  | none => denied
  | some caps => if some : caps ≠ ∅ then denied.putDenied builder.id caps some else denied

def flush (builder : SectionBuilder) (store : GrantStore) : Except PluginError GrantStore := do
  refuseIf (store.records[builder.id]?.isSome ∨ builder.id ∈ store.denials ∨ store.deniedCaps[builder.id]?.isSome)
    (lineError builder.line ("duplicate section for plugin '".toList ++ builder.id ++ "'".toList))
  if builder.hasRecord then
    let record ← builder.record
    return builder.mark (store.put record)
  else return builder.mark store

end SectionBuilder

structure ParseState where
  store : GrantStore := {}
  versionSeen : Bool := false
  current : Option SectionBuilder := none

namespace ParseState

def finish (state : ParseState) : Except PluginError GrantStore :=
  match state.current with
  | some builder => builder.flush state.store
  | none => .ok state.store

def parseVersion (state : ParseState) (trimmed : Text) (line : Nat) : Except PluginError ParseState := do
  let (key, value) ← splitAssignment trimmed line
  refuseIf (key ≠ "grants_version".toList)
    (lineError line ("expected `grants_version` before any section, found '".toList ++ key ++ "'".toList))
  refuseIf (state.versionSeen = true) (lineError line "duplicate `grants_version`".toList)
  refuseIf (value ≠ number GRANTS_STATE_VERSION)
    (lineError line ("unsupported grants_version '".toList ++ value ++ "' (want 1)".toList))
  return { state with versionSeen := true }

def parseHeader (state : ParseState) (rest : Text) (line : Nat) : Except PluginError ParseState := do
  let store ← state.finish
  match stripSuffix [']'] rest with
  | none => throw (lineError line "section header is missing the closing `]`".toList)
  | some inner =>
    let builder ← SectionBuilder.start inner line
    return { state with store, current := some builder }

def parseLine (state : ParseState) (line : Nat) (raw : Text) : Except PluginError ParseState :=
  if MAX_GRANTS_LINES < line then
    .error (lineError line ("grant store exceeds ".toList ++ number MAX_GRANTS_LINES ++ " lines".toList))
  else if trim raw = [] ∨ (trim raw).head? = some '#' then .ok state
  else
    match stripPrefix ['['] (trim raw) with
    | some rest => state.parseHeader rest line
    | none =>
      match state.current with
      | none => state.parseVersion (trim raw) line
      | some builder => do
        let (key, value) ← splitAssignment (trim raw) line
        return { state with current := some (← builder.set key value line) }

def parseLines : ParseState → Nat → List Text → Except PluginError ParseState
  | state, _, [] => .ok state
  | state, line, raw :: rest => do
    let next ← state.parseLine line raw
    next.parseLines (line + 1) rest

end ParseState

namespace GrantStore

def extraSections (store : GrantStore) : Nat :=
  (store.denials.filter fun id => store.records[id]? = none).card +
    (store.deniedCaps.keys.filter fun id => store.records[id]? = none).length

def parse (text : Text) : Except PluginError GrantStore := do
  refuseIf (MAX_GRANTS_FILE_BYTES < byteLen text)
    (.grant ("grant store exceeds ".toList ++ number MAX_GRANTS_FILE_BYTES ++ " bytes".toList))
  let state ← ParseState.parseLines {} 1 (lines text)
  let store ← state.finish
  refuseIf (state.versionSeen = false) (lineError 1 "missing `grants_version = 1`".toList)
  refuseIf (MAX_GRANTS_PLUGINS < store.records.size + store.extraSections)
    (lineError 1 ("grant store exceeds ".toList ++ number MAX_GRANTS_PLUGINS ++ " plugins".toList))
  return store

end GrantStore

end Bitty.Plugin
