import Bitty.Library.TreeMap
import Bitty.Plugin.Store.Json

namespace Bitty.Plugin.Store

open Std (ExtTreeMap)
open Text Checks

def STORE_MAX_VALUE_BYTES : Nat := 8 * 1024

def STORE_MAX_ENTRIES : Nat := 256

def STORE_MAX_TOTAL_BYTES : Nat := 64 * 1024

def STORE_MAX_KEY_BYTES : Nat := 128

def STORE_FILE_MAX_BYTES : Nat := STORE_MAX_TOTAL_BYTES + STORE_MAX_ENTRIES * STORE_MAX_KEY_BYTES + 4096

structure KvCommitError where
  message : Text

def KvCommitError.display (e : KvCommitError) : Text := "store commit: ".toList ++ e.message

/-- The durable commit of whole images, one for each path. -/
class KvCommitBackend (B : Type) where
  commitStoreBytes : Text → ByteArray → B → Except KvCommitError Unit × B
  loadStoreBytes : Text → B → Except KvCommitError (Option ByteArray)

abbrev Entries := ExtTreeMap Text LuaValue

structure PluginStore (B : Type) where
  path : Option Text
  entries : Entries
  backend : Option B

def keyInvalid (message : String) : BridgeError := ⟨"validation".toList, "E_STORE_KEY_INVALID".toList, message.toList⟩

def quota (message : String) : BridgeError := ⟨"budget".toList, "E_STORE_QUOTA".toList, message.toList⟩

def storeIo (message : String) : BridgeError := ⟨"runtime".toList, "E_STORE_IO".toList, message.toList⟩

def isLowerOrDigit (c : Char) : Bool := decide ('a' ≤ c ∧ c ≤ 'z') || c.isDigit

def isKeyChar (c : Char) : Bool := isLowerOrDigit c || decide (c = '-' ∨ c = '.' ∨ c = '_')

/-- The bytes of a key are checked by its scalars: a scalar of several bytes has none that is allowed. -/
def validateKey (key : Text) : Except BridgeError Unit := do
  refuseIf (key = [] ∨ STORE_MAX_KEY_BYTES < byteLen key) (keyInvalid "store key must be 1..128 bytes")
  refuseIf (key.head?.any isLowerOrDigit = false) (keyInvalid "store key must start with [a-z0-9]")
  refuseIf (key.all isKeyChar = false) (keyInvalid "store key contains an invalid character")
  refuseIf (['.', '.'] <:+: key) (keyInvalid "store key must not contain empty dot segments")

def validateEntry (key : Text) (value : LuaValue) : Except BridgeError Unit := do
  validateKey key
  refuseIf (STORE_MAX_VALUE_BYTES < byteLen (encodeJson value)) (valueInvalid "store value exceeds the 8 KiB ceiling")
  validateJsonValue value 2

def totalBytes (entries : Entries) : Nat :=
  (entries.toList.map fun (key, value) => byteLen key + byteLen (encodeJson value)).sum

def validateStoreQuota (entries : Entries) : Except BridgeError Unit := do
  refuseIf (STORE_MAX_ENTRIES < entries.size) (quota "plugin store entry count exceeds limit")
  refuseIf (STORE_MAX_TOTAL_BYTES < totalBytes entries) (quota "plugin store quota exceeded")

def imageOf (entries : Entries) : Text :=
  '\x7b' :: List.intercalate [','] (entries.toList.map fun (key, value) => encodeString key ++ ':' :: encodeJson value) ++
    ['\x7d']

namespace PluginStore

variable {B : Type}

def inMemory : PluginStore B := ⟨none, ∅, none⟩

def withBackend (path : Option Text) (backend : Option B) : PluginStore B := ⟨path, ∅, backend⟩

variable [KvCommitBackend B]

def persistEntries (store : PluginStore B) (candidate : Entries) : Except BridgeError Unit × Option B :=
  match store.path, store.backend with
  | none, backend => (.ok (), backend)
  | some _, none => (.error (storeIo "no commit backend for the plugin state file"), none)
  | some path, some backend =>
    match KvCommitBackend.commitStoreBytes path (imageOf candidate).bytes backend with
    | (.ok (), backend) => (.ok (), some backend)
    | (.error _, backend) => (.error (storeIo "could not commit the plugin state file"), some backend)

/-- The candidate entries of a `set`, when they pass the checks. -/
def candidate (key : Text) (value : LuaValue) (store : PluginStore B) : Except BridgeError Entries := do
  validateKey key
  match value with
  | .nil => .ok (store.entries.erase key)
  | value => do
    validateEntry key value
    validateStoreQuota (store.entries.insert key value)
    .ok (store.entries.insert key value)

def set (key : Text) (value : LuaValue) (store : PluginStore B) : Except BridgeError Unit × PluginStore B :=
  match store.candidate key value with
  | .error e => (.error e, store)
  | .ok entries =>
    match store.persistEntries entries with
    | (.error e, backend) => (.error e, { store with backend })
    | (.ok (), backend) => (.ok (), { store with entries, backend })

def loadEntries : List (LuaValue × LuaValue) → Entries → Except Text Entries
  | [], entries => .ok entries
  | (.string key, entry) :: rest, entries =>
    match validateEntry key entry with
    | .error err =>
      .error ("store entry '".toList ++ key ++ "' violates invariants: ".toList ++ err.message)
    | .ok () => loadEntries rest (entries.insert key entry)
  | _ :: _, _ => .error "store keys must be strings".toList

def entriesOf (image : ByteArray) : Except Text Entries :=
  if STORE_FILE_MAX_BYTES < image.size then .error "plugin store exceeds the file ceiling".toList
  else
    match ofBytes? image with
    | none => .error "store image is not UTF-8".toList
    | some text =>
      match parseJson text with
      | .error e => .error ("store parse: ".toList ++ e)
      | .ok (.table pairs) =>
        match loadEntries pairs ∅ with
        | .error e => .error e
        | .ok entries =>
          match validateStoreQuota entries with
          | .error err => .error ("store quota violated: ".toList ++ err.message)
          | .ok () => .ok entries
      | .ok _ => .error "store root must be an object".toList

def loadWithBackend (path : Text) : Option B → Except Text (PluginStore B)
  | none => .ok ⟨some path, ∅, none⟩
  | some backend =>
    match KvCommitBackend.loadStoreBytes path backend with
    | .error e => .error ("store read: ".toList ++ e.display)
    | .ok none => .ok ⟨some path, ∅, some backend⟩
    | .ok (some image) => (entriesOf image).map fun entries => ⟨some path, entries, some backend⟩

end PluginStore

end Bitty.Plugin.Store
