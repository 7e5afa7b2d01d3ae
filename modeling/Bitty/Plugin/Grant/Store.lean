import Std.Data.ExtTreeMap
import Bitty.Library.TreeMap
import Bitty.Plugin.Manifest

namespace Bitty.Plugin

open Std (ExtTreeMap)

open Text

inductive GrantOrigin
  | consentUi
  | revoked
  | denied
  | carriedForward
  deriving DecidableEq

structure GrantRecord where
  pluginId : PluginId
  manifestHash : Text
  granted : Finset CapabilityId
  decidedAt : UInt64
  origin : GrantOrigin
  denied : Bool

def GrantRecord.isGranted (record : GrantRecord) (capability : CapabilityId) : Bool :=
  !record.denied && capability ∈ record.granted

structure UpdateOutcome where
  pluginId : PluginId
  oldHash : Text
  newHash : Text
  added : List CapabilityId
  carriedForward : Bool

structure RevokeReport where
  pluginId : PluginId
  revoked : List CapabilityId
  fullyRevoked : Bool
  deriving DecidableEq

structure GrantConsent where
  decidedAt : UInt64

/-- Every record stands under its own plugin, and no set of denied capabilities is empty. -/
@[ext] structure GrantStore where
  records : ExtTreeMap Text GrantRecord := ∅
  denials : Finset Text := ∅
  deniedCaps : ExtTreeMap Text (Finset CapabilityId) := ∅
  keyed : ∀ (key : Text) (record : GrantRecord), records[key]? = some record → record.pluginId.asStr = key := by simp
  listed : ∀ (key : Text) (caps : Finset CapabilityId), deniedCaps[key]? = some caps → caps ≠ ∅ := by simp

namespace GrantStore

def put (store : GrantStore) (record : GrantRecord) : GrantStore where
  records := store.records.insert record.pluginId.asStr record
  denials := store.denials
  deniedCaps := store.deniedCaps
  keyed := by
    intro key other found
    rw [TreeMap.find_insert] at found
    split at found
    next here =>
      obtain rfl := Option.some.inj found
      exact here
    next => exact store.keyed key other found
  listed := store.listed

def remove (store : GrantStore) (key : Text) : GrantStore where
  records := store.records.erase key
  denials := store.denials
  deniedCaps := store.deniedCaps
  keyed := by
    intro other record found
    rw [TreeMap.find_erase] at found
    split at found
    next => cases found
    next => exact store.keyed other record found
  listed := store.listed

def deny (store : GrantStore) (key : Text) : GrantStore := { store with denials := Insert.insert key store.denials }

def putDenied (store : GrantStore) (key : Text) (caps : Finset CapabilityId) (some : caps ≠ ∅) : GrantStore where
  records := store.records
  denials := store.denials
  deniedCaps := store.deniedCaps.insert key caps
  keyed := store.keyed
  listed := by
    intro other others found
    rw [TreeMap.find_insert] at found
    split at found
    next =>
      obtain rfl := Option.some.inj found
      exact some
    next => exact store.listed other others found

def denyCap (store : GrantStore) (key : Text) (capability : CapabilityId) : GrantStore :=
  store.putDenied key (Insert.insert capability (store.deniedCaps[key]?.getD ∅)) (Finset.insert_ne_empty _ _)

def insert (store : GrantStore) (record : GrantRecord) : GrantStore :=
  let key := record.pluginId.asStr
  { store with denials := if record.denied then Insert.insert key store.denials else store.denials.erase key }.put record

def insertWithConsent (store : GrantStore) (record : GrantRecord) (consent : Option GrantConsent) :
    Except PluginError Unit × GrantStore :=
  match consent with
  | none =>
    (.error (.grant ("explicit consent required to grant '".toList ++ record.pluginId.asStr ++
      "'; ambient inserts are rejected".toList)), store)
  | some evidence =>
    if evidence.decidedAt ≠ record.decidedAt then
      (.error (.grant ("consent evidence mismatch for '".toList ++ record.pluginId.asStr ++ "': consent decided_at ".toList ++
        number evidence.decidedAt.toNat ++ " != record decided_at ".toList ++ number record.decidedAt.toNat)), store)
    else (.ok (), store.insert record)

def get (store : GrantStore) (id : PluginId) : Option GrantRecord := store.records[id.asStr]?

def isCapDenied (store : GrantStore) (id : PluginId) (capability : CapabilityId) : Bool :=
  store.deniedCaps[id.asStr]?.any fun caps => decide (capability ∈ caps)

def isGranted (store : GrantStore) (id : PluginId) (manifestHash : Text) (capability : CapabilityId)
    (declared : CapabilityRequests) : Bool :=
  if !declared.contains capability then false
  else if store.isCapDenied id capability then false
  else
    match store.get id with
    | none => false
    | some record => if record.manifestHash ≠ manifestHash then false else record.isGranted capability

def deniedUpdate (id : PluginId) : PluginError :=
  .grant ("plugin '".toList ++ id.asStr ++ "' is denied; explicit re-grant required (update cannot revive a denial)".toList)

def capabilities (caps : Finset CapabilityId) : Text :=
  " capabilit".toList ++ (if caps.card = 1 then "y".toList else "ies".toList) ++ " (".toList ++
    List.intercalate ", ".toList ((inOrder caps).map CapabilityId.asStr) ++ ")".toList

def applyUpdate (store : GrantStore) (id : PluginId) (oldHash newHash : Text) (newCaps : Finset CapabilityId) (approved : Bool)
    (decidedAt : UInt64) : Except PluginError UpdateOutcome × GrantStore :=
  if id.asStr ∈ store.denials then (.error (deniedUpdate id), store)
  else
    match store.get id with
    | none => (.error (.notFound id.asStr), store)
    | some current =>
      if current.denied then (.error (deniedUpdate id), store)
      else if current.manifestHash ≠ oldHash then
        (.error (.grant ("stale update for '".toList ++ id.asStr ++ "': expected current hash '".toList ++ current.manifestHash ++
          "', got '".toList ++ oldHash ++ "'".toList)), store)
      else if newHash = oldHash then
        if newCaps ≠ current.granted then
          (.error (.grant ("same-manifest grant change for '".toList ++ id.asStr ++ "' is not an update (hash '".toList ++ oldHash ++
            "')".toList)), store)
        else (.ok ⟨id, oldHash, newHash, [], true⟩, store)
      else
        let added := newCaps \ current.granted
        let resurrected := newCaps ∩ store.deniedCaps[id.asStr]?.getD ∅
        if added ≠ ∅ ∧ ¬approved then
          (.error (.grant ("update for '".toList ++ id.asStr ++ "' adds ".toList ++ number added.card ++ capabilities added ++
            "; blocked pending explicit diff approval".toList)), store)
        else if resurrected ≠ ∅ then
          (.error (.grant ("update for '".toList ++ id.asStr ++ "' resurrects explicitly denied".toList ++ capabilities resurrected ++
            "; explicit re-grant required".toList)), store)
        else
          (.ok ⟨id, oldHash, newHash, inOrder added, added = ∅⟩,
            store.put ⟨id, newHash, newCaps, decidedAt, if added = ∅ then .carriedForward else .consentUi, false⟩)

def revoke (store : GrantStore) (id : PluginId) (capability : Option CapabilityId) : Except PluginError RevokeReport × GrantStore :=
  match store.get id with
  | none => (.error (.notFound id.asStr), store)
  | some record =>
    match capability with
    | some cap =>
      let left := record.granted.erase cap
      -- The record is changed in place before it is known that the capability was there.
      let store := store.put { record with granted := left }
      if cap ∉ record.granted then
        (.error (.grant ("capability '".toList ++ cap.asStr ++ "' not granted for '".toList ++ id.asStr ++ "'".toList)), store)
      else
        let store := store.denyCap id.asStr cap
        if left = ∅ then (.ok ⟨id, [cap], true⟩, (store.remove id.asStr).deny id.asStr) else (.ok ⟨id, [cap], false⟩, store)
    | none => (.ok ⟨id, inOrder record.granted, true⟩, (store.remove id.asStr).deny id.asStr)

def isDenied (store : GrantStore) (id : PluginId) : Bool := id.asStr ∈ store.denials

def clearCapDenial (store : GrantStore) (id : PluginId) (capability : CapabilityId) : Bool × GrantStore :=
  match store.deniedCaps[id.asStr]? with
  | none => (false, store)
  | some caps =>
    if capability ∉ caps then (false, store)
    else if empty : caps.erase capability = ∅ then
      (true, { store with
        deniedCaps := store.deniedCaps.erase id.asStr
        listed := by
          intro key others here
          rw [TreeMap.find_erase] at here
          split at here
          next => cases here
          next => exact store.listed key others here })
    else
      (true, store.putDenied id.asStr (caps.erase capability) empty)

def applyWorkspaceNarrowing (store : GrantStore) (id : PluginId) (workspaceAllowed : Finset CapabilityId) :
    Except PluginError (Finset CapabilityId) :=
  match store.get id with
  | none => .error (.notFound id.asStr)
  | some record =>
    if ¬workspaceAllowed ⊆ record.granted then .error (.grant "workspace may narrow grants but never add any".toList)
    else .ok workspaceAllowed

def effectiveGrants (store : GrantStore) (id : PluginId) (workspaceAllowed : Option (Finset CapabilityId)) : Finset CapabilityId :=
  let base := ((store.get id).map GrantRecord.granted).getD ∅
  match workspaceAllowed with
  | some allowed => base ∩ allowed
  | none => base

end GrantStore

end Bitty.Plugin

namespace Bitty.Plugin.GrantStore

variable {store : GrantStore} {record : GrantRecord} {id other : PluginId} {c d : CapabilityId}

theorem asStr_eq_iff : id.asStr = other.asStr ↔ id = other := ⟨PluginId.ext, congrArg _⟩

def held (store : GrantStore) (id : PluginId) : Finset CapabilityId := store.effectiveGrants id none

theorem mem_held : c ∈ store.held id ↔ ∃ record, store.get id = some record ∧ c ∈ record.granted := by
  unfold held effectiveGrants
  cases found : store.get id with
  | none => simp
  | some record => simp

theorem mem_effectiveGrants {allowed : Option (Finset CapabilityId)} :
    c ∈ store.effectiveGrants id allowed ↔ c ∈ store.held id ∧ ∀ caps ∈ allowed, c ∈ caps := by
  cases allowed with
  | none => simp [held]
  | some caps => simp [held, effectiveGrants]

@[simp] theorem get_put : (store.put record).get id = if record.pluginId = id then some record else store.get id := by
  unfold get put
  rw [TreeMap.find_insert]
  simp only [asStr_eq_iff]

@[simp] theorem get_remove : (store.remove id.asStr).get other = if id = other then none else store.get other := by
  unfold get remove
  rw [TreeMap.find_erase]
  simp only [asStr_eq_iff]

@[simp] theorem get_deny (key : Text) : (store.deny key).get id = store.get id := rfl

@[simp] theorem get_denyCap (key : Text) : (store.denyCap key c).get id = store.get id := rfl

@[simp] theorem isCapDenied_put : (store.put record).isCapDenied id c = store.isCapDenied id c := rfl

@[simp] theorem isCapDenied_remove (key : Text) : (store.remove key).isCapDenied id c = store.isCapDenied id c := rfl

@[simp] theorem isCapDenied_deny (key : Text) : (store.deny key).isCapDenied id c = store.isCapDenied id c := rfl

theorem isCapDenied_denyCap :
    (store.denyCap id.asStr c).isCapDenied other d = (decide (id = other ∧ c = d) || store.isCapDenied other d) := by
  unfold isCapDenied denyCap putDenied
  rw [TreeMap.find_insert]
  by_cases here : id = other
  · subst here
    rw [if_pos rfl]
    cases found : store.deniedCaps[id.asStr]? with
    | none => simp [eq_comm]
    | some caps => simp [eq_comm]
  · rw [if_neg (mt asStr_eq_iff.mp here)]
    simp [here]

theorem pluginId_of_get (found : store.get id = some record) : record.pluginId = id :=
  PluginId.ext (store.keyed _ _ found)

theorem put_same (found : store.get id = some record) : store.put record = store := by
  refine GrantStore.ext ?_ rfl rfl
  refine Std.ExtTreeMap.ext_getElem? fun key => ?_
  unfold put
  rw [TreeMap.find_insert]
  split
  next here =>
    rw [← here, pluginId_of_get found]
    exact found.symm
  next => rfl

@[simp] theorem get_insert : (store.insert record).get id = if record.pluginId = id then some record else store.get id := by
  unfold insert
  rw [get_put]
  rfl

@[simp] theorem isCapDenied_insert : (store.insert record).isCapDenied id c = store.isCapDenied id c := rfl

theorem insertWithConsent_cases (store : GrantStore) (record : GrantRecord) (consent : Option GrantConsent) :
    ((∃ e, (store.insertWithConsent record consent).1 = .error e) ∧ (store.insertWithConsent record consent).2 = store) ∨
      ((∃ evidence, consent = some evidence ∧ evidence.decidedAt = record.decidedAt) ∧
        store.insertWithConsent record consent = (.ok (), store.insert record)) := by
  unfold insertWithConsent
  cases consent with
  | none => exact .inl ⟨⟨_, rfl⟩, rfl⟩
  | some evidence =>
    by_cases matching : evidence.decidedAt = record.decidedAt
    · refine .inr ⟨⟨evidence, rfl, matching⟩, ?_⟩
      exact if_neg (not_not_intro matching)
    · dsimp only
      rw [if_pos matching]
      exact .inl ⟨⟨_, rfl⟩, rfl⟩

/-- What an update that is accepted has shown, and what it writes. -/
structure Updates (store : GrantStore) (id : PluginId) (newHash : Text) (newCaps : Finset CapabilityId) (approved : Bool)
    (store' : GrantStore) (current new : GrantRecord) : Prop where
  found : store.get id = some current
  standing : current.denied = false
  covered : approved = true ∨ newCaps ⊆ current.granted
  clear : ∀ c ∈ newCaps, store.isCapDenied id c = false
  owner : new.pluginId = id
  bound : new.manifestHash = newHash
  caps : new.granted = newCaps
  allowed : new.denied = false
  written : store' = store.put new

theorem applyUpdate_cases (store : GrantStore) (id : PluginId) (oldHash newHash : Text) (newCaps : Finset CapabilityId) (approved : Bool) (decidedAt : UInt64) :
    (store.applyUpdate id oldHash newHash newCaps approved decidedAt).2 = store ∨
      (∃ outcome, (store.applyUpdate id oldHash newHash newCaps approved decidedAt).1 = .ok outcome) ∧
        ∃ current new, store.Updates id newHash newCaps approved
          (store.applyUpdate id oldHash newHash newCaps approved decidedAt).2 current new := by
  unfold applyUpdate
  split
  next => exact .inl rfl
  next =>
    split
    next => exact .inl rfl
    next current found =>
      split
      next => exact .inl rfl
      next standing =>
        split
        next => exact .inl rfl
        next =>
          split
          next =>
            split
            next => exact .inl rfl
            next => exact .inl rfl
          next =>
            dsimp only
            split
            next => exact .inl rfl
            next covered =>
              split
              next => exact .inl rfl
              next clear =>
                refine .inr ⟨⟨_, rfl⟩, current, _, found, by simpa using standing, ?_, fun c member => ?_, rfl, rfl, rfl, rfl, rfl⟩
                · by_cases added : newCaps \ current.granted = ∅
                  · exact .inr (Finset.sdiff_eq_empty_iff_subset.mp added)
                  · exact .inl (by simpa [added] using covered)
                · rw [not_not, Finset.eq_empty_iff_forall_notMem] at clear
                  have apart := clear c
                  unfold isCapDenied
                  cases listed : store.deniedCaps[id.asStr]? with
                  | none => rfl
                  | some caps => simpa [listed, member] using apart

theorem revoke_cases (store : GrantStore) (id : PluginId) (capability : Option CapabilityId) :
    ((∃ e, (store.revoke id capability).1 = .error e) ∧ (store.revoke id capability).2 = store) ∨
      ∃ record report, store.get id = some record ∧ (store.revoke id capability).1 = .ok report ∧
        ((capability = none ∧ (store.revoke id capability).2 = (store.remove id.asStr).deny id.asStr) ∨
          ∃ cap, capability = some cap ∧ cap ∈ record.granted ∧
            ((store.revoke id capability).2 = (store.put { record with granted := record.granted.erase cap }).denyCap id.asStr cap ∨
              record.granted.erase cap = ∅ ∧ (store.revoke id capability).2 =
                (((store.put { record with granted := record.granted.erase cap }).denyCap id.asStr cap).remove id.asStr).deny
                  id.asStr)) := by
  unfold revoke
  split
  next => exact .inl ⟨⟨_, rfl⟩, rfl⟩
  next record found =>
    split
    next cap =>
      dsimp only
      split
      next absent =>
        refine .inl ⟨⟨_, rfl⟩, ?_⟩
        rw [Finset.erase_eq_of_notMem absent]
        exact put_same found
      next present =>
        rw [not_not] at present
        split
        next last => exact .inr ⟨record, _, found, rfl, .inr ⟨cap, rfl, present, .inr ⟨last, rfl⟩⟩⟩
        next => exact .inr ⟨record, _, found, rfl, .inr ⟨cap, rfl, present, .inl rfl⟩⟩
    next => exact .inr ⟨record, _, found, rfl, .inl ⟨rfl, rfl⟩⟩

theorem clearCapDenial_records : (store.clearCapDenial id c).2.records = store.records := by
  unfold clearCapDenial
  split
  next => rfl
  next =>
    split
    next => rfl
    next =>
      split
      next => rfl
      next => rfl

theorem isCapDenied_clearCapDenial :
    (store.clearCapDenial id c).2.isCapDenied other d = (decide (¬(id = other ∧ c = d)) && store.isCapDenied other d) := by
  have apart (here : id ≠ other) : id.asStr ≠ other.asStr := mt asStr_eq_iff.mp here
  unfold clearCapDenial
  split
  next found =>
    by_cases here : id = other
    · subst here
      simp [isCapDenied, found]
    · simp [here]
  next caps found =>
    split
    next absent =>
      by_cases here : id = other ∧ c = d
      · obtain ⟨rfl, rfl⟩ := here
        simp [isCapDenied, found, absent]
      · simp [here]
    next present =>
      by_cases here : id = other
      · subst here
        split
        next empty =>
          have gone : d ∈ caps.erase c → False := by simp [empty]
          by_cases same : c = d
          · simp [isCapDenied, same]
          · have absent : d ∉ caps := fun member => gone (Finset.mem_erase.mpr ⟨Ne.symm same, member⟩)
            simp [isCapDenied, found, absent]
        next =>
          by_cases same : c = d
          · simp [isCapDenied, same, putDenied]
          · simp [isCapDenied, putDenied, found, same, Ne.symm same]
      · split
        next => simp [isCapDenied, TreeMap.find_erase, apart here, here]
        next => simp [isCapDenied, putDenied, TreeMap.find_insert, apart here, here]

end Bitty.Plugin.GrantStore
