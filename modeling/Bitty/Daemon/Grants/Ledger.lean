import Bitty.Daemon.Grants.Store

namespace Bitty.Daemon

open Std

structure Issued where
  grantId : GrantId
  bearer : SecretBearer
  kind : GrantKind
  sessionId : Option SessionId
  peerUid : UInt32
  correlation : Option GrantCorrelation
  expiresAtMs : MonotonicMs
  consumed : Bool := false
  revoked : Bool := false
  deriving DecidableEq

namespace Issued

def isActive (g : Issued) (now : MonotonicMs) : Bool := !g.consumed && !g.revoked && now < g.expiresAtMs

def boundTo (g : Issued) (kind : GrantKind) (peerUid : UInt32) (sessionId : Option SessionId)
    (correlation : Option GrantCorrelation) : Bool :=
  g.kind = kind && g.peerUid = peerUid && g.sessionId = sessionId && correlationMatches g.correlation correlation

def isSpent (g : Issued) (now : MonotonicMs) : Bool :=
  match g.kind with
  | .host => g.expiresAtMs ≤ now
  | .observer => !g.isActive now

def record (digestOf : SecretBearer → BitVec 256) (g : Issued) : GrantRecord where
  grantId := g.grantId
  kind := g.kind
  sessionId := g.sessionId
  peerUid := g.peerUid
  expiresAtMs := g.expiresAtMs
  consumed := g.consumed
  revoked := g.revoked
  bearer := if g.consumed || g.revoked then none else some g.bearer
  digest := digestOf g.bearer
  correlation := g.correlation

variable {g : Issued} {now later : MonotonicMs}

theorem retained_record (digestOf : SecretBearer → BitVec 256) (g : Issued) (now : MonotonicMs) :
    (g.record digestOf).retained now = !g.isSpent now := by
  have same : (g.record digestOf).kind = g.kind := rfl
  unfold GrantRecord.retained isSpent
  rw [same]
  cases g.kind with
  | host =>
    show decide (now < g.expiresAtMs) = !decide (g.expiresAtMs ≤ now)
    rw [← decide_not]
    exact decide_eq_decide.mpr Nat.not_le.symm
  | observer => exact (Bool.not_not _).symm

theorem isActive_of_le (le : now ≤ later) (active : g.isActive later = true) : g.isActive now = true := by
  simp only [isActive, Bool.and_eq_true, decide_eq_true_eq] at active ⊢
  exact ⟨active.1, Nat.lt_of_le_of_lt le active.2⟩

theorem isSpent_of_le (le : now ≤ later) (spent : g.isSpent now = true) : g.isSpent later = true := by
  unfold isSpent at spent ⊢
  cases kind : g.kind with
  | host =>
    simp only [kind, decide_eq_true_eq] at spent ⊢
    exact Nat.le_trans spent le
  | observer =>
    simp only [kind, Bool.not_eq_true'] at spent ⊢
    by_contra active
    rw [isActive_of_le le (by simpa using active)] at spent
    cases spent

theorem not_isSpent_of_isActive (active : g.isActive now = true) : g.isSpent now = false := by
  unfold isSpent
  cases g.kind with
  | host =>
    simp only [isActive, Bool.and_eq_true, decide_eq_true_eq] at active
    simpa using active.2
  | observer => simp [active]

end Issued

namespace GrantStore

inductive Call
  | mintHost (peerUid : UInt32) (correlation : Option GrantCorrelation) (ttlMs : Option Nat) (draw : Draw)
  | mintObserver (sessionId : SessionId) (peerUid : UInt32) (correlation : Option GrantCorrelation)
    (ttlMs : Option Nat) (draw : Draw)
  | consume (bearer : SecretBearer) (kind : GrantKind) (peerUid : UInt32) (sessionId : Option SessionId)
    (correlation : Option GrantCorrelation)
  | revoke (grantId : GrantId) (kind : GrantKind)
  | evictExpired
  | takeExpiredSessions
  deriving DecidableEq

def Call.draw : Call → Option Draw
  | .mintHost _ _ _ draw | .mintObserver _ _ _ _ draw => some draw
  | _ => none

inductive Answer
  | minted (result : Except MintError MintedGrant)
  | consumed (result : Except GrantRefusal ConsumedGrant)
  | revocation (outcome : RevokeOutcome)
  | evicted (count : Nat)
  | sessions (ids : List SessionId)

def Answer.isRefusal : Answer → Bool
  | .minted (.error _) | .consumed (.error _) | .revocation .notActive => true
  | _ => false

def perform (digestOf : SecretBearer → BitVec 256) (now : MonotonicMs) (s : GrantStore) : Call → Answer × GrantStore
  | .mintHost peerUid correlation ttlMs draw =>
    (s.mintHostWith digestOf peerUid correlation ttlMs now draw).map .minted id
  | .mintObserver sessionId peerUid correlation ttlMs draw =>
    (s.mintObserverWith digestOf sessionId peerUid correlation ttlMs now draw).map .minted id
  | .consume bearer kind peerUid sessionId correlation =>
    (s.consumeTo digestOf bearer kind peerUid sessionId correlation now).map .consumed id
  | .revoke grantId kind => (s.revokeKind grantId kind now).map .revocation id
  | .evictExpired => (s.evictExpired now).map .evicted id
  | .takeExpiredSessions => s.takeExpiredSessions.map .sessions id

def note (ledger : List Issued) : Call → Answer → List Issued
  | .mintHost peerUid correlation _ _, .minted (.ok m) =>
    ledger ++ [{ grantId := m.grantId, bearer := m.bearer, kind := .host, sessionId := none, peerUid := peerUid,
                 correlation := correlation, expiresAtMs := m.expiresAtMs }]
  | .mintObserver sessionId peerUid correlation _ _, .minted (.ok m) =>
    ledger ++ [{ grantId := m.grantId, bearer := m.bearer, kind := .observer, sessionId := some sessionId,
                 peerUid := peerUid, correlation := correlation, expiresAtMs := m.expiresAtMs }]
  | .consume bearer _ _ _ _, .consumed (.ok _) =>
    ledger.map fun g => if g.bearer = bearer then { g with consumed := true } else g
  | .revoke grantId _, .revocation .revoked =>
    ledger.map fun g => if g.grantId = grantId then { g with revoked := true } else g
  | _, _ => ledger

/-- A store holds, of all grants that were told, at least those it still needs. -/
structure Refines (digestOf : SecretBearer → BitVec 256) (now : MonotonicMs) (s : GrantStore) (ledger : List Issued) :
    Prop where
  ids : (ledger.map Issued.grantId).Nodup
  bearers : (ledger.map Issued.bearer).Nodup
  stored : ∀ (grantId : GrantId) r, s.grants[grantId]? = some r →
    ∃ g ∈ ledger, g.grantId = grantId ∧ r = g.record digestOf
  kept : ∀ g ∈ ledger, g.isSpent now = false → s.grants[g.grantId]? = some (g.record digestOf)

section Refinement

variable {digestOf : SecretBearer → BitVec 256} {now later : MonotonicMs} {s : GrantStore} {ledger : List Issued}
variable {g g' : Issued} {grantId : GrantId} {bearer : SecretBearer} {kind : GrantKind} {peerUid : UInt32}
variable {sessionId : Option SessionId} {correlation : Option GrantCorrelation} {r : GrantRecord}

theorem Refines.of_le (refines : Refines digestOf now s ledger) (le : now ≤ later) : Refines digestOf later s ledger where
  ids := refines.ids
  bearers := refines.bearers
  stored := refines.stored
  kept g inside needed := by
    refine refines.kept g inside ?_
    by_contra spent
    rw [Issued.isSpent_of_le le (by simpa using spent)] at needed
    cases needed

theorem Refines.same_id (refines : Refines digestOf now s ledger) (first : g ∈ ledger) (second : g' ∈ ledger)
    (same : g.grantId = g'.grantId) : g = g' := List.inj_on_of_nodup_map refines.ids first second same

theorem Refines.same_bearer (refines : Refines digestOf now s ledger) (first : g ∈ ledger) (second : g' ∈ ledger)
    (same : g.bearer = g'.bearer) : g = g' := List.inj_on_of_nodup_map refines.bearers first second same

theorem Refines.stored_of_id (refines : Refines digestOf now s ledger) (inside : g ∈ ledger)
    (here : s.grants[g.grantId]? = some r) : r = g.record digestOf := by
  obtain ⟨g', inside', same, rfl⟩ := refines.stored _ _ here
  rw [refines.same_id inside' inside same]

theorem Refines.size_filter (refines : Refines digestOf now s ledger) (p : GrantRecord → Bool)
    (needed : ∀ g ∈ ledger, p (g.record digestOf) = true → g.isSpent now = false) :
    (s.grants.filter fun _ r => p r).size = (ledger.filter fun g => p (g.record digestOf)).length := by
  rw [← ExtTreeMap.length_keys, ← List.length_map Issued.grantId]
  have distinct : ((ledger.filter fun g => p (g.record digestOf)).map Issued.grantId).Nodup :=
    refines.ids.sublist (List.filter_sublist.map _)
  refine ((List.perm_ext_iff_of_nodup ExtTreeMap.nodup_keys distinct).mpr fun grantId => ?_).length_eq
  rw [ExtTreeMap.mem_keys, TreeMap.mem_iff, List.mem_map]
  constructor
  · rintro ⟨r, found⟩
    rw [TreeMap.find_filter, Option.filter_eq_some_iff] at found
    obtain ⟨g, inside, same, rfl⟩ := refines.stored _ _ found.1
    exact ⟨g, List.mem_filter.mpr ⟨inside, found.2⟩, same⟩
  · rintro ⟨g, inside, rfl⟩
    obtain ⟨told, chosen⟩ := List.mem_filter.mp inside
    refine ⟨g.record digestOf, ?_⟩
    rw [TreeMap.find_filter, refines.kept g told (needed g told chosen)]
    simpa using chosen

theorem Refines.pending (refines : Refines digestOf now s ledger) (kind : GrantKind) (sessionId : Option SessionId) :
    s.pending kind sessionId now =
      (ledger.filter fun g => g.kind = kind && (kind = .host || g.sessionId = sessionId) && g.isActive now).length := by
  refine refines.size_filter (fun r => r.kind = kind && (kind = .host || r.sessionId = sessionId) && r.isActive now) ?_
  intro g inside chosen
  exact Issued.not_isSpent_of_isActive (Bool.and_eq_true_iff.mp chosen).2

theorem told_of_find (first : ledger.find? (fun g => g.bearer = bearer) = some g) : g ∈ ledger ∧ g.bearer = bearer := by
  refine ⟨List.mem_of_find?_eq_some first, ?_⟩
  have same := List.find?_some first
  exact of_decide_eq_true same

theorem Refines.find_told (refines : Refines digestOf now s ledger) (inside : g ∈ ledger) :
    ledger.find? (fun x => x.bearer = g.bearer) = some g := by
  cases first : ledger.find? fun x => x.bearer = g.bearer with
  | none =>
    have other := List.find?_eq_none.mp first g inside
    simp at other
  | some g' =>
    obtain ⟨told, same⟩ := told_of_find first
    rw [refines.same_bearer told inside same]

theorem lastMatch_eq (refines : Refines digestOf now s ledger) (injective : Function.Injective digestOf)
    (bearer : SecretBearer) :
    s.lastMatch digestOf bearer = (ledger.find? fun g => g.bearer = bearer).bind fun g => s.grants[g.grantId]? := by
  have only : ∀ place ∈ s.grants.toList.filter fun place => place.2.digest = digestOf bearer,
      ∃ g ∈ ledger, g.bearer = bearer ∧ place = (g.grantId, g.record digestOf) ∧
        s.grants[g.grantId]? = some (g.record digestOf) := by
    rintro ⟨grantId, r⟩ inside
    obtain ⟨listed, same⟩ := List.mem_filter.mp inside
    have found := ExtTreeMap.mem_toList_iff_getElem?_eq_some.mp listed
    obtain ⟨g, told, rfl, rfl⟩ := refines.stored _ _ found
    exact ⟨g, told, injective (of_decide_eq_true same), rfl, found⟩
  unfold lastMatch
  cases last : (s.grants.toList.filter fun place => place.2.digest = digestOf bearer).getLast? with
  | some place =>
    obtain ⟨g, told, mine, rfl, found⟩ := only place (List.mem_of_getLast? last)
    rw [← mine, refines.find_told told]
    exact found.symm
  | none =>
    have nothing := List.getLast?_eq_none_iff.mp last
    cases first : ledger.find? fun g => g.bearer = bearer with
    | none => rfl
    | some g =>
      show none = s.grants[g.grantId]?
      cases found : s.grants[g.grantId]? with
      | none => rfl
      | some r =>
        obtain ⟨told, mine⟩ := told_of_find first
        obtain rfl := refines.stored_of_id told found
        have inside : (g.grantId, g.record digestOf) ∈
            s.grants.toList.filter fun place => place.2.digest = digestOf bearer := by
          refine List.mem_filter.mpr ⟨ExtTreeMap.mem_toList_iff_getElem?_eq_some.mpr found, ?_⟩
          rw [← mine]
          exact decide_eq_true rfl
        rw [nothing] at inside
        cases inside

def opened (ledger : List Issued) (bearer : SecretBearer) (kind : GrantKind) (peerUid : UInt32)
    (sessionId : Option SessionId) (correlation : Option GrantCorrelation) (now : MonotonicMs) : Option Issued :=
  ledger.find? fun g => g.bearer = bearer && g.boundTo kind peerUid sessionId correlation && g.isActive now

end Refinement

end GrantStore

end Bitty.Daemon
