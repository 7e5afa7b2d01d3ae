import Bitty.Daemon.Registry.Session
import Bitty.Library.TreeMap
import Std.Data.ExtTreeSet.Lemmas

namespace Bitty.Daemon

open Std

def MAX_GRANT_RECORDS : Nat := 1024

def GRANT_ID_BYTES : Nat := 16

structure GrantId where
  bytes : BitVec 128
  deriving DecidableEq

namespace GrantId

instance : Ord GrantId := ⟨compareOn bytes⟩

instance : Std.TransOrd GrantId := inferInstanceAs (Std.TransCmp (compareOn bytes))

instance : Std.LawfulEqOrd GrantId where
  eq_of_compare {a b} same := by
    cases a
    cases b
    exact congrArg mk (Std.LawfulEqOrd.eq_of_compare same)

end GrantId

structure SecretBearer where
  bytes : BitVec 256
  deriving DecidableEq

structure GrantCorrelation where
  binding : BitVec 128
  deriving DecidableEq

inductive GrantKind
  | host
  | observer
  deriving DecidableEq

inductive GrantRefusal
  | capacity (kind : GrantKind) (limit : Nat)
  | unusable

inductive GrantError
  | entropyUnavailable
  | invalidGrantId
  | recordTooLarge

inductive MintError
  | refused (refusal : GrantRefusal)
  | error (error : GrantError)

structure MintedGrant where
  grantId : GrantId
  bearer : SecretBearer
  expiresAtMs : MonotonicMs

structure ConsumedGrant where
  grantId : GrantId
  kind : GrantKind
  sessionId : Option SessionId

inductive RevokeOutcome
  | revoked
  | notActive

def correlationMatches (bound connection : Option GrantCorrelation) : Bool :=
  match bound with
  | none => true
  | some bound => connection = some bound

structure GrantRecord where
  grantId : GrantId
  kind : GrantKind
  sessionId : Option SessionId
  peerUid : UInt32
  expiresAtMs : MonotonicMs
  consumed : Bool
  revoked : Bool
  bearer : Option SecretBearer
  digest : BitVec 256
  correlation : Option GrantCorrelation

namespace GrantRecord

def isActive (r : GrantRecord) (now : MonotonicMs) : Bool := !r.consumed && !r.revoked && now < r.expiresAtMs

def accountedBytes (r : GrantRecord) : Nat :=
  GRANT_ID_BYTES + 1 + (if r.sessionId.isSome then GRANT_ID_BYTES else 0) + 4 + 8 + 2 + 32 + 32 +
    if r.correlation.isSome then 16 else 0

/-- The check that `validate_to` and `consume_to` each make of the record they found. -/
def usable (r : GrantRecord) (kind : GrantKind) (peerUid : UInt32) (sessionId : Option SessionId)
    (correlation : Option GrantCorrelation) (now : MonotonicMs) : Bool :=
  r.kind = kind && r.peerUid = peerUid && r.sessionId = sessionId && correlationMatches r.correlation correlation &&
    r.isActive now

def revocable (r : GrantRecord) (kind : GrantKind) (now : MonotonicMs) : Bool :=
  r.isActive now || (kind = .host && r.consumed && !r.revoked && now < r.expiresAtMs)

def lapsed (r : GrantRecord) (now : MonotonicMs) : Bool :=
  r.kind = .observer && !r.consumed && !r.revoked && r.expiresAtMs ≤ now

def retained (r : GrantRecord) (now : MonotonicMs) : Bool :=
  match r.kind with
  | .host => now < r.expiresAtMs
  | .observer => r.isActive now

end GrantRecord

structure GrantLimits where
  hostTtlMs : Nat
  observerTtlMs : Nat
  maxHost : Nat
  maxObserverPerSession : Nat
  recordBytes : Nat

structure Draw where
  grantId : Option GrantId
  bearer : Option SecretBearer
  deriving DecidableEq

structure GrantStore where
  limits : GrantLimits
  grants : ExtTreeMap GrantId GrantRecord
  expiredSessions : ExtTreeSet SessionId

namespace GrantStore

def new (limits : GrantLimits) : GrantStore := ⟨limits, ∅, ∅⟩

def evictExpired (now : MonotonicMs) (s : GrantStore) : Nat × GrantStore :=
  let sessions := s.grants.toList.filterMap fun place => if place.2.lapsed now then place.2.sessionId else none
  let kept := s.grants.filter fun _ r => r.retained now
  (s.grants.size - kept.size, { s with grants := kept, expiredSessions := s.expiredSessions.insertMany sessions })

def takeExpiredSessions (s : GrantStore) : List SessionId × GrantStore :=
  (s.expiredSessions.toList, { s with expiredSessions := ∅ })

def hostGrantBoundTo (grantId : GrantId) (peerUid : UInt32) (correlation : Option GrantCorrelation)
    (now : MonotonicMs) (s : GrantStore) : Bool :=
  (s.grants[grantId]?).any fun r =>
    r.kind = .host && r.peerUid = peerUid && correlationMatches r.correlation correlation && !r.revoked &&
      now < r.expiresAtMs

def revokeKind (grantId : GrantId) (kind : GrantKind) (now : MonotonicMs) (s : GrantStore) : RevokeOutcome × GrantStore :=
  match s.grants[grantId]? with
  | none => (.notActive, s)
  | some r =>
    if r.kind ≠ kind ∨ ¬ r.revocable kind now then (.notActive, s)
    else (.revoked, { s with grants := s.grants.insert grantId { r with revoked := true, bearer := none } })

/-- The bearer that a keyed replay of the mint may hand out again. -/
def replayableBearer (grantId : GrantId) (kind : GrantKind) (now : MonotonicMs) (s : GrantStore) : Option SecretBearer :=
  (s.grants[grantId]?).bind fun r => if r.kind ≠ kind ∨ ¬ r.isActive now then none else r.bearer

section Digest

-- SHA-256 of the domain separator and the bearer
variable (digestOf : SecretBearer → BitVec 256)

/-- The last record with the digest, as the loops of `validate_to` and `consume_to` find it. -/
def lastMatch (bearer : SecretBearer) (s : GrantStore) : Option GrantRecord :=
  ((s.grants.toList.filter fun place => place.2.digest = digestOf bearer).getLast?).map Prod.snd

def validateTo (bearer : SecretBearer) (kind : GrantKind) (peerUid : UInt32) (sessionId : Option SessionId)
    (correlation : Option GrantCorrelation) (now : MonotonicMs) (s : GrantStore) : Except GrantRefusal GrantId :=
  match s.lastMatch digestOf bearer with
  | none => .error .unusable
  | some r => if r.usable kind peerUid sessionId correlation now then .ok r.grantId else .error .unusable

/-- Without a record under the id that was just found the source would panic. -/
def consumeTo (bearer : SecretBearer) (kind : GrantKind) (peerUid : UInt32) (sessionId : Option SessionId)
    (correlation : Option GrantCorrelation) (now : MonotonicMs) (s : GrantStore) :
    Except GrantRefusal ConsumedGrant × GrantStore :=
  match (s.lastMatch digestOf bearer).map GrantRecord.grantId with
  | none => (.error .unusable, s)
  | some grantId =>
    match s.grants[grantId]? with
    | none => (.error .unusable, s)
    | some r =>
      if r.usable kind peerUid sessionId correlation now then
        (.ok ⟨grantId, kind, sessionId⟩,
          { s with grants := s.grants.insert grantId { r with consumed := true, bearer := none } })
      else (.error .unusable, s)

/-- The sweep comes before the bound on all records; what it dropped stays dropped when the mint fails. -/
def mint (kind : GrantKind) (sessionId : Option SessionId) (peerUid : UInt32) (correlation : Option GrantCorrelation)
    (now : MonotonicMs) (ttlMs : Nat) (draw : Draw) (s : GrantStore) : Except MintError MintedGrant × GrantStore :=
  let s := (s.evictExpired now).2
  if MAX_GRANT_RECORDS ≤ s.grants.size then (.error (.refused (.capacity kind MAX_GRANT_RECORDS)), s)
  else
    match draw.grantId, draw.bearer with
    | some grantId, some bearer =>
      let r : GrantRecord :=
        { grantId := grantId
          kind := kind
          sessionId := sessionId
          peerUid := peerUid
          expiresAtMs := now.saturatingAdd ttlMs
          consumed := false
          revoked := false
          bearer := some bearer
          digest := digestOf bearer
          correlation := correlation }
      if s.limits.recordBytes < r.accountedBytes then (.error (.error .recordTooLarge), s)
      else (.ok ⟨grantId, bearer, r.expiresAtMs⟩, { s with grants := s.grants.insert grantId r })
    | _, _ => (.error (.error .entropyUnavailable), s)

def pending (s : GrantStore) (kind : GrantKind) (sessionId : Option SessionId) (now : MonotonicMs) : Nat :=
  (s.grants.filter fun _ r => r.kind = kind && (kind = .host || r.sessionId = sessionId) && r.isActive now).size

def mintHostWith (peerUid : UInt32) (correlation : Option GrantCorrelation) (ttlMs : Option Nat) (now : MonotonicMs)
    (draw : Draw) (s : GrantStore) : Except MintError MintedGrant × GrantStore :=
  if s.limits.maxHost ≤ s.pending .host none now then (.error (.refused (.capacity .host s.limits.maxHost)), s)
  else s.mint digestOf .host none peerUid correlation now (ttlMs.getD s.limits.hostTtlMs) draw

def mintObserverWith (sessionId : SessionId) (peerUid : UInt32) (correlation : Option GrantCorrelation)
    (ttlMs : Option Nat) (now : MonotonicMs) (draw : Draw) (s : GrantStore) :
    Except MintError MintedGrant × GrantStore :=
  if s.limits.maxObserverPerSession ≤ s.pending .observer (some sessionId) now then
    (.error (.refused (.capacity .observer s.limits.maxObserverPerSession)), s)
  else
    s.mint digestOf .observer (some sessionId) peerUid correlation now (ttlMs.getD s.limits.observerTtlMs) draw

end Digest

end GrantStore

end Bitty.Daemon
