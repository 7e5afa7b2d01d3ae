import Bitty.Daemon.Registry.Session
import Bitty.Library.TreeMap

namespace Bitty.Daemon

open Std

structure IdempotencyLimits where
  maxIdempotencyKeysPerSession : Nat
  maxIdempotencyBytesPerSession : Nat
  maxCreateIdempotencyKeys : Nat
  maxCreateIdempotencyBytes : Nat
  createIdempotencyTtlMs : Nat

def SESSION_IDEMPOTENCY_ENTRY_BYTES : Nat := 128

def CREATE_IDEMPOTENCY_ENTRY_BYTES : Nat := 256

inductive RefusalCode
  | versionMismatch | unauthenticated | frameTooLarge | payloadTooLarge | limitExceeded | pendingLimitExceeded
  | channelFull | rateLimited | scopeViolation | consentRequired | controllerRequired | invalidControlToken
  | observerGrantRequired | alreadyNegotiated | unsupportedCapability | unsupportedPlatform | staleInstance
  | staleGeneration | notFound | controlHeld | sessionStopping | notRunning | terminalAlreadyHosted | activeSessions
  | daemonStopping | idempotencyConflict | idempotencyCapacity | terminalEventLost | invalidMethod | invalidRequest
  | timeout | internal
  deriving DecidableEq

structure IdempotencyKey where
  bytes : BitVec 128
  deriving DecidableEq

namespace IdempotencyKey

instance : Ord IdempotencyKey := ⟨compareOn bytes⟩

instance : Std.TransOrd IdempotencyKey := inferInstanceAs (Std.TransCmp (compareOn bytes))

instance : Std.LawfulEqOrd IdempotencyKey where
  eq_of_compare {a b} same := by
    cases a
    cases b
    exact congrArg mk (Std.LawfulEqOrd.eq_of_compare same)

end IdempotencyKey

structure Fingerprint where
  bytes : BitVec 128
  deriving DecidableEq

inductive IdempotencyScope
  | session
  | create
  deriving DecidableEq

inductive IdempotentMethod
  | create
  | attach
  | grant
  | transfer
  deriving DecidableEq

namespace IdempotentMethod

def scope : IdempotentMethod → IdempotencyScope
  | .create => .create
  | .attach | .grant | .transfer => .session

end IdempotentMethod

inductive TargetKind
  | session
  | attach
  | grant
  | terminalDigest
  deriving DecidableEq

structure IdempotencyTarget where
  kind : TargetKind
  id : BitVec 128
  deriving DecidableEq

structure IdempotentIdentity where
  method : IdempotentMethod
  target : IdempotencyTarget
  fingerprint : Fingerprint
  deriving DecidableEq

structure IdempotentRequest where
  key : IdempotencyKey
  method : IdempotentMethod
  target : IdempotencyTarget
  fingerprint : Fingerprint
  connectionId : Nat
  deriving DecidableEq

def IdempotentRequest.identity (request : IdempotentRequest) : IdempotentIdentity :=
  ⟨request.method, request.target, request.fingerprint⟩

inductive AppliedClass
  | created
  | attached
  | grantMinted
  | transferred
  deriving DecidableEq

namespace AppliedClass

/-- The source's name is `matches`. -/
def matchesMethod : AppliedClass → IdempotentMethod → Bool
  | .created, .create | .attached, .attach | .grantMinted, .grant | .transferred, .transfer => true
  | _, _ => false

end AppliedClass

structure AppliedResult where
  appliedClass : AppliedClass
  sessionId : SessionId
  generation : Nat
  revision : Nat
  resultRef : Nat
  controlClaimed : Bool
  deriving DecidableEq

inductive IdempotencyResult
  | applied (result : AppliedResult)
  | refused (code : RefusalCode)
  | limited (actual limit : Nat)
  deriving DecidableEq

namespace IdempotencyResult

def isApplied : IdempotencyResult → Bool
  | .applied _ => true
  | _ => false

end IdempotencyResult

structure Reservation where
  key : IdempotencyKey
  storeId : Nat
  sequence : Nat
  method : IdempotentMethod
  deriving DecidableEq

inductive Admission
  | execute (reservation : Reservation)
  | replay (result : IdempotencyResult)

inductive IdempotencyRefusal
  | conflict (existing presented : IdempotentIdentity)
  | inFlight
  | replayOnOtherConnection
  | capacity (maxKeys maxBytes : Nat)
  | wrongScope (scope : IdempotencyScope) (method : IdempotentMethod)
  | unknownReservation
  | wrongStore
  | wrongSession (expected actual : SessionId)
  | alreadyCompleted
  | controlNotApplicable
  | resultMismatch (method : IdempotentMethod) (appliedClass : AppliedClass)
  | sequenceExhausted

inductive Retirement
  | live
  | refused
  | terminal
  deriving DecidableEq

inductive EntryState
  | inFlight
  | complete (result : IdempotencyResult) (retirement : Retirement)
  deriving DecidableEq

structure Entry where
  method : IdempotentMethod
  target : IdempotencyTarget
  fingerprint : Fingerprint
  connectionId : Nat
  insertedAt : MonotonicMs
  sequence : Nat
  state : EntryState
  deriving DecidableEq

namespace Entry

def identity (e : Entry) : IdempotentIdentity := ⟨e.method, e.target, e.fingerprint⟩

def appliedSession (e : Entry) : Option SessionId :=
  match e.state with
  | .complete (.applied applied) .live => some applied.sessionId
  | _ => none

/-- `now.saturating_since(inserted_at) >= ttl`, where a store without a floor has none. -/
def aged (e : Entry) (now : MonotonicMs) (ttlFloorMs : Option Nat) : Bool := ttlFloorMs.getD 0 ≤ now - e.insertedAt

def isRetirable (e : Entry) (now : MonotonicMs) (ttlFloorMs : Option Nat) : Bool :=
  match e.state with
  | .inFlight => false
  | .complete _ .live => false
  | .complete _ .refused => true
  | .complete _ .terminal => e.aged now ttlFloorMs

def isExpired (e : Entry) (now : MonotonicMs) (ttlFloorMs : Option Nat) : Bool :=
  match e.state with
  | .complete _ .terminal => e.aged now ttlFloorMs
  | _ => false

def retire (e : Entry) : Entry :=
  match e.state with
  | .complete result _ => { e with state := .complete result .terminal }
  | .inFlight => e

def claim (e : Entry) : Entry :=
  match e.state with
  | .complete (.applied applied) retirement =>
    { e with state := .complete (.applied { applied with controlClaimed := true }) retirement }
  | _ => e

end Entry

structure IdempotencyStore where
  storeId : Nat
  scope : IdempotencyScope
  sessionId : Option SessionId
  maxKeys : Nat
  maxBytes : Nat
  entryBytes : Nat
  ttlFloorMs : Option Nat
  entries : ExtTreeMap IdempotencyKey Entry
  order : ExtTreeMap Nat IdempotencyKey
  nextSequence : Nat

namespace IdempotencyStore

def session (storeId : Nat) (limits : IdempotencyLimits) (sessionId : SessionId) : IdempotencyStore :=
  { storeId := storeId
    scope := .session
    sessionId := some sessionId
    maxKeys := limits.maxIdempotencyKeysPerSession
    maxBytes := limits.maxIdempotencyBytesPerSession
    entryBytes := SESSION_IDEMPOTENCY_ENTRY_BYTES
    ttlFloorMs := none
    entries := ∅
    order := ∅
    nextSequence := 1 }

def create (storeId : Nat) (limits : IdempotencyLimits) : IdempotencyStore :=
  { storeId := storeId
    scope := .create
    sessionId := none
    maxKeys := limits.maxCreateIdempotencyKeys
    maxBytes := limits.maxCreateIdempotencyBytes
    entryBytes := CREATE_IDEMPOTENCY_ENTRY_BYTES
    ttlFloorMs := some limits.createIdempotencyTtlMs
    entries := ∅
    order := ∅
    nextSequence := 1 }

def capacity (s : IdempotencyStore) : Nat :=
  let byteCapacity := s.maxBytes / s.entryBytes
  if s.maxKeys < byteCapacity then s.maxKeys else byteCapacity

def len (s : IdempotencyStore) : Nat := s.entries.size

def listed (s : IdempotencyStore) (chosen : Entry → Bool) (place : Nat × IdempotencyKey) : Bool :=
  (s.entries[place.2]?).any chosen

def drop (s : IdempotencyStore) (place : Nat × IdempotencyKey) : IdempotencyStore :=
  { s with entries := s.entries.erase place.2, order := s.order.erase place.1 }

/-- `none` where no entry is retirable. -/
def evictOldestRetirable (now : MonotonicMs) (s : IdempotencyStore) : Option IdempotencyStore :=
  (s.order.toList.find? (s.listed fun e => e.isRetirable now s.ttlFloorMs)).map s.drop

/-- The loop of `begin` that evicts while the store is full. An eviction removes an entry, so it
goes round at most once for each entry. -/
def makeRoom (now : MonotonicMs) : Nat → IdempotencyStore → Bool × IdempotencyStore
  | 0, s => (s.len < s.capacity, s)
  | rounds + 1, s =>
    if s.capacity ≤ s.len then
      match s.evictOldestRetirable now with
      | none => (false, s)
      | some s => makeRoom now rounds s
    else (true, s)

/-- What `begin` answers for a key that is stored. -/
def answerDuplicate (e : Entry) (request : IdempotentRequest) : Except IdempotencyRefusal Admission :=
  if e.identity ≠ request.identity then .error (.conflict e.identity request.identity)
  else if request.method ≠ .create ∧ e.connectionId ≠ request.connectionId then .error .replayOnOtherConnection
  else
    match e.state with
    | .inFlight => .error .inFlight
    | .complete result _ => .ok (.replay result)

def insert (request : IdempotentRequest) (now : MonotonicMs) (sequence : Nat) (s : IdempotencyStore) :
    IdempotencyStore :=
  { s with
    entries := s.entries.insert request.key
      { method := request.method
        target := request.target
        fingerprint := request.fingerprint
        connectionId := request.connectionId
        insertedAt := now
        sequence := sequence
        state := .inFlight }
    order := s.order.insert sequence request.key
    nextSequence := sequence + 1 }

def begin (request : IdempotentRequest) (now : MonotonicMs) (s : IdempotencyStore) :
    Except IdempotencyRefusal Admission × IdempotencyStore :=
  if request.method.scope ≠ s.scope then (.error (.wrongScope s.scope request.method), s)
  else
    match s.entries[request.key]? with
    | some e => (answerDuplicate e request, s)
    | none =>
      if s.capacity = 0 then (.error (.capacity s.maxKeys s.maxBytes), s)
      else if s.nextSequence = U64_MAX then (.error .sequenceExhausted, s)
      else
        let sequence := s.nextSequence
        match s.makeRoom now s.len with
        | (false, s) => (.error (.capacity s.maxKeys s.maxBytes), s)
        | (true, s) =>
          (.ok (.execute ⟨request.key, s.storeId, sequence, request.method⟩), s.insert request now sequence)

def retirementOf : IdempotencyResult → Retirement
  | .refused _ | .limited _ _ => .refused
  | .applied _ => .live

/-- The checks of `complete` on the entry under the reserved key. -/
def checkCompletion (reservation : Reservation) (result : IdempotencyResult) (e : Entry) :
    Except IdempotencyRefusal Unit :=
  if e.sequence ≠ reservation.sequence ∨ e.method ≠ reservation.method then .error .unknownReservation
  else if e.state ≠ .inFlight then .error .alreadyCompleted
  else
    match result with
    | .applied applied =>
      if applied.appliedClass.matchesMethod reservation.method then .ok ()
      else .error (.resultMismatch reservation.method applied.appliedClass)
    | _ => .ok ()

def complete (reservation : Reservation) (result : IdempotencyResult) (s : IdempotencyStore) :
    Except IdempotencyRefusal Unit × IdempotencyStore :=
  if reservation.storeId ≠ s.storeId then (.error .wrongStore, s)
  else
    match s.entries[reservation.key]? with
    | none => (.error .unknownReservation, s)
    | some e =>
      match checkCompletion reservation result e with
      | .error refusal => (.error refusal, s)
      | .ok () =>
        let completed := { e with state := .complete result (retirementOf result) }
        (.ok (), { s with entries := s.entries.insert reservation.key completed })

def retireSession (sessionId : SessionId) (s : IdempotencyStore) : Except IdempotencyRefusal Nat × IdempotencyStore :=
  match s.scope, s.sessionId with
  | .session, some expected =>
    if sessionId ≠ expected then (.error (.wrongSession expected sessionId), s)
    else (.ok s.len, { s with entries := ∅, order := ∅ })
  | _, _ =>
    let ended (e : Entry) : Bool := e.appliedSession = some sessionId
    (.ok (s.entries.filter fun _ e => ended e).size,
      { s with entries := s.entries.map fun _ e => if ended e then e.retire else e })

def markControlClaimed (key : IdempotencyKey) (s : IdempotencyStore) :
    Except IdempotencyRefusal Unit × IdempotencyStore :=
  if s.scope ≠ .create then (.error .controlNotApplicable, s)
  else
    match s.entries[key]? with
    | none => (.error .controlNotApplicable, s)
    | some e =>
      match e.state with
      | .complete (.applied _) _ => (.ok (), { s with entries := s.entries.insert key e.claim })
      | _ => (.error .controlNotApplicable, s)

def evictExpired (now : MonotonicMs) (s : IdempotencyStore) : Nat × IdempotencyStore :=
  let expired := s.order.toList.filter (s.listed fun e => e.isExpired now s.ttlFloorMs)
  (expired.length, expired.foldl drop s)

end IdempotencyStore

end Bitty.Daemon
