import Bitty.Library.TreeMap
import Bitty.Daemon.Registry.Table

namespace Bitty.Daemon

def MAX_ATTACHES_PER_SESSION_SYSTEM_MAX : Nat := 16

inductive LeaseRefusal
  | sessionNotFound
  | notRunning (state : LifecycleState)
  | sessionStopping
  | staleGeneration (currentGeneration currentRevision : Nat)
  | controllerRequired
  | controlHeld
  | invalidControlToken
  | operatorPathRequired
  | notAttached
  | targetNotObserver
  | maxAttaches (limit : Nat)
  | cancelPending
  | cancelNotPending
  | unexpectedExit (state : LifecycleState)
  | terminalOutcome (error : TerminalOutcomeError)
  | revisionOverflow
  | generationOverflow
  | entropyUnavailable
  | idCollision
  | registry (refusal : RegistryRefusal)
  deriving DecidableEq

namespace LeaseRefusal

def ofRegistry : RegistryRefusal → LeaseRefusal
  | .notFound => .sessionNotFound
  | .notRunning state => .notRunning state
  | .revisionOverflow => .revisionOverflow
  | .generationOverflow => .generationOverflow
  | other => .registry other

end LeaseRefusal

/-- The bounds that `LeaseLimits::new` accepts. -/
structure LeaseLimits where
  maxAttachesPerSession : Nat
  attachLeaseTtlMs : Nat
  abortGraceMs : Nat
  drainGraceMs : Nat
  attaches_le : maxAttachesPerSession ≤ MAX_ATTACHES_PER_SESSION_SYSTEM_MAX

inductive LeaseRole
  | observer
  | controller
  deriving DecidableEq

namespace LeaseRole

def canControl : LeaseRole → Bool
  | .controller => true
  | .observer => false

end LeaseRole

structure Lease where
  attachId : AttachId
  role : LeaseRole
  clientId : Option ClientId
  attachedAt : MonotonicMs
  lastSeenAt : MonotonicMs
  expiresAt : MonotonicMs
  deriving DecidableEq

namespace Lease

def new (attachId : AttachId) (role : LeaseRole) (now : MonotonicMs) (ttlMs : Nat) : Lease where
  attachId
  role
  clientId := none
  attachedAt := now
  lastSeenAt := now
  expiresAt := MonotonicMs.saturatingAdd now ttlMs

def isExpiredAt (l : Lease) (now : MonotonicMs) : Bool := l.expiresAt ≤ now

def renew (l : Lease) (now : MonotonicMs) (ttlMs : Nat) : Lease :=
  { l with lastSeenAt := now, expiresAt := MonotonicMs.saturatingAdd now ttlMs }

def setRole (l : Lease) (role : LeaseRole) : Lease := { l with role }

def setClientId (l : Lease) (clientId : ClientId) : Lease := { l with clientId := some clientId }

def isObserver (l : Lease) : Bool := l.role = .observer

end Lease

structure ControlToken where
  bytes : BitVec 256
  deriving DecidableEq

/-- The domain-separated SHA-256 digest of a token. The hash is a package's: a parameter
`digest : ControlToken → ControlTokenDigest` stands for it. -/
structure ControlTokenDigest where
  bytes : BitVec 256
  deriving DecidableEq

open Std (ExtTreeMap)

structure ControlAuthority where
  lease : Option AttachId
  token : Option ControlToken
  operator : Bool

namespace ControlAuthority

def ofLease (attachId : AttachId) : ControlAuthority := ⟨some attachId, none, false⟩

def ofToken (token : ControlToken) : ControlAuthority := ⟨none, some token, false⟩

def ofOperator : ControlAuthority := ⟨none, none, true⟩

def withToken (a : ControlAuthority) (token : ControlToken) : ControlAuthority := { a with token := some token }

end ControlAuthority

inductive Actor
  | lease (attachId : AttachId)
  | controlToken
  | operator
  | worker
  deriving DecidableEq

structure CreatedSession where
  session : SessionSnapshot
  controlToken : ControlToken
  deriving DecidableEq

structure LeaseExpiry where
  sessionId : SessionId
  attachId : AttachId
  role : LeaseRole
  revision : Nat
  deriving DecidableEq

structure Attached where
  lease : Lease
  session : SessionSnapshot
  expired : List LeaseExpiry
  deriving DecidableEq

structure Claimed where
  lease : Lease
  controlToken : ControlToken
  session : SessionSnapshot
  vacatedExpiredController : Option LeaseExpiry
  deriving DecidableEq

structure TransferDelivery where
  target : AttachId
  token : ControlToken
  deriving DecidableEq

structure Transferred where
  session : SessionSnapshot
  actor : Actor
  previousController : Option AttachId
  controller : AttachId
  delivery : TransferDelivery
  vacatedExpiredController : Option LeaseExpiry
  deriving DecidableEq

structure Detached where
  session : SessionSnapshot
  attachId : AttachId
  role : Option LeaseRole
  wasAttached : Bool
  revoked : Bool
  controlRetired : Bool
  actor : Actor
  deriving DecidableEq

structure LeaseHeartbeat where
  lease : Lease
  session : SessionSnapshot
  deriving DecidableEq

inductive AbortStage
  | graceful
  | killDue
  deriving DecidableEq

structure StopAccepted where
  session : SessionSnapshot
  generation : Nat
  stage : AbortStage
  deadline : MonotonicMs
  actor : Actor
  alreadyAccepted : Bool
  deriving DecidableEq

structure PreBindCancelAccepted where
  session : SessionSnapshot
  reason : TerminalReason
  actor : Actor
  alreadyAccepted : Bool
  deriving DecidableEq

inductive StopOutcome
  | accepted (stop : StopAccepted)
  | preBindCancel (cancel : PreBindCancelAccepted)
  | alreadyTerminal (session : SessionSnapshot)
  deriving DecidableEq

inductive ExitObservation
  | exited (code : UInt8)
  | signalled (signal : UInt32)
  | spawnFailed (failure : SpawnFailure)
  | supervisionFailed
  | daemonTerminated

structure TerminalNotice where
  session : SessionSnapshot
  reason : TerminalReason
  exit : ExitInformation
  cleanup : CleanupClass
  actor : Actor
  attached : List AttachId
  deriving DecidableEq

inductive Termination
  | completed (notice : TerminalNotice)
  | alreadyTerminal (session : SessionSnapshot)
  deriving DecidableEq

structure AbortEscalation where
  deadline : MonotonicMs
  first : Bool
  deriving DecidableEq

inductive ConsumerStopCause
  | cancel
  | timeout

namespace ConsumerStopCause

def reason : ConsumerStopCause → TerminalReason
  | .cancel => .consumerCancel
  | .timeout => .consumerTimeout

end ConsumerStopCause

inductive DaemonStopCause
  | operatorAbort
  | daemonStop
  | hostShutdown

namespace DaemonStopCause

def reason : DaemonStopCause → TerminalReason
  | .operatorAbort => .operatorAbort
  | .daemonStop => .daemonStop
  | .hostShutdown => .hostShutdown

def graceMs (cause : DaemonStopCause) (limits : LeaseLimits) : Nat :=
  match cause with
  | .operatorAbort => limits.abortGraceMs
  | .daemonStop | .hostShutdown => limits.drainGraceMs

end DaemonStopCause

inductive Authorized
  | controller (attachId : AttachId)
  | vacantToken
  | operator
  deriving DecidableEq

namespace Authorized

def actor : Authorized → Actor
  | .controller attachId => .lease attachId
  | .vacantToken => .controlToken
  | .operator => .operator

end Authorized

inductive Relation
  | controller (attachId : AttachId)
  | vacantToken (token : ControlToken)
  | operator

inductive TokenSlot
  | current (digest : ControlTokenDigest)
  | retired
  deriving DecidableEq

structure StopState where
  reason : TerminalReason
  actor : Actor
  deadline : MonotonicMs
  escalated : Bool

namespace StopState

def stage (s : StopState) (now : MonotonicMs) : AbortStage :=
  if s.escalated ∨ s.deadline ≤ now then .killDue else .graceful

end StopState

structure CancelIntent where
  reason : TerminalReason
  actor : Actor

structure SessionLeaseState where
  token : TokenSlot
  claimed : Bool
  controller : Option AttachId
  leases : ExtTreeMap AttachId Lease
  stop : Option StopState
  cancel : Option CancelIntent

namespace SessionLeaseState

def new (digest : ControlTokenDigest) : SessionLeaseState := ⟨.current digest, false, none, ∅, none, none⟩

def tokenMatches (digest : ControlToken → ControlTokenDigest) (s : SessionLeaseState) (token : ControlToken) : Bool :=
  match s.token with
  | .current stored => stored = digest token
  | .retired => false

def liveController (s : SessionLeaseState) (now : MonotonicMs) : Option AttachId :=
  s.controller.filter fun attachId => s.leases[attachId]?.any fun lease => !lease.isExpiredAt now

def expiredController (s : SessionLeaseState) (now : MonotonicMs) : Option Lease :=
  (s.controller.bind fun attachId => s.leases[attachId]?).filter fun lease => lease.isExpiredAt now

/-- The leases that are not expired at `now`. -/
def liveLeases (s : SessionLeaseState) (now : MonotonicMs) : ExtTreeMap AttachId Lease :=
  s.leases.filter fun _ lease => !lease.isExpiredAt now

def liveAttachCount (s : SessionLeaseState) (now : MonotonicMs) : Nat := min (s.liveLeases now).size U16_MAX

def liveObservers (s : SessionLeaseState) (now : MonotonicMs) : Nat :=
  (s.leases.filter fun _ lease => lease.isObserver && !lease.isExpiredAt now).size

def modifyLease (s : SessionLeaseState) (attachId : AttachId) (f : Lease → Lease) : SessionLeaseState :=
  { s with leases := s.leases.modify attachId f }

def removeLease (s : SessionLeaseState) (attachId : AttachId) : SessionLeaseState :=
  { s with
    leases := s.leases.erase attachId
    controller := if s.controller = some attachId then none else s.controller }

end SessionLeaseState

structure SessionHost where
  registry : SessionRegistry
  limits : LeaseLimits
  entropy : Entropy
  sessions : ExtTreeMap SessionId SessionLeaseState := ∅
  leaseSessions : ExtTreeMap AttachId SessionId := ∅

abbrev HostM := Mutation SessionHost LeaseRefusal

namespace SessionHost

open Mutation

variable (digest : ControlToken → ControlTokenDigest)

def composeSnapshot (h : SessionHost) (snapshot : SessionSnapshot) (now : MonotonicMs) : SessionSnapshot :=
  let state := h.sessions[snapshot.sessionId]?
  let count := (state.map fun state => state.liveAttachCount now).getD 0
  { snapshot with
    attachCount := count
    attached := 0 < count
    controllerPresent := state.any fun state => (state.liveController now).isSome }

def snapshot (h : SessionHost) (sessionId : SessionId) (now : MonotonicMs) : Option SessionSnapshot :=
  (h.registry.snapshot sessionId).map fun snapshot => h.composeSnapshot snapshot now

def onRegistry {α : Type} (m : RegistryM α) : HostM α :=
  zoom registry (fun h registry => { h with registry }) LeaseRefusal.ofRegistry m

def modifyState (h : SessionHost) (sessionId : SessionId) (f : SessionLeaseState → SessionLeaseState) : SessionHost :=
  { h with sessions := h.sessions.modify sessionId f }

def findState (sessionId : SessionId) (h : SessionHost) : Except LeaseRefusal SessionLeaseState :=
  match h.sessions[sessionId]? with
  | some state => .ok state
  | none => .error .sessionNotFound

def findSnapshot (sessionId : SessionId) (h : SessionHost) : Except LeaseRefusal SessionSnapshot :=
  match h.registry.snapshot sessionId with
  | some snapshot => .ok snapshot
  | none => .error .sessionNotFound

def liveSession (sessionId : SessionId) (h : SessionHost) : Except LeaseRefusal SessionSnapshot :=
  match h.registry.snapshot sessionId with
  | some snapshot => if snapshot.state.isTerminal then .error (.notRunning snapshot.state) else .ok snapshot
  | none => .error .sessionNotFound

def staleGeneration (snapshot : SessionSnapshot) : LeaseRefusal :=
  .staleGeneration snapshot.generation snapshot.stateRevision

def actionableLease (sessionId : SessionId) (attachId : AttachId) (now : MonotonicMs) (h : SessionHost) :
    Except LeaseRefusal Lease :=
  if h.leaseSessions[attachId]? ≠ some sessionId then .error .notAttached
  else
    match h.sessions[sessionId]?.bind fun state => state.leases[attachId]? with
    | none => .error .notAttached
    | some lease => if lease.isExpiredAt now then .error .notAttached else .ok lease

def verifyToken (sessionId : SessionId) (token : ControlToken) (h : SessionHost) : Except LeaseRefusal Unit := do
  let state ← findState sessionId h
  if state.tokenMatches digest token then .ok () else .error .invalidControlToken

def resolveRelation (sessionId : SessionId) (authority : ControlAuthority) (now : MonotonicMs) (h : SessionHost) :
    Except LeaseRefusal Relation :=
  if authority.operator then .ok .operator
  else
    match authority.lease with
    | some leaseId => do
      let lease ← actionableLease sessionId leaseId now h
      if lease.role.canControl then .ok (.controller leaseId) else .error .controllerRequired
    | none =>
      match authority.token with
      | none => .error .controllerRequired
      | some token => do
        let state ← findState sessionId h
        if (state.liveController now).isSome then .error .controlHeld else .ok (.vacantToken token)

def authorizeControl (sessionId : SessionId) (expectedGeneration : Nat) (authority : ControlAuthority) (now : MonotonicMs)
    (h : SessionHost) : Except LeaseRefusal Authorized := do
  let snapshot ← liveSession sessionId h
  match ← resolveRelation sessionId authority now h with
  | .operator => .error .operatorPathRequired
  | .controller controller =>
    if snapshot.generation ≠ expectedGeneration then .error (staleGeneration snapshot) else .ok (.controller controller)
  | .vacantToken token =>
    if snapshot.generation ≠ expectedGeneration then .error (staleGeneration snapshot)
    else do
      verifyToken digest sessionId token h
      .ok .vacantToken

def authorizeContentRead (attachId : AttachId) (now : MonotonicMs) (h : SessionHost) : Except LeaseRefusal Lease :=
  match h.leaseSessions[attachId]? with
  | none => .error .notAttached
  | some sessionId => actionableLease sessionId attachId now h

def authorizeController (attachId : AttachId) (now : MonotonicMs) (h : SessionHost) : Except LeaseRefusal Lease :=
  match h.leaseSessions[attachId]? with
  | none => .error .notAttached
  | some sessionId => do
    let lease ← actionableLease sessionId attachId now h
    if lease.role.canControl then .ok lease else .error .controllerRequired

def verifyControlToken (h : SessionHost) (sessionId : SessionId) (token : ControlToken) : Bool :=
  h.sessions[sessionId]?.any fun state => state.tokenMatches digest token

def authorityActor (authority : ControlAuthority) : Actor :=
  if authority.operator then .operator
  else
    match authority.lease with
    | some attachId => .lease attachId
    | none => .controlToken

def mintToken : HostM ControlToken := fun h =>
  match h.entropy.fill32 with
  | (some value, entropy) => (.ok ⟨value⟩, { h with entropy })
  | (none, entropy) => (.error .entropyUnavailable, { h with entropy })

def mintRotatedToken (sessionId : SessionId) : HostM ControlToken := do
  let token ← mintToken
  refuseIf (fun h => h.sessions[sessionId]?.any fun state => state.tokenMatches digest token) .entropyUnavailable
  return token

def fill : HostM (BitVec 128) := fun h =>
  match h.entropy.fill16 with
  | (some value, entropy) => (.ok value, { h with entropy })
  | (none, entropy) => (.error .entropyUnavailable, { h with entropy })

def mintAttachIdWithin : (attempts : Nat) → HostM AttachId
  | 0 => refuse .idCollision
  | attempts + 1 => do
    let attachId : AttachId := ⟨← fill⟩
    let taken ← Mutation.read fun h => h.leaseSessions.contains attachId
    if taken then mintAttachIdWithin attempts else return attachId

def mintAttachId : HostM AttachId := mintAttachIdWithin ID_GENERATION_ATTEMPTS

def renewLease (attachId : AttachId) (now : MonotonicMs) (h : SessionHost) : SessionHost :=
  match h.leaseSessions[attachId]? with
  | none => h
  | some sessionId => h.modifyState sessionId (·.modifyLease attachId (·.renew now h.limits.attachLeaseTtlMs))

def renewAuthorized (authorized : Authorized) (now : MonotonicMs) (h : SessionHost) : SessionHost :=
  match authorized with
  | .controller attachId => h.renewLease attachId now
  | _ => h

/-- Takes the lease out of the table and of the reverse index. -/
def forgetLease (h : SessionHost) (sessionId : SessionId) (attachId : AttachId) : SessionHost :=
  { h.modifyState sessionId (·.removeLease attachId) with leaseSessions := h.leaseSessions.erase attachId }

def removeLease (sessionId : SessionId) (attachId : AttachId) (now : MonotonicMs) : HostM (Lease × SessionSnapshot) := do
  let lease ← ask fun h =>
    match h.sessions[sessionId]?.bind fun state => state.leases[attachId]? with
    | none => .error .notAttached
    | some lease => .ok lease
  let session ← onRegistry (SessionRegistry.detach sessionId now)
  change (·.forgetLease sessionId attachId)
  return (lease, session)

def createKind (request : CreateSession) (kind : SessionKind) (now : MonotonicMs) : HostM CreatedSession := do
  let controlToken ← mintToken
  let session ← onRegistry (SessionRegistry.createKind request kind now)
  change fun h =>
    { h with sessions := h.sessions.insert session.sessionId (SessionLeaseState.new (digest controlToken)) }
  let session ← Mutation.read fun h => h.composeSnapshot session now
  return { session, controlToken }

def create (request : CreateSession) (now : MonotonicMs) : HostM CreatedSession := createKind digest request .terminal now

def discardCreated (sessionId : SessionId) : HostM Unit := do
  let state ← ask (findState sessionId)
  refuseIf (fun _ => !state.leases.isEmpty) (.notRunning .created)
  onRegistry (SessionRegistry.discardCreated sessionId)
  change fun h => { h with sessions := h.sessions.erase sessionId }

def bind (sessionId : SessionId) (now : MonotonicMs) : HostM SessionSnapshot := do
  refuseIf (fun h => h.sessions[sessionId]?.any fun state => state.cancel.isSome) .cancelPending
  let snapshot ← onRegistry (SessionRegistry.bind sessionId now)
  Mutation.read fun h => h.composeSnapshot snapshot now

def forgetRetained (h : SessionHost) (sessionId : SessionId) : SessionHost :=
  match h.sessions[sessionId]? with
  | none => h
  | some state =>
    { h with
      sessions := h.sessions.erase sessionId
      leaseSessions := state.leases.keys.foldl (fun index attachId => index.erase attachId) h.leaseSessions }

def collectRetained (h : SessionHost) (now : MonotonicMs) : List SessionId × SessionHost :=
  let collected := h.registry.collectRetained now
  let h := collected.1.foldl forgetRetained { h with registry := collected.2 }
  let evicted := h.sessions.keys.filter fun sessionId => (h.registry.snapshot sessionId).isNone
  (collected.1, evicted.foldl forgetRetained h)

def sweepLeases (sessionId : SessionId) (now : MonotonicMs) : List Lease → HostM (List LeaseExpiry)
  | [] => pure []
  | lease :: rest => do
    let exists' ← Mutation.read fun h => h.sessions[sessionId]?.any fun state => state.leases.contains lease.attachId
    if exists' then
      match ← attempt (onRegistry (SessionRegistry.detach sessionId now)) with
      | none => sweepLeases sessionId now rest
      | some session => do
        change (·.forgetLease sessionId lease.attachId)
        let expired ← sweepLeases sessionId now rest
        return ⟨sessionId, lease.attachId, lease.role, session.stateRevision⟩ :: expired
    else sweepLeases sessionId now rest

def dueLeases (h : SessionHost) (sessionId : SessionId) (now : MonotonicMs) : List Lease :=
  (h.sessions[sessionId]?.map fun state => (state.leases.toList.map Prod.snd).filter fun lease => lease.isExpiredAt now).getD []

def sweepSession (sessionId : SessionId) (now : MonotonicMs) : HostM (List LeaseExpiry) := do
  let due ← Mutation.read fun h => h.dueLeases sessionId now
  sweepLeases sessionId now due

def sweepSessions (now : MonotonicMs) : List SessionId → HostM (List LeaseExpiry)
  | [] => pure []
  | sessionId :: rest => do
    let expired ← sweepSession sessionId now
    return expired ++ (← sweepSessions now rest)

def expireDue (now : MonotonicMs) : HostM (List LeaseExpiry) := do
  let sessionIds ← Mutation.read fun h => h.sessions.keys
  sweepSessions now sessionIds

def attachObserver (sessionId : SessionId) (now : MonotonicMs) : HostM Attached := do
  let _ ← ask (liveSession sessionId)
  let state ← ask (findState sessionId)
  let limits ← Mutation.read limits
  let limit := limits.maxAttachesPerSession
  refuseIf (fun _ => limit ≤ state.liveObservers now) (.maxAttaches limit)
  let attachId ← mintAttachId
  let expired ← sweepSession sessionId now
  refuseIf (fun h => limit + 1 ≤ (h.sessions[sessionId]?.map fun state => state.leases.size).getD 0) (.maxAttaches limit)
  let lease := Lease.new attachId .observer now limits.attachLeaseTtlMs
  let session ← onRegistry (SessionRegistry.attach sessionId now)
  let _ ← ask (findState sessionId)
  change fun h =>
    { h.modifyState sessionId (fun state => { state with leases := state.leases.insert attachId lease }) with
      leaseSessions := h.leaseSessions.insert attachId sessionId }
  let session ← Mutation.read fun h => h.composeSnapshot session now
  return { lease, session, expired }

def vacate (sessionId : SessionId) (now : MonotonicMs) : Option Lease → HostM (Option LeaseExpiry)
  | none => pure none
  | some expired => do
    let (vacated, detached) ← removeLease sessionId expired.attachId now
    return some ⟨sessionId, vacated.attachId, vacated.role, detached.stateRevision⟩

def claimController (sessionId : SessionId) (expectedGeneration : Nat) (token : ControlToken) (now : MonotonicMs) :
    HostM Claimed := do
  let session ← ask (liveSession sessionId)
  refuseIf (fun h => session.state = .stopping || h.sessions[sessionId]?.any fun state => state.cancel.isSome)
    .sessionStopping
  refuseIf (fun _ => session.generation ≠ expectedGeneration) (staleGeneration session)
  let state ← ask (findState sessionId)
  let expiredController := state.expiredController now
  refuseIf (fun _ => state.controller.isSome && expiredController.isNone) .controlHeld
  refuseIf (fun _ => !state.tokenMatches digest token) .invalidControlToken
  let controlToken ← mintRotatedToken digest sessionId
  let attachId ← mintAttachId
  let limits ← Mutation.read limits
  let lease := Lease.new attachId .controller now limits.attachLeaseTtlMs
  let vacatedExpiredController ← vacate sessionId now expiredController
  let session ← onRegistry (SessionRegistry.attach sessionId now)
  let _ ← ask (findState sessionId)
  change fun h =>
    { h.modifyState sessionId (fun state =>
        { state with
          leases := state.leases.insert attachId lease
          controller := some attachId
          token := .current (digest controlToken)
          claimed := true }) with
      leaseSessions := h.leaseSessions.insert attachId sessionId }
  let session ← Mutation.read fun h => h.composeSnapshot session now
  return { lease, controlToken, session, vacatedExpiredController }

def heartbeat (attachId : AttachId) (now : MonotonicMs) : HostM LeaseHeartbeat := do
  let sessionId ← ask fun h =>
    match h.leaseSessions[attachId]? with
    | none => .error .notAttached
    | some sessionId => .ok sessionId
  let live ← ask fun h =>
    match h.sessions[sessionId]?.bind fun state => state.leases[attachId]? with
    | none => .error .notAttached
    | some lease => .ok lease
  refuseIf (fun _ => live.isExpiredAt now) .notAttached
  let session ← onRegistry (SessionRegistry.heartbeat sessionId now)
  let limits ← Mutation.read limits
  change (·.modifyState sessionId (·.modifyLease attachId (·.renew now limits.attachLeaseTtlMs)))
  let session ← Mutation.read fun h => h.composeSnapshot session now
  return { lease := live.renew now limits.attachLeaseTtlMs, session }

end SessionHost

end Bitty.Daemon
