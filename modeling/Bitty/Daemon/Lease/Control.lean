import Bitty.Daemon.Lease.Host

namespace Bitty.Daemon.SessionHost

open Mutation

variable (digest : ControlToken → ControlTokenDigest)

def isExpiredLease (h : SessionHost) (sessionId : SessionId) (attachId : AttachId) (now : MonotonicMs) : Bool :=
  (h.sessions[sessionId]?.bind fun state => state.leases[attachId]?).any fun lease => lease.isExpiredAt now

def isLiveLease (h : SessionHost) (sessionId : SessionId) (attachId : AttachId) (now : MonotonicMs) : Bool :=
  (h.sessions[sessionId]?.bind fun state => state.leases[attachId]?).any fun lease => !lease.isExpiredAt now

def isController (h : SessionHost) (sessionId : SessionId) (attachId : AttachId) : Bool :=
  h.sessions[sessionId]?.any fun state => state.controller = some attachId

def isForeign (h : SessionHost) (sessionId : SessionId) (attachId : AttachId) : Bool :=
  h.leaseSessions[attachId]?.any fun owner => owner ≠ sessionId

def authorizeDetach (sessionId : SessionId) (authority : ControlAuthority) (now : MonotonicMs) (h : SessionHost) :
    Except LeaseRefusal Authorized := do
  match ← resolveRelation sessionId authority now h with
  | .controller controller => return .controller controller
  | .vacantToken token =>
    verifyToken digest sessionId token h
    return .vacantToken
  | .operator => return .operator

def retireToken (h : SessionHost) (sessionId : SessionId) : SessionHost :=
  h.modifyState sessionId fun state => { state with token := .retired }

def notDetached (h : SessionHost) (snapshot : SessionSnapshot) (target : AttachId) (actor : Actor) (now : MonotonicMs) :
    Detached where
  session := h.composeSnapshot snapshot now
  attachId := target
  role := none
  wasAttached := false
  revoked := false
  controlRetired := false
  actor

/-- The explicit revoke of a controller that the TTL has already detached: the token is retired in
the same call. -/
def revokeLapsed (sessionId : SessionId) (target : AttachId) (now : MonotonicMs) : HostM Detached := do
  let _ ← removeLease sessionId target now
  change (·.retireToken sessionId)
  let session ← ask (findSnapshot sessionId)
  Mutation.read fun h =>
    { session := h.composeSnapshot session now
      attachId := target
      role := some .controller
      wasAttached := false
      revoked := true
      controlRetired := true
      actor := .operator }

def detachLive (sessionId : SessionId) (target : AttachId) (authority : ControlAuthority) (own : Bool)
    (authorized : Authorized) (now : MonotonicMs) : HostM Detached := do
  let controllerTarget ← Mutation.read fun h => h.isController sessionId target
  let controlRetired := controllerTarget && !own && authorized = .operator
  let (lease, session) ← removeLease sessionId target now
  change fun h => if controlRetired then h.retireToken sessionId else h
  change fun h =>
    match authority.lease with
    | some actorLease => if actorLease ≠ target then h.renewLease actorLease now else h
    | none => h
  let session ← Mutation.read fun h => h.composeSnapshot session now
  return {
    session
    attachId := target
    role := some lease.role
    wasAttached := true
    revoked := !own
    controlRetired
    actor := authorized.actor }

def detachAuthorized (sessionId : SessionId) (target : AttachId) (authority : ControlAuthority) (own : Bool)
    (snapshot : SessionSnapshot) (authorized : Authorized) (now : MonotonicMs) : HostM Detached := fun h =>
  if h.isLiveLease sessionId target now then detachLive sessionId target authority own authorized now h
  else if h.isController sessionId target && !own && authorized = .operator then revokeLapsed sessionId target now h
  else (.ok (h.notDetached snapshot target authorized.actor now), h)

def detachOwn (sessionId : SessionId) (target : AttachId) (authority : ControlAuthority) (snapshot : SessionSnapshot)
    (now : MonotonicMs) : HostM Detached := fun h =>
  if h.isExpiredLease sessionId target now then (.ok (h.notDetached snapshot target (.lease target) now), h)
  else
    (do
      let _ ← ask (actionableLease sessionId target now)
      detachAuthorized sessionId target authority true snapshot (.controller target) now : HostM Detached) h

def detachOther (sessionId : SessionId) (target : AttachId) (authority : ControlAuthority) (snapshot : SessionSnapshot)
    (now : MonotonicMs) : HostM Detached := do
  let authorized ← ask (authorizeDetach digest sessionId authority now)
  detachAuthorized sessionId target authority false snapshot authorized now

def detach (sessionId : SessionId) (target : AttachId) (authority : ControlAuthority) (now : MonotonicMs) :
    HostM Detached := do
  let snapshot ← ask (findSnapshot sessionId)
  if snapshot.state.isTerminal then
    Mutation.read fun h => h.notDetached snapshot target (authorityActor authority) now
  else do
    refuseIf (fun h => h.isForeign sessionId target) .notAttached
    if !authority.operator ∧ authority.lease = some target then detachOwn sessionId target authority snapshot now
    else detachOther digest sessionId target authority snapshot now

def recordResize (attachId : AttachId) (now : MonotonicMs) : HostM SessionSnapshot := do
  let _ ← ask (authorizeController attachId now)
  let sessionId ← ask fun h =>
    match h.leaseSessions[attachId]? with
    | none => .error .notAttached
    | some sessionId => .ok sessionId
  let snapshot ← onRegistry (SessionRegistry.recordLeaseMutation sessionId now)
  change (·.renewLease attachId now)
  Mutation.read fun h => h.composeSnapshot snapshot now

def recordGrantMutation (sessionId : SessionId) (now : MonotonicMs) : HostM SessionSnapshot := do
  let snapshot ← onRegistry (SessionRegistry.noteVisibleMutation sessionId now)
  Mutation.read fun h => h.composeSnapshot snapshot now

def transferTarget (sessionId : SessionId) (target : AttachId) (now : MonotonicMs) (h : SessionHost) :
    Except LeaseRefusal SessionLeaseState := do
  let state ← findState sessionId h
  match state.leases[target]? with
  | none => .error .notAttached
  | some lease =>
    if lease.isExpiredAt now then .error .notAttached
    else if lease.role ≠ .observer then .error .targetNotObserver
    else .ok state

def moveControl (h : SessionHost) (sessionId : SessionId) (previous : Option AttachId) (target : AttachId)
    (newDigest : ControlTokenDigest) (now : MonotonicMs) : SessionHost :=
  let moved := h.modifyState sessionId fun state =>
    let demoted := match previous with
      | some previous => state.modifyLease previous (·.setRole .observer)
      | none => state
    { demoted.modifyLease target (·.setRole .controller) with
      controller := some target
      token := .current newDigest
      claimed := true }
  let renewed := match previous with
    | some previous => moved.renewLease previous now
    | none => moved
  renewed.renewLease target now

def transferControl (sessionId : SessionId) (expectedGeneration : Nat) (authority : ControlAuthority) (target : AttachId)
    (now : MonotonicMs) : HostM Transferred := do
  let _ ← ask (liveSession sessionId)
  refuseIf (fun _ => authority.operator) .operatorPathRequired
  let authorized ← ask (authorizeControl digest sessionId expectedGeneration authority now)
  let state ← ask (transferTarget sessionId target now)
  let (previousController, expiredController) ← ask fun _ =>
    match authorized with
    | .controller controller => .ok (some controller, none)
    | .vacantToken => .ok (none, state.expiredController now)
    | .operator => .error .operatorPathRequired
  let controlToken ← mintRotatedToken digest sessionId
  let vacatedExpiredController ← vacate sessionId now expiredController
  let session ← onRegistry (SessionRegistry.recordLeaseMutation sessionId now)
  let _ ← ask (findState sessionId)
  change fun h => h.moveControl sessionId previousController target (digest controlToken) now
  let session ← Mutation.read fun h => h.composeSnapshot session now
  return {
    session
    actor := authorized.actor
    previousController
    controller := target
    delivery := ⟨target, controlToken⟩
    vacatedExpiredController }

def assignLeaseClient (h : SessionHost) (attachId : AttachId) (clientId : ClientId) : SessionHost :=
  match h.leaseSessions[attachId]? with
  | none => h
  | some sessionId => h.modifyState sessionId (·.modifyLease attachId (·.setClientId clientId))

def noteOrigin (h : SessionHost) (sessionId : SessionId) (ownerClientId : Option ClientId) (createdByKind : OriginKind) :
    SessionHost :=
  { h with registry := h.registry.noteOrigin sessionId ownerClientId createdByKind }

def noteRequester (h : SessionHost) (sessionId : SessionId) (requester : Requester) : SessionHost :=
  { h with registry := h.registry.noteRequester sessionId requester }

def observeWorker (sessionId : SessionId) (now : MonotonicMs) : HostM Unit := do
  let _ ← attempt (onRegistry (SessionRegistry.observeWorker sessionId now))
  return ()

end Bitty.Daemon.SessionHost
