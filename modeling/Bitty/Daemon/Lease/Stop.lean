import Bitty.Daemon.Lease.Host

namespace Bitty.Daemon.SessionHost

open Mutation

variable (digest : ControlToken → ControlTokenDigest)

def preBindCancel (h : SessionHost) (snapshot : SessionSnapshot) (intent : CancelIntent) (alreadyAccepted : Bool)
    (now : MonotonicMs) : StopOutcome :=
  .preBindCancel {
    session := h.composeSnapshot snapshot now
    reason := intent.reason
    actor := intent.actor
    alreadyAccepted }

/-- No worker exists yet: the generation-0 cancel intent is committed. -/
def commitCancel (sessionId : SessionId) (snapshot : SessionSnapshot) (intent : CancelIntent) (now : MonotonicMs) :
    HostM StopOutcome := do
  let _ ← ask (findState sessionId)
  change (·.modifyState sessionId fun state => { state with cancel := some intent })
  Mutation.read fun h => h.preBindCancel snapshot intent false now

def beginStop (sessionId : SessionId) (stop : StopState) (authorized : Authorized) (now : MonotonicMs) :
    HostM SessionSnapshot := do
  let session ← onRegistry (SessionRegistry.beginStopping sessionId now)
  let _ ← ask (findState sessionId)
  change (·.modifyState sessionId fun state => { state with stop := some stop })
  change (·.renewAuthorized authorized now)
  Mutation.read fun h => h.composeSnapshot session now

def commitStop (sessionId : SessionId) (authorized : Authorized) (reason : TerminalReason) (now : MonotonicMs)
    (graceMs : Nat) : HostM StopOutcome := do
  let snapshot ← ask (findSnapshot sessionId)
  let state ← Mutation.read fun h => h.sessions[sessionId]?
  match state.bind (·.cancel) with
  | some intent => Mutation.read fun h => h.preBindCancel snapshot intent true now
  | none =>
    if snapshot.state = .stopping then
      match state.bind (·.stop) with
      | none => refuse (.unexpectedExit snapshot.state)
      | some stop =>
        Mutation.read fun h => .accepted {
          session := h.composeSnapshot snapshot now
          generation := snapshot.generation
          stage := stop.stage now
          deadline := stop.deadline
          actor := stop.actor
          alreadyAccepted := true }
    else if snapshot.state = .created then commitCancel sessionId snapshot ⟨reason, authorized.actor⟩ now
    else do
      let deadline := MonotonicMs.saturatingAdd now graceMs
      let session ← beginStop sessionId ⟨reason, authorized.actor, deadline, false⟩ authorized now
      return .accepted {
        session
        generation := snapshot.generation
        stage := .graceful
        deadline
        actor := authorized.actor
        alreadyAccepted := false }

def abort (sessionId : SessionId) (expectedGeneration : Nat) (authority : ControlAuthority) (cause : ConsumerStopCause)
    (now : MonotonicMs) : HostM StopOutcome := do
  refuseIf (fun _ => authority.operator) .operatorPathRequired
  let snapshot ← ask (findSnapshot sessionId)
  if snapshot.state.isTerminal then Mutation.read fun h => .alreadyTerminal (h.composeSnapshot snapshot now)
  else do
    let authorized ← ask (authorizeControl digest sessionId expectedGeneration authority now)
    let limits ← Mutation.read limits
    commitStop sessionId authorized cause.reason now limits.abortGraceMs

def operatorStop (sessionId : SessionId) (expectedGeneration : Nat) (cause : DaemonStopCause) (now : MonotonicMs) :
    HostM StopOutcome := do
  let snapshot ← ask (findSnapshot sessionId)
  if snapshot.state.isTerminal then Mutation.read fun h => .alreadyTerminal (h.composeSnapshot snapshot now)
  else do
    refuseIf (fun _ => snapshot.generation ≠ expectedGeneration) (staleGeneration snapshot)
    let limits ← Mutation.read limits
    commitStop sessionId .operator cause.reason now (cause.graceMs limits)

def escalate (h : SessionHost) (sessionId : SessionId) (now : MonotonicMs) : SessionHost :=
  h.modifyState sessionId fun state =>
    { state with stop := state.stop.map fun stop => { stop with deadline := now, escalated := true } }

def kill (sessionId : SessionId) (expectedGeneration : Nat) (now : MonotonicMs) : HostM StopOutcome := do
  let snapshot ← ask (findSnapshot sessionId)
  if snapshot.state.isTerminal then Mutation.read fun h => .alreadyTerminal (h.composeSnapshot snapshot now)
  else do
    refuseIf (fun _ => snapshot.generation ≠ expectedGeneration) (staleGeneration snapshot)
    let state ← ask (findState sessionId)
    match state.cancel with
    | some intent => Mutation.read fun h => h.preBindCancel snapshot intent true now
    | none =>
      if snapshot.state = .stopping then
        if state.stop.isNone then refuse (.unexpectedExit snapshot.state)
        else do
          change (·.escalate sessionId now)
          Mutation.read fun h => .accepted {
            session := h.composeSnapshot snapshot now
            generation := snapshot.generation
            stage := .killDue
            deadline := now
            actor := .operator
            alreadyAccepted := true }
      else if snapshot.state = .created then commitCancel sessionId snapshot ⟨.operatorAbort, .operator⟩ now
      else do
        let session ← beginStop sessionId ⟨.operatorAbort, .operator, now, true⟩ .operator now
        return .accepted {
          session
          generation := expectedGeneration
          stage := .killDue
          deadline := now
          actor := .operator
          alreadyAccepted := false }

def escalateAbort (sessionId : SessionId) (now : MonotonicMs) : HostM (Option AbortEscalation) := do
  let state ← ask (findState sessionId)
  match state.stop with
  | none => return none
  | some stop =>
    if now < stop.deadline then return none
    else do
      change (·.modifyState sessionId fun state =>
        { state with stop := state.stop.map fun stop => { stop with escalated := true } })
      return some ⟨stop.deadline, !stop.escalated⟩

def releaseCounts (sessionId : SessionId) (now : MonotonicMs) : List AttachId → HostM Unit
  | [] => pure ()
  | _ :: rest => do
    let _ ← onRegistry (SessionRegistry.detach sessionId now)
    releaseCounts sessionId now rest

def settle (h : SessionHost) (sessionId : SessionId) (attached : List AttachId) : SessionHost :=
  { h.modifyState sessionId (fun state =>
      { state with leases := ∅, controller := none, stop := none, cancel := none, token := .retired }) with
    leaseSessions := attached.foldl (fun index attachId => index.erase attachId) h.leaseSessions }

def finishTerminal (sessionId : SessionId) (outcome : TerminalOutcome) (actor : Actor) (now : MonotonicMs) :
    HostM Termination := do
  let state ← ask (findState sessionId)
  let attached := state.leases.keys
  let _ ← ask fun h => (h.registry.checkTerminalTransition sessionId outcome).mapError LeaseRefusal.ofRegistry
  releaseCounts sessionId now attached
  let session ← onRegistry (SessionRegistry.terminate sessionId outcome now)
  let _ ← ask (findState sessionId)
  change (·.settle sessionId attached)
  return .completed {
    session
    reason := outcome.reason
    exit := outcome.exit
    cleanup := outcome.cleanup
    actor
    attached }

def completePreBindCancel (sessionId : SessionId) (cleanup : CleanupClass) (now : MonotonicMs) : HostM Termination := do
  let snapshot ← ask (findSnapshot sessionId)
  if snapshot.state.isTerminal then Mutation.read fun h => .alreadyTerminal (h.composeSnapshot snapshot now)
  else do
    let intent ← ask fun h =>
      match h.sessions[sessionId]?.bind (·.cancel) with
      | none => .error .cancelNotPending
      | some intent => .ok intent
    refuseIf (fun _ => snapshot.state ≠ .created) .cancelNotPending
    let outcome ← ask fun _ => (TerminalOutcome.new intent.reason .notApplicable cleanup).mapError .terminalOutcome
    finishTerminal sessionId outcome intent.actor now

def classify (snapshot : SessionSnapshot) (state : SessionLeaseState) (observation : ExitObservation) :
    Except LeaseRefusal (TerminalReason × ExitInformation × Actor) :=
  match snapshot.state with
  | .created =>
    if state.cancel.isSome then .error .cancelPending
    else
      match observation with
      | .spawnFailed _ => .ok (.spawnFailed, .notApplicable, .worker)
      | .supervisionFailed => .ok (.supervisionFailed, .notApplicable, .worker)
      | _ => .error (.unexpectedExit snapshot.state)
  | .running =>
    match observation with
    | .exited code => .ok (.workerExit, .exitCode code, .worker)
    | .signalled signal =>
      if 0 < signal then .ok (.workerSignal, .signal signal, .worker) else .error (.unexpectedExit snapshot.state)
    | .supervisionFailed => .ok (.supervisionFailed, .notApplicable, .worker)
    | _ => .error (.unexpectedExit snapshot.state)
  | .stopping =>
    match state.stop with
    | none => .error (.unexpectedExit snapshot.state)
    | some stop => .ok (stop.reason, .notApplicable, stop.actor)
  | _ => .error (.unexpectedExit snapshot.state)

def observedOutcome (observation : ExitObservation) (reason : TerminalReason) (exit : ExitInformation)
    (cleanup : CleanupClass) : Except LeaseRefusal TerminalOutcome :=
  (match observation with
    | .spawnFailed failure => TerminalOutcome.spawnFailed cleanup failure
    | _ => TerminalOutcome.new reason exit cleanup).mapError .terminalOutcome

def recordTermination (sessionId : SessionId) (observation : ExitObservation) (cleanup : CleanupClass)
    (now : MonotonicMs) : HostM Termination := do
  let snapshot ← ask (findSnapshot sessionId)
  if snapshot.state.isTerminal then Mutation.read fun h => .alreadyTerminal (h.composeSnapshot snapshot now)
  else do
    let state ← ask (findState sessionId)
    let (reason, exit, actor) ← ask fun _ => classify snapshot state observation
    let outcome ← ask fun _ => observedOutcome observation reason exit cleanup
    finishTerminal sessionId outcome actor now

end Bitty.Daemon.SessionHost
