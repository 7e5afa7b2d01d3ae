import Bitty.Library.Mutation
import Bitty.Daemon.Registry.Session

namespace Bitty.Daemon

open Std (ExtTreeMap)

structure RegistryLimits where
  maxSessions : Nat
  maxRetainedTerminalRecords : Nat
  sessionRecordBytes : Nat
  terminalRetentionMs : Nat

structure CreateSession where
  terminalId : Option TerminalId := none
  ownerPeer : Option OwnerPeer := none

inductive RegistryRefusal
  | maxSessions (limit : Nat)
  | sessionRecordTooLarge (bytes limit : Nat)
  | terminalAlreadyHosted
  | notFound
  | notRunning (state : LifecycleState)
  | alreadyBound (generation : Nat)
  | invalidTransition (origin target : LifecycleState)
  | reasonNotAllowed (reason : TerminalReason) (origin : LifecycleState)
  | cleanupNotStarted (origin : LifecycleState)
  | revisionOverflow
  | generationOverflow
  | attachmentOverflow
  | idGenerationFailed
  | idCollision
  deriving DecidableEq

def checkedAdd (value maximum : Nat) (refusal : RegistryRefusal) : Except RegistryRefusal Nat :=
  if value + 1 ≤ maximum then .ok (value + 1) else .error refusal

theorem checkedAdd_ok {value maximum next : Nat} {refusal : RegistryRefusal}
    (added : checkedAdd value maximum refusal = .ok next) : value < maximum ∧ next = value + 1 := by
  unfold checkedAdd at added
  split_ifs at added with room
  cases added
  exact ⟨room, rfl⟩

theorem checkedAdd_error {value maximum : Nat} {refusal refused : RegistryRefusal}
    (overflow : checkedAdd value maximum refusal = .error refused) : maximum ≤ value ∧ refused = refusal := by
  unfold checkedAdd at overflow
  split_ifs at overflow with room
  cases overflow
  exact ⟨by omega, rfl⟩

namespace SessionRecord

def refuseTerminal (r : SessionRecord) : Except RegistryRefusal Unit :=
  if r.state.isTerminal then .error (.notRunning r.state) else .ok ()

/-- One more revision, at `now`. -/
def revise (r : SessionRecord) (now : MonotonicMs) : Except RegistryRefusal SessionRecord := do
  let revision ← checkedAdd r.stateRevision U64_MAX .revisionOverflow
  return { r with stateRevision := revision, stateChangedAt := now, lastSeen := now }

def bind (r : SessionRecord) (now : MonotonicMs) : Except RegistryRefusal SessionRecord :=
  if r.state ≠ .created then
    .error (if 0 < r.generation then .alreadyBound r.generation else .invalidTransition r.state .running)
  else do
    let generation ← checkedAdd r.generation U64_MAX .generationOverflow
    let revised ← r.revise now
    return { revised with generation, state := .running, lastWorkerSeen := some now }

def attach (r : SessionRecord) (now : MonotonicMs) : Except RegistryRefusal SessionRecord := do
  r.refuseTerminal
  let attachCount ← checkedAdd r.attachCount U16_MAX .attachmentOverflow
  let revised ← r.revise now
  return { revised with attachCount }

def detach (r : SessionRecord) (now : MonotonicMs) : Except RegistryRefusal SessionRecord := do
  r.refuseTerminal
  if r.attachCount = 0 then return { r with lastSeen := now }
  let revised ← r.revise now
  return { revised with attachCount := r.attachCount - 1 }

def recordLeaseMutation (r : SessionRecord) (now : MonotonicMs) : Except RegistryRefusal SessionRecord := do
  r.refuseTerminal
  r.revise now

def noteVisibleMutation (r : SessionRecord) (now : MonotonicMs) : Except RegistryRefusal SessionRecord := do
  r.refuseTerminal
  r.revise now

def heartbeat (r : SessionRecord) (now : MonotonicMs) : Except RegistryRefusal SessionRecord := do
  r.refuseTerminal
  return { r with lastSeen := now }

def observeWorker (r : SessionRecord) (now : MonotonicMs) : Except RegistryRefusal SessionRecord := do
  r.refuseTerminal
  return { r with lastWorkerSeen := some now }

def beginStopping (r : SessionRecord) (now : MonotonicMs) : Except RegistryRefusal SessionRecord :=
  if r.state ≠ .running then .error (.invalidTransition r.state .stopping)
  else do
    let revised ← r.revise now
    return { revised with state := .stopping }

def checkTerminalTransition (r : SessionRecord) (outcome : TerminalOutcome) :
    Except RegistryRefusal (LifecycleState × Nat) :=
  let target := outcome.reason.terminalState
  if r.state.allowsTerminal target = false then .error (.invalidTransition r.state target)
  else if outcome.reason.canTerminateFrom r.state = false then .error (.reasonNotAllowed outcome.reason r.state)
  else if outcome.cleanup = .notStarted ∧ r.state ≠ .created then .error (.cleanupNotStarted r.state)
  else do
    let revision ← checkedAdd r.stateRevision U64_MAX .revisionOverflow
    return (target, revision)

def terminated (r : SessionRecord) (outcome : TerminalOutcome) (target : LifecycleState) (revision : Nat)
    (now : MonotonicMs) : SessionRecord :=
  { r with
    state := target
    stateRevision := revision
    stateChangedAt := now
    terminalReason := some outcome.reason
    spawnFailure := outcome.spawnFailure
    exit := outcome.exit
    cleanup := some outcome.cleanup
    lastSeen := now
    terminalizedAt := some now }

def noteOrigin (r : SessionRecord) (ownerClientId : Option ClientId) (createdByKind : OriginKind) : SessionRecord :=
  { r with ownerClientId, createdByKind }

def noteRequester (r : SessionRecord) (requester : Requester) : SessionRecord :=
  { r with requestedBy := some requester }

end SessionRecord

namespace SessionRecord

/-- What a mutation changes that is neither a transition nor an attach or a detach. -/
structure SameCore (r r' : SessionRecord) : Prop where
  sessionId : r'.sessionId = r.sessionId
  state : r'.state = r.state
  generation : r'.generation = r.generation
  attachCount : r'.attachCount = r.attachCount
  revision : r.stateRevision ≤ r'.stateRevision

variable {r r' : SessionRecord} {now : MonotonicMs} {refusal : RegistryRefusal}

theorem SameCore.refl (r : SessionRecord) : r.SameCore r := ⟨rfl, rfl, rfl, rfl, Nat.le_refl _⟩

theorem revise_ok (done : r.revise now = .ok r') :
    r.stateRevision < U64_MAX ∧
      r' = { r with stateRevision := r.stateRevision + 1, stateChangedAt := now, lastSeen := now } := by
  obtain ⟨revision, added, same⟩ := Except.bind_ok done
  obtain ⟨room, rfl⟩ := checkedAdd_ok added
  exact ⟨room, (Except.ok.inj same).symm⟩

theorem revise_error (refused : r.revise now = .error refusal) :
    U64_MAX ≤ r.stateRevision ∧ refusal = .revisionOverflow := by
  rcases Except.bind_error refused with overflow | ⟨revision, -, impossible⟩
  · exact checkedAdd_error overflow
  · cases impossible

theorem refuseTerminal_ok (live : r.refuseTerminal = .ok ()) : r.state.isTerminal = false := by
  unfold refuseTerminal at live
  split_ifs at live with terminal
  simpa using terminal

theorem refuseTerminal_of_live (live : r.state.isTerminal = false) : r.refuseTerminal = .ok () := by
  rw [refuseTerminal, live]
  rfl

theorem attach_ok (done : r.attach now = .ok r') :
    r.state.isTerminal = false ∧ r.stateRevision < U64_MAX ∧
      r' = { r with
        stateRevision := r.stateRevision + 1
        stateChangedAt := now
        lastSeen := now
        attachCount := r.attachCount + 1 } := by
  obtain ⟨_, live, rest⟩ := Except.bind_ok done
  obtain ⟨count, added, rest⟩ := Except.bind_ok rest
  obtain ⟨revised, revise, same⟩ := Except.bind_ok rest
  obtain ⟨-, rfl⟩ := checkedAdd_ok added
  obtain ⟨room, rfl⟩ := revise_ok revise
  exact ⟨refuseTerminal_ok live, room, (Except.ok.inj same).symm⟩

theorem detach_ok (done : r.detach now = .ok r') :
    r.state.isTerminal = false ∧
      (r.attachCount = 0 ∧ r' = { r with lastSeen := now } ∨
        0 < r.attachCount ∧ r.stateRevision < U64_MAX ∧
          r' = { r with
            stateRevision := r.stateRevision + 1
            stateChangedAt := now
            lastSeen := now
            attachCount := r.attachCount - 1 }) := by
  obtain ⟨_, live, rest⟩ := Except.bind_ok done
  refine ⟨refuseTerminal_ok live, ?_⟩
  by_cases zero : r.attachCount = 0
  · rw [if_pos zero] at rest
    exact .inl ⟨zero, (Except.ok.inj rest).symm⟩
  · rw [if_neg zero] at rest
    obtain ⟨revised, revise, same⟩ := Except.bind_ok rest
    obtain ⟨room, rfl⟩ := revise_ok revise
    exact .inr ⟨Nat.pos_of_ne_zero zero, room, (Except.ok.inj same).symm⟩

theorem detach_error (live : r.state.isTerminal = false) (refused : r.detach now = .error refusal) :
    0 < r.attachCount ∧ U64_MAX ≤ r.stateRevision ∧ refusal = .revisionOverflow := by
  unfold detach at refused
  rw [refuseTerminal_of_live live] at refused
  by_cases zero : r.attachCount = 0
  · simp [zero, Bind.bind, Except.bind, pure, Except.pure] at refused
  · have revise : r.revise now = .error refusal := by
      cases attempt : r.revise now with
      | error e => simpa [zero, attempt, Bind.bind, Except.bind] using refused
      | ok r' => simp [zero, attempt, Bind.bind, Except.bind, pure, Except.pure] at refused
    exact ⟨Nat.pos_of_ne_zero zero, revise_error revise⟩

theorem recordLeaseMutation_ok (done : r.recordLeaseMutation now = .ok r') :
    r.stateRevision < U64_MAX ∧
      r' = { r with stateRevision := r.stateRevision + 1, stateChangedAt := now, lastSeen := now } := by
  obtain ⟨_, -, rest⟩ := Except.bind_ok done
  exact revise_ok rest

theorem heartbeat_ok (done : r.heartbeat now = .ok r') : r' = { r with lastSeen := now } := by
  obtain ⟨_, -, rest⟩ := Except.bind_ok done
  exact (Except.ok.inj rest).symm

theorem observeWorker_ok (done : r.observeWorker now = .ok r') : r' = { r with lastWorkerSeen := some now } := by
  obtain ⟨_, -, rest⟩ := Except.bind_ok done
  exact (Except.ok.inj rest).symm

theorem beginStopping_ok (done : r.beginStopping now = .ok r') :
    r.state = .running ∧ r.stateRevision < U64_MAX ∧
      r' = { r with
        stateRevision := r.stateRevision + 1
        stateChangedAt := now
        lastSeen := now
        state := .stopping } := by
  unfold beginStopping at done
  split_ifs at done with other
  obtain ⟨revised, revise, same⟩ := Except.bind_ok done
  obtain ⟨room, rfl⟩ := revise_ok revise
  exact ⟨not_not.mp other, room, (Except.ok.inj same).symm⟩

theorem bind_ok (done : r.bind now = .ok r') :
    r.state = .created ∧ r.stateRevision < U64_MAX ∧
      r' = { r with
        stateRevision := r.stateRevision + 1
        stateChangedAt := now
        lastSeen := now
        generation := r.generation + 1
        state := .running
        lastWorkerSeen := some now } := by
  unfold bind at done
  split_ifs at done with other
  obtain ⟨generation, added, rest⟩ := Except.bind_ok done
  obtain ⟨revised, revise, same⟩ := Except.bind_ok rest
  obtain ⟨-, rfl⟩ := checkedAdd_ok added
  obtain ⟨room, rfl⟩ := revise_ok revise
  exact ⟨not_not.mp other, room, (Except.ok.inj same).symm⟩

theorem checkTerminalTransition_ok {outcome : TerminalOutcome} {target : LifecycleState} {revision : Nat}
    (checked : r.checkTerminalTransition outcome = .ok (target, revision)) :
    target = outcome.reason.terminalState ∧ r.state.allowsTerminal target = true ∧
      outcome.reason.canTerminateFrom r.state = true ∧ r.stateRevision < U64_MAX ∧ revision = r.stateRevision + 1 := by
  unfold checkTerminalTransition at checked
  dsimp only at checked
  split_ifs at checked with refused origin cleanup
  obtain ⟨revision', added, same⟩ := Except.bind_ok checked
  obtain ⟨room, rfl⟩ := checkedAdd_ok added
  obtain ⟨rfl, rfl⟩ := Prod.mk.inj (Except.ok.inj same)
  exact ⟨rfl, by simpa using refused, by simpa using origin, room, rfl⟩

theorem SameCore.of_revise
    (same : r' = { r with stateRevision := r.stateRevision + 1, stateChangedAt := now, lastSeen := now }) :
    r.SameCore r' := by
  subst same
  exact ⟨rfl, rfl, rfl, rfl, Nat.le_succ _⟩

end SessionRecord

/-- `sizeOfRecord` is what the compiler chooses for `size_of::<SessionRecord>()`. -/
structure SessionRegistry where
  limits : RegistryLimits
  sizeOfRecord : Nat
  entropy : Entropy
  live : ExtTreeMap SessionId SessionRecord := ∅
  retained : ExtTreeMap SessionId SessionRecord := ∅
  /-- Ascending in `(terminalized_at, session_id)`. -/
  retentionOrder : List (MonotonicMs × SessionId) := []

abbrev RegistryM := Mutation SessionRegistry RegistryRefusal

namespace SessionRegistry

open Mutation

def snapshot (g : SessionRegistry) (sessionId : SessionId) : Option SessionSnapshot :=
  (g.live[sessionId]?.or g.retained[sessionId]?).map SessionRecord.snapshot

def lookupRefusal (g : SessionRegistry) (sessionId : SessionId) : RegistryRefusal :=
  (g.retained[sessionId]?.map fun record => .notRunning record.state).getD .notFound

def mutate (sessionId : SessionId) (mutation : SessionRecord → Except RegistryRefusal SessionRecord) :
    RegistryM SessionSnapshot := fun g =>
  match g.live[sessionId]? with
  | none => (.error (g.lookupRefusal sessionId), g)
  | some record =>
    match mutation record with
    | .error refusal => (.error refusal, g)
    | .ok record => (.ok record.snapshot, { g with live := g.live.insert sessionId record })

def bind (sessionId : SessionId) (now : MonotonicMs) : RegistryM SessionSnapshot := mutate sessionId (·.bind now)

def attach (sessionId : SessionId) (now : MonotonicMs) : RegistryM SessionSnapshot := mutate sessionId (·.attach now)

def detach (sessionId : SessionId) (now : MonotonicMs) : RegistryM SessionSnapshot := mutate sessionId (·.detach now)

def recordLeaseMutation (sessionId : SessionId) (now : MonotonicMs) : RegistryM SessionSnapshot :=
  mutate sessionId (·.recordLeaseMutation now)

def noteVisibleMutation (sessionId : SessionId) (now : MonotonicMs) : RegistryM SessionSnapshot :=
  mutate sessionId (·.noteVisibleMutation now)

def heartbeat (sessionId : SessionId) (now : MonotonicMs) : RegistryM SessionSnapshot :=
  mutate sessionId (·.heartbeat now)

def observeWorker (sessionId : SessionId) (now : MonotonicMs) : RegistryM SessionSnapshot :=
  mutate sessionId (·.observeWorker now)

def beginStopping (sessionId : SessionId) (now : MonotonicMs) : RegistryM SessionSnapshot :=
  mutate sessionId (·.beginStopping now)

def note (g : SessionRegistry) (sessionId : SessionId) (noted : SessionRecord → SessionRecord) : SessionRegistry :=
  { g with live := g.live.modify sessionId fun record => if record.state.isTerminal then record else noted record }

def noteOrigin (g : SessionRegistry) (sessionId : SessionId) (ownerClientId : Option ClientId)
    (createdByKind : OriginKind) : SessionRegistry :=
  g.note sessionId (·.noteOrigin ownerClientId createdByKind)

def noteRequester (g : SessionRegistry) (sessionId : SessionId) (requester : Requester) : SessionRegistry :=
  g.note sessionId (·.noteRequester requester)

def fill : RegistryM (BitVec 128) := fun g =>
  match g.entropy.fill16 with
  | (some value, entropy) => (.ok value, { g with entropy })
  | (none, entropy) => (.error .idGenerationFailed, { g with entropy })

def generateSessionId : (attempts : Nat) → RegistryM SessionId
  | 0 => refuse .idCollision
  | attempts + 1 => do
    let sessionId : SessionId := ⟨← fill⟩
    let taken ← Mutation.read fun g => g.live.contains sessionId || g.retained.contains sessionId
    if taken then generateSessionId attempts else return sessionId

def hosts (g : SessionRegistry) (terminalId : TerminalId) : Bool :=
  g.live.toList.any fun entry => entry.2.terminalId = terminalId

def generateTerminalId : (attempts : Nat) → RegistryM TerminalId
  | 0 => refuse .idCollision
  | attempts + 1 => do
    let terminalId : TerminalId := ⟨encodeHex (← fill)⟩
    let taken ← Mutation.read fun g => g.hosts terminalId
    if taken then generateTerminalId attempts else return terminalId

def chooseTerminalId (request : CreateSession) : RegistryM TerminalId :=
  match request.terminalId with
  | some terminalId => do
    refuseIf (·.hosts terminalId) .terminalAlreadyHosted
    return terminalId
  | none => generateTerminalId ID_GENERATION_ATTEMPTS

def createKind (request : CreateSession) (kind : SessionKind) (now : MonotonicMs) : RegistryM SessionSnapshot := do
  ask fun g => if g.limits.maxSessions ≤ g.live.size then .error (.maxSessions g.limits.maxSessions) else .ok ()
  let terminalId ← chooseTerminalId request
  let sessionId ← generateSessionId ID_GENERATION_ATTEMPTS
  let handle : WorkerHandle := ⟨encodeHex (← fill)⟩
  let record := { SessionRecord.newKind sessionId kind terminalId request.ownerPeer now with workerHandle := some handle }
  ask fun g =>
    let bytes := record.recordBytes g.sizeOfRecord
    if g.limits.sessionRecordBytes < bytes then .error (.sessionRecordTooLarge bytes g.limits.sessionRecordBytes)
    else .ok ()
  change fun g => { g with live := g.live.insert sessionId record }
  return record.snapshot

def discardCreated (sessionId : SessionId) : RegistryM Unit := fun g =>
  match g.live[sessionId]? with
  | none => (.error .notFound, g)
  | some record =>
    if record.state ≠ .created ∨ record.generation ≠ 0 then (.error (.invalidTransition record.state .failed), g)
    else (.ok (), { g with live := g.live.erase sessionId })

def checkTerminalTransition (g : SessionRegistry) (sessionId : SessionId) (outcome : TerminalOutcome) :
    Except RegistryRefusal (LifecycleState × Nat) :=
  match g.live[sessionId]? with
  | none => .error (g.lookupRefusal sessionId)
  | some record => record.checkTerminalTransition outcome

def insertOrdered (entry : MonotonicMs × SessionId) : List (MonotonicMs × SessionId) → List (MonotonicMs × SessionId)
  | [] => [entry]
  | first :: rest =>
    if entry = first then first :: rest
    else if entry.1 < first.1 ∨ entry.1 = first.1 ∧ entry.2.bytes < first.2.bytes then entry :: first :: rest
    else first :: insertOrdered entry rest

/-- The oldest entries go while more than `maximum` records are retained. -/
def evict (maximum : Nat) : List (MonotonicMs × SessionId) → ExtTreeMap SessionId SessionRecord →
    List (MonotonicMs × SessionId) × ExtTreeMap SessionId SessionRecord
  | [], retained => ([], retained)
  | first :: rest, retained =>
    if maximum < retained.size then evict maximum rest (retained.erase first.2) else (first :: rest, retained)

def enforceRetentionCap (g : SessionRegistry) : SessionRegistry :=
  let kept := evict g.limits.maxRetainedTerminalRecords g.retentionOrder g.retained
  { g with retentionOrder := kept.1, retained := kept.2 }

def terminate (sessionId : SessionId) (outcome : TerminalOutcome) (now : MonotonicMs) : RegistryM SessionSnapshot := fun g =>
  match g.live[sessionId]? with
  | none => (.error (g.lookupRefusal sessionId), g)
  | some record =>
    match record.checkTerminalTransition outcome with
    | .error refusal => (.error refusal, g)
    | .ok (target, revision) =>
      let record := record.terminated outcome target revision now
      (.ok record.snapshot, enforceRetentionCap
        { g with
          live := g.live.erase sessionId
          retained := g.retained.insert sessionId record
          retentionOrder := insertOrdered (now, sessionId) g.retentionOrder })

/-- The entries whose retention is over at `now`, and what is left. -/
def collect (retention : Nat) (now : MonotonicMs) : List (MonotonicMs × SessionId) → ExtTreeMap SessionId SessionRecord →
    List SessionId × List (MonotonicMs × SessionId) × ExtTreeMap SessionId SessionRecord
  | [], retained => ([], [], retained)
  | first :: rest, retained =>
    if now - first.1 < retention then ([], first :: rest, retained)
    else
      let later := collect retention now rest (retained.erase first.2)
      (first.2 :: later.1, later.2)

def collectRetained (g : SessionRegistry) (now : MonotonicMs) : List SessionId × SessionRegistry :=
  let collected := collect g.limits.terminalRetentionMs now g.retentionOrder g.retained
  (collected.1, { g with retentionOrder := collected.2.1, retained := collected.2.2 })

end SessionRegistry

end Bitty.Daemon
