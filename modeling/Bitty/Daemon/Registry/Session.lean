import Mathlib

namespace Bitty.Daemon

def U16_MAX : Nat := 65535

def U64_MAX : Nat := 18446744073709551615

def USIZE_MAX : Nat := 18446744073709551615

/-- What the 128-bit identifiers name. -/
inductive IdKind
  | session
  | attach
  | client

/-- The identifiers that `hex_identifier!` declares. -/
structure HexId (kind : IdKind) where
  bytes : BitVec 128
  deriving DecidableEq

abbrev SessionId := HexId .session

abbrev AttachId := HexId .attach

abbrev ClientId := HexId .client

namespace HexId

variable {kind : IdKind}

instance : Ord (HexId kind) := ⟨compareOn bytes⟩

instance : Std.TransOrd (HexId kind) := inferInstanceAs (Std.TransCmp (compareOn bytes))

instance : Std.LawfulEqOrd (HexId kind) where
  eq_of_compare {a b} same := by
    cases a
    cases b
    exact congrArg mk (Std.LawfulEqOrd.eq_of_compare same)

end HexId

/-- What the source of randomness answers from now on to requests of 16 and of 32 bytes: `none`
where it is unavailable. -/
structure Entropy where
  fills16 : List (Option (BitVec 128)) := []
  fills32 : List (Option (BitVec 256)) := []

namespace Entropy

def fill16 (e : Entropy) : Option (BitVec 128) × Entropy := (e.fills16.head?.join, { e with fills16 := e.fills16.tail })

def fill32 (e : Entropy) : Option (BitVec 256) × Entropy := (e.fills32.head?.join, { e with fills32 := e.fills32.tail })

end Entropy

def encodeHex (value : BitVec 128) : String := String.ofList ((Nat.toDigits 16 value.toNat).leftpad 32 '0')

def ID_GENERATION_ATTEMPTS : Nat := 4

inductive SessionKind
  | terminal
  | worker
  deriving DecidableEq

inductive LifecycleState
  | created
  | running
  | stopping
  | exited
  | failed
  | terminated
  deriving DecidableEq

namespace LifecycleState

def isTerminal : LifecycleState → Bool
  | .exited | .failed | .terminated => true
  | _ => false

def allowsTerminal : LifecycleState → LifecycleState → Bool
  | .created, .failed | .created, .terminated => true
  | .running, .exited | .running, .failed => true
  | .stopping, .exited | .stopping, .failed | .stopping, .terminated => true
  | _, _ => false

end LifecycleState

inductive TerminalReason
  | workerExit
  | workerSignal
  | spawnFailed
  | supervisionFailed
  | consumerCancel
  | consumerTimeout
  | operatorAbort
  | daemonStop
  | hostShutdown
  deriving DecidableEq

namespace TerminalReason

def canTerminateFrom : TerminalReason → LifecycleState → Bool
  | .spawnFailed, origin => origin = .created
  | .workerExit, origin | .workerSignal, origin => origin = .running ∨ origin = .stopping
  | _, _ => true

def terminalState : TerminalReason → LifecycleState
  | .workerExit => .exited
  | .workerSignal | .spawnFailed | .supervisionFailed => .failed
  | .consumerCancel | .consumerTimeout | .operatorAbort | .daemonStop | .hostShutdown => .terminated

theorem isTerminal_terminalState (reason : TerminalReason) : reason.terminalState.isTerminal = true := by
  cases reason <;> rfl

end TerminalReason

inductive CleanupClass
  | swept
  | groupSignalled
  | unverified
  | notStarted
  deriving DecidableEq

inductive SpawnFailure
  | ptyAllocation
  | execPermissionDenied
  | execNotExecutable
  | execNotFound
  | spawnError
  | bindDeadline
  | notBindable
  | bindTimeout
  | postSpawnRefusal
  deriving DecidableEq

namespace SpawnFailure

def childExisted : SpawnFailure → Bool
  | .ptyAllocation | .execPermissionDenied | .execNotExecutable | .execNotFound | .spawnError | .bindDeadline => false
  | _ => true

end SpawnFailure

inductive ExitInformation
  | exitCode (code : UInt8)
  | signal (signal : UInt32)
  | notApplicable
  deriving DecidableEq

inductive TerminalOutcomeError
  | exitInformation (reason : TerminalReason)
  | cleanup (reason : TerminalReason)
  | spawnFailure (reason : TerminalReason)
  deriving DecidableEq

structure TerminalOutcome where
  reason : TerminalReason
  exit : ExitInformation
  cleanup : CleanupClass
  spawnFailure : Option SpawnFailure

namespace TerminalOutcome

/-- Whether an exit belongs to a reason other than `spawnFailed`. -/
def exitMatches : TerminalReason → ExitInformation → Bool
  | .workerExit, .exitCode _ => true
  | .workerSignal, .signal signal => 0 < signal
  | .supervisionFailed, .notApplicable | .consumerCancel, .notApplicable | .consumerTimeout, .notApplicable
  | .operatorAbort, .notApplicable | .daemonStop, .notApplicable | .hostShutdown, .notApplicable => true
  | _, _ => false

def new (reason : TerminalReason) (exit : ExitInformation) (cleanup : CleanupClass) :
    Except TerminalOutcomeError TerminalOutcome :=
  if reason = .spawnFailed then .error (.spawnFailure reason)
  else if exitMatches reason exit = false then .error (.exitInformation reason)
  else if cleanup = .notStarted ∧ (reason = .workerExit ∨ reason = .workerSignal ∨ reason = .supervisionFailed) then
    .error (.cleanup reason)
  else .ok ⟨reason, exit, cleanup, none⟩

def spawnFailed (cleanup : CleanupClass) (failure : SpawnFailure) : Except TerminalOutcomeError TerminalOutcome :=
  if cleanup = .notStarted ∧ failure.childExisted then .error (.cleanup .spawnFailed)
  else .ok ⟨.spawnFailed, .notApplicable, cleanup, some failure⟩

theorem new_reason {reason : TerminalReason} {exit : ExitInformation} {cleanup : CleanupClass} {outcome : TerminalOutcome}
    (accepted : new reason exit cleanup = .ok outcome) : outcome.reason = reason := by
  unfold new at accepted
  split_ifs at accepted
  cases accepted
  rfl

end TerminalOutcome

structure TerminalId where
  text : String
  deriving DecidableEq

structure OwnerPeer where
  uid : UInt32
  pid : UInt32
  deriving DecidableEq

abbrev MonotonicMs := Nat

namespace MonotonicMs

def saturatingAdd (now : MonotonicMs) (amount : Nat) : MonotonicMs := min (now + amount) U64_MAX

end MonotonicMs

inductive OriginKind
  | consumer
  | operator
  | daemon
  deriving DecidableEq

structure Requester where
  kind : OriginKind
  clientId : Option ClientId
  deriving DecidableEq

structure WorkerHandle where
  text : String
  deriving DecidableEq

structure SessionSnapshot where
  sessionId : SessionId
  kind : SessionKind
  terminalId : TerminalId
  state : LifecycleState
  generation : Nat
  stateRevision : Nat
  attachCount : Nat
  attached : Bool
  controllerPresent : Bool
  ownerPeer : Option OwnerPeer
  ownerClientId : Option ClientId
  createdByKind : OriginKind
  requestedBy : Option Requester
  lastWorkerSeenAt : Option MonotonicMs
  stateChangedAt : MonotonicMs
  workerHandle : Option WorkerHandle
  terminalReason : Option TerminalReason
  spawnFailure : Option SpawnFailure
  exit : ExitInformation
  cleanup : Option CleanupClass
  createdAtMs : MonotonicMs
  lastSeenMs : MonotonicMs
  deriving DecidableEq

structure SessionRecord where
  sessionId : SessionId
  kind : SessionKind
  terminalId : TerminalId
  state : LifecycleState
  generation : Nat
  stateRevision : Nat
  attachCount : Nat
  ownerPeer : Option OwnerPeer
  ownerClientId : Option ClientId
  createdByKind : OriginKind
  requestedBy : Option Requester
  lastWorkerSeen : Option MonotonicMs
  stateChangedAt : MonotonicMs
  workerHandle : Option WorkerHandle
  terminalReason : Option TerminalReason
  spawnFailure : Option SpawnFailure
  exit : ExitInformation
  cleanup : Option CleanupClass
  createdAt : MonotonicMs
  lastSeen : MonotonicMs
  terminalizedAt : Option MonotonicMs

namespace SessionRecord

def newKind (sessionId : SessionId) (kind : SessionKind) (terminalId : TerminalId) (ownerPeer : Option OwnerPeer)
    (now : MonotonicMs) : SessionRecord where
  sessionId
  kind
  terminalId
  state := .created
  generation := 0
  stateRevision := 0
  attachCount := 0
  ownerPeer
  ownerClientId := none
  createdByKind := .consumer
  requestedBy := none
  lastWorkerSeen := none
  stateChangedAt := now
  workerHandle := none
  terminalReason := none
  spawnFailure := none
  exit := .notApplicable
  cleanup := none
  createdAt := now
  lastSeen := now
  terminalizedAt := none

def recordBytes (r : SessionRecord) (sizeOfSelf : Nat) : Nat :=
  sizeOfSelf + r.terminalId.text.utf8ByteSize + (r.workerHandle.map fun handle => handle.text.utf8ByteSize).getD 0

def snapshot (r : SessionRecord) : SessionSnapshot where
  sessionId := r.sessionId
  kind := r.kind
  terminalId := r.terminalId
  state := r.state
  generation := r.generation
  stateRevision := r.stateRevision
  attachCount := r.attachCount
  attached := 0 < r.attachCount
  controllerPresent := false
  ownerPeer := r.ownerPeer
  ownerClientId := r.ownerClientId
  createdByKind := r.createdByKind
  requestedBy := r.requestedBy
  lastWorkerSeenAt := r.lastWorkerSeen
  stateChangedAt := r.stateChangedAt
  workerHandle := if 0 < r.generation then r.workerHandle else none
  terminalReason := r.terminalReason
  spawnFailure := r.spawnFailure
  exit := r.exit
  cleanup := r.cleanup
  createdAtMs := r.createdAt
  lastSeenMs := r.lastSeen

end SessionRecord

end Bitty.Daemon
