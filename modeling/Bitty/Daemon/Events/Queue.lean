import Bitty.Daemon.Registry.Table

namespace Bitty.Daemon.Events

structure DaemonInstanceId where
  bytes : BitVec 128

inductive EventKind
  | sessionState
  | sessionTerminal
  | controlTransfer
  | leaseRevoked
  | daemonStopping
  deriving DecidableEq

inductive EventDetail
  | none
  | controlTransfer (source target : AttachId)
  | daemonStopping (deadlineMs : Nat)

structure TerminalMarker where
  state : LifecycleState
  reason : TerminalReason
  exit : ExitInformation
  cleanup : CleanupClass

namespace TerminalMarker

def fromSnapshot (snapshot : SessionSnapshot) : Option TerminalMarker :=
  if snapshot.state.isTerminal = false then none
  else
    match snapshot.terminalReason, snapshot.cleanup with
    | some reason, some cleanup => some ⟨snapshot.state, reason, snapshot.exit, cleanup⟩
    | _, _ => none

end TerminalMarker

structure Event where
  instanceId : DaemonInstanceId
  sessionId : SessionId
  attachId : Option AttachId
  revision : Nat
  kind : EventKind
  terminal : Option TerminalMarker
  detail : EventDetail
  emittedAt : MonotonicMs

namespace Event

def routedTo (e : Event) (attachId : AttachId) : Event := { e with attachId := some attachId }

@[simp] theorem revision_routedTo (e : Event) (attachId : AttachId) : (e.routedTo attachId).revision = e.revision := rfl

@[simp] theorem kind_routedTo (e : Event) (attachId : AttachId) : (e.routedTo attachId).kind = e.kind := rfl

end Event

inductive EventRefusal
  | registry (refusal : RegistryRefusal)
  | registryNotEmpty
  | unknownSession
  | notAttached
  | maxAttaches (limit : Nat)
  | idempotencyCapacity (limit : Nat)
  | idempotencyConflict
  | revisionAhead (requested current : Nat)
  | revisionGap (expected observed : Nat)
  | terminalNotDelivered
  | terminalMarkerMissing
  | terminalAlreadyObserved
  | emptyHeartbeat
  | invalidRequest (reason : String)
  | idGenerationFailed
  | idCollision
  | deliveryLoop (steps : Nat)
  | invalidLimits (limit : String) (value minimum maximum : Nat)

def MAX_EVENT_BACKLOG_EVENTS : Nat := 256

def MAX_EVENT_BACKLOG_BYTES : Nat := 262144

def MAX_LEASE_QUEUE_EVENTS : Nat := 256

def MAX_LEASE_QUEUE_BYTES : Nat := 65536

def MAX_ATTACHES_PER_SESSION_SYSTEM_MAX : Nat := 16

def ATTACH_LEASE_TTL_MS : Nat := 15000

def MAX_ATTACH_KEYS_PER_SESSION : Nat := 512

def MAX_ATTACH_KEYS_BYTES_PER_SESSION : Nat := 65536

def LEASE_CONTROL_RESERVATION_EVENTS : Nat := 8

def LEASE_CONTROL_RESERVATION_BYTES : Nat := 8192

structure Within (minimum value maximum : Nat) : Prop where
  lower : minimum ≤ value
  upper : value ≤ maximum

instance (minimum value maximum : Nat) : Decidable (Within minimum value maximum) :=
  decidable_of_iff (minimum ≤ value ∧ value ≤ maximum) ⟨fun h => ⟨h.1, h.2⟩, fun h => ⟨h.lower, h.upper⟩⟩

/-- `sizeOfEvent` is what the compiler chooses for `size_of::<Event>()`: the bytes each event is
accounted with, and the least bound in bytes. -/
structure EventLimits where
  sizeOfEvent : Nat
  maxEventBacklogEvents : Nat
  maxEventBacklogBytes : Nat
  maxLeaseQueueEvents : Nat
  maxLeaseQueueBytes : Nat
  maxAttachesPerSession : Nat
  attachLeaseTtlMs : Nat
  maxAttachKeysPerSession : Nat
  sizeOfEvent_pos : 0 < sizeOfEvent
  backlogEvents : Within 1 maxEventBacklogEvents MAX_EVENT_BACKLOG_EVENTS
  backlogBytes : Within sizeOfEvent maxEventBacklogBytes MAX_EVENT_BACKLOG_BYTES
  queueEvents : Within 1 maxLeaseQueueEvents MAX_LEASE_QUEUE_EVENTS
  queueBytes : Within sizeOfEvent maxLeaseQueueBytes MAX_LEASE_QUEUE_BYTES
  attaches : Within 1 maxAttachesPerSession MAX_ATTACHES_PER_SESSION_SYSTEM_MAX
  leaseTtl : Within 1 attachLeaseTtlMs ATTACH_LEASE_TTL_MS
  attachKeys : Within 1 maxAttachKeysPerSession MAX_ATTACH_KEYS_PER_SESSION

namespace EventLimits

def observabilityQueueEvents (limits : EventLimits) : Nat :=
  limits.maxLeaseQueueEvents - LEASE_CONTROL_RESERVATION_EVENTS

def observabilityQueueBytes (limits : EventLimits) : Nat := limits.maxLeaseQueueBytes - LEASE_CONTROL_RESERVATION_BYTES

end EventLimits

end Bitty.Daemon.Events

namespace Bitty.Daemon.Events

inductive FrameClass
  | control
  | sheddable

inductive Admission
  | accepted
  | shed
  | lost

inductive LeaseCloseReason
  | terminalEventLost
  deriving DecidableEq

structure LeaseClose where
  attachId : AttachId
  reason : LeaseCloseReason
  deriving DecidableEq

structure LeaseQueue where
  events : List Event := []
  bytes : Nat := 0
  shed : Nat := 0

namespace LeaseQueue

def fits (q : LeaseQueue) (maxEvents maxBytes bytes : Nat) : Bool :=
  q.events.length < maxEvents ∧ min (q.bytes + bytes) USIZE_MAX ≤ maxBytes

def canAdmitControl (q : LeaseQueue) (limits : EventLimits) (bytes : Nat) : Bool :=
  q.fits limits.maxLeaseQueueEvents limits.maxLeaseQueueBytes bytes

/-- The source's name is `admit`. -/
def admitEvent (limits : EventLimits) (event : Event) (frameClass : FrameClass) (q : LeaseQueue) :
    Admission × LeaseQueue :=
  let bytes := limits.sizeOfEvent
  let (maxEvents, maxBytes) :=
    match frameClass with
    | .control => (limits.maxLeaseQueueEvents, limits.maxLeaseQueueBytes)
    | .sheddable => (limits.observabilityQueueEvents, limits.observabilityQueueBytes)
  if q.fits maxEvents maxBytes bytes = false then
    match frameClass with
    | .control => (.lost, q)
    | .sheddable => (.shed, { q with shed := q.shed + 1 })
  else (.accepted, { q with bytes := q.bytes + bytes, events := q.events ++ [event] })

def drain (q : LeaseQueue) : List Event × LeaseQueue := (q.events, { q with bytes := 0, events := [] })

def popFront (limits : EventLimits) (q : LeaseQueue) : Option Event × LeaseQueue :=
  match q.events with
  | [] => (none, q)
  | event :: rest => (some event, { q with events := rest, bytes := q.bytes - limits.sizeOfEvent })

def contains (q : LeaseQueue) (revision : Nat) (kind : EventKind) : Bool :=
  q.events.any fun event => event.revision = revision ∧ event.kind = kind

def Counted (limits : EventLimits) (q : LeaseQueue) : Prop := q.bytes = q.events.length * limits.sizeOfEvent

def capacity (limits : EventLimits) : Nat :=
  min limits.maxLeaseQueueEvents (limits.maxLeaseQueueBytes / limits.sizeOfEvent)

variable {limits : EventLimits} {q : LeaseQueue} {event : Event}

theorem counted_new (limits : EventLimits) : Counted limits {} := (Nat.zero_mul _).symm

theorem Counted.canAdmitControl (counted : q.Counted limits) :
    q.canAdmitControl limits limits.sizeOfEvent = decide (q.events.length < capacity limits) := by
  have positive := limits.sizeOfEvent_pos
  have small : limits.maxLeaseQueueBytes < USIZE_MAX := Nat.lt_of_le_of_lt limits.queueBytes.upper (by decide)
  have bytes : q.bytes + limits.sizeOfEvent = (q.events.length + 1) * limits.sizeOfEvent := by
    rw [counted, Nat.succ_mul]
  have fits : (q.events.length + 1) * limits.sizeOfEvent ≤ limits.maxLeaseQueueBytes ↔
      q.events.length < limits.maxLeaseQueueBytes / limits.sizeOfEvent := by
    rw [Nat.lt_iff_add_one_le, Nat.le_div_iff_mul_le positive]
  rw [LeaseQueue.canAdmitControl, LeaseQueue.fits, bytes, decide_eq_decide, capacity, Nat.lt_min, ← fits]
  constructor
  · rintro ⟨events, within⟩
    refine ⟨events, ?_⟩
    omega
  · rintro ⟨events, within⟩
    exact ⟨events, (Nat.min_le_left _ _).trans within⟩

def push (limits : EventLimits) (event : Event) (q : LeaseQueue) : LeaseQueue :=
  { q with bytes := q.bytes + limits.sizeOfEvent, events := q.events ++ [event] }

theorem admit_control (event : Event) :
    q.admitEvent limits event .control =
      if q.canAdmitControl limits limits.sizeOfEvent then (.accepted, q.push limits event) else (.lost, q) := by
  unfold admitEvent canAdmitControl push
  dsimp only
  cases q.fits limits.maxLeaseQueueEvents limits.maxLeaseQueueBytes limits.sizeOfEvent with
  | true => rfl
  | false => rfl

theorem Counted.push (counted : q.Counted limits) (event : Event) : (q.push limits event).Counted limits := by
  have bytes : q.bytes = q.events.length * limits.sizeOfEvent := counted
  simp only [Counted, LeaseQueue.push, List.length_append, List.length_singleton, Nat.add_mul, Nat.one_mul, bytes]

theorem Counted.popFront (counted : q.Counted limits) : (q.popFront limits).2.Counted limits := by
  have bytes : q.bytes = q.events.length * limits.sizeOfEvent := counted
  unfold LeaseQueue.popFront
  split
  · exact counted
  · rename_i first rest shape
    rw [shape, List.length_cons, Nat.succ_mul] at bytes
    simp only [Counted, bytes, Nat.add_sub_cancel]

theorem popFront_split (limits : EventLimits) (q : LeaseQueue) :
    q.events = (q.popFront limits).1.toList ++ (q.popFront limits).2.events := by
  unfold LeaseQueue.popFront
  split
  · rename_i empty
    exact empty.trans empty.symm
  · rename_i first rest shape
    exact shape

end LeaseQueue

structure Backlog where
  events : List Event := []
  bytes : Nat := 0
  maxEvents : Nat
  maxBytes : Nat

namespace Backlog

def new (limits : EventLimits) : Backlog :=
  { maxEvents := limits.maxEventBacklogEvents, maxBytes := limits.maxEventBacklogBytes }

def trim (sizeOfEvent maxEvents maxBytes : Nat) : List Event → Nat → List Event × Nat
  | [], bytes => ([], if 0 > maxEvents ∨ bytes > maxBytes then 0 else bytes)
  | event :: rest, bytes =>
    if (event :: rest).length > maxEvents ∨ bytes > maxBytes then
      trim sizeOfEvent maxEvents maxBytes rest (bytes - sizeOfEvent)
    else (event :: rest, bytes)

def append (limits : EventLimits) (event : Event) (b : Backlog) : Backlog :=
  let kept := trim limits.sizeOfEvent b.maxEvents b.maxBytes (b.events ++ [event]) (b.bytes + limits.sizeOfEvent)
  { b with events := kept.1, bytes := kept.2 }

def after (b : Backlog) (afterRevision : Nat) : List Event := b.events.filter fun event => event.revision > afterRevision

def earliest (b : Backlog) : Option Nat := b.events.head?.map (·.revision)

def free (b : Backlog) : Backlog := { b with events := [], bytes := 0 }

end Backlog

end Bitty.Daemon.Events
