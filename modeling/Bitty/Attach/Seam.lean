import Bitty.Library.Checks
import Bitty.Library.Index
import Bitty.Library.Mutation
import Bitty.Library.Recent
import Bitty.Library.Text

namespace Bitty.Attach

open Std (ExtTreeMap)
open Text Checks

def DEFAULT_MAX_BINDINGS_PER_WINDOW : Nat := 8

def MAX_BINDINGS_PER_WINDOW : Nat := 16

def MAX_QUEUED_EVENTS_PER_BINDING : Nat := 256

def MAX_QUEUED_EVENT_BYTES_PER_BINDING : Nat := 65536

def DEDUPE_HISTORY : Nat := 64

def MAX_CREDENTIAL_LEN : Nat := 512

def U64_MAX : Nat := 18446744073709551615

def USIZE_MAX : Nat := 18446744073709551615

inductive IdKind
  | session
  | attach

/-- The identifiers that `hex_identifier!` declares. -/
structure HexId (kind : IdKind) where
  bytes : BitVec 128
  deriving DecidableEq

abbrev SessionId := HexId .session

abbrev AttachId := HexId .attach

structure WindowId where
  raw : Nat
  deriving DecidableEq

structure PanelId where
  raw : Nat
  deriving DecidableEq

structure BindingId where
  raw : Nat
  deriving DecidableEq

/-- What `by_key` is ordered by. -/
structure BindingKey where
  window : WindowId
  session : SessionId
  deriving DecidableEq

section Orders

variable {kind : IdKind}

instance : Ord (HexId kind) := ⟨compareOn HexId.bytes⟩

instance : Std.TransOrd (HexId kind) := inferInstanceAs (Std.TransCmp (compareOn HexId.bytes))

instance : Std.LawfulEqOrd (HexId kind) where
  eq_of_compare {a b} same := by
    cases a
    cases b
    exact congrArg HexId.mk (Std.LawfulEqOrd.eq_of_compare same)

instance : Ord WindowId := ⟨compareOn WindowId.raw⟩

instance : Std.TransOrd WindowId := inferInstanceAs (Std.TransCmp (compareOn WindowId.raw))

instance : Std.LawfulEqOrd WindowId where
  eq_of_compare {a b} same := by
    cases a
    cases b
    exact congrArg WindowId.mk (Std.LawfulEqOrd.eq_of_compare same)

instance : Ord BindingId := ⟨compareOn BindingId.raw⟩

instance : Std.TransOrd BindingId := inferInstanceAs (Std.TransCmp (compareOn BindingId.raw))

instance : Std.LawfulEqOrd BindingId where
  eq_of_compare {a b} same := by
    cases a
    cases b
    exact congrArg BindingId.mk (Std.LawfulEqOrd.eq_of_compare same)

instance : Ord BindingKey := ⟨compareLex (compareOn BindingKey.window) (compareOn BindingKey.session)⟩

instance : Std.TransOrd BindingKey :=
  inferInstanceAs (Std.TransCmp (compareLex (compareOn BindingKey.window) (compareOn BindingKey.session)))

instance : Std.LawfulEqOrd BindingKey where
  eq_of_compare {a b} same := by
    obtain ⟨window, session⟩ := Ordering.then_eq_eq.mp same
    cases a
    cases b
    exact congrArg₂ BindingKey.mk (Std.LawfulEqOrd.eq_of_compare window) (Std.LawfulEqOrd.eq_of_compare session)

end Orders

structure BindingHandle where
  window : WindowId
  binding : BindingId
  deriving DecidableEq

inductive LeaseRole
  | observer
  | controller
  deriving DecidableEq

inductive SessionState
  | created
  | running
  | stopping
  | exited
  | failed
  | terminated
  deriving DecidableEq

def SessionState.isTerminal : SessionState → Bool
  | exited | failed | terminated => true
  | created | running | stopping => false

inductive TerminalReason
  | workerExit
  | workerSignal
  | spawnFailed
  | supervisionFailed
  | consumerCancel
  | consumerTimeout
  | operatorAbort
  | daemonStop
  | hostShutdown

def TerminalReason.terminalState : TerminalReason → SessionState
  | workerExit => .exited
  | workerSignal | spawnFailed | supervisionFailed => .failed
  | consumerCancel | consumerTimeout | operatorAbort | daemonStop | hostShutdown => .terminated

inductive EventKind
  | sessionState
  | sessionTerminal
  | controlTransfer
  | leaseRevoked
  | daemonStopping
  deriving DecidableEq

instance : Fintype EventKind :=
  ⟨{.sessionState, .sessionTerminal, .controlTransfer, .leaseRevoked, .daemonStopping}, by
    intro kind
    cases kind <;> decide⟩

inductive EventDetail
  | none
  | terminal (state : SessionState) (reason : TerminalReason)
  | controlTransfer (target : AttachId)
  | daemonStopping (deadlineMs : Nat)

structure SessionEvent where
  session : SessionId
  attachId : AttachId
  revision : Nat
  kind : EventKind
  detail : EventDetail

def SessionEvent.detailMatchesKind (e : SessionEvent) : Bool :=
  match e.kind, e.detail with
  | .sessionState, .none | .leaseRevoked, .none => true
  | .sessionTerminal, .terminal state reason => state.isTerminal && decide (reason.terminalState = state)
  | .controlTransfer, .controlTransfer _ => true
  | .daemonStopping, .daemonStopping _ => true
  | _, _ => false

structure HostAttach where
  session : SessionId
  role : LeaseRole
  expectedGeneration : Option Nat
  controlToken : Option Text
  observerGrant : Option Text

structure HostAttachGrant where
  attachId : AttachId
  role : LeaseRole
  generation : Nat

structure HostDetach where
  wasAttached : Bool

inductive HostRefusal
  | notFound
  | notRunning
  | sessionStopping
  | staleGeneration (currentGeneration currentRevision : Nat)
  | controllerRequired
  | controlHeld
  | invalidControlToken
  | observerGrantRequired
  | maxAttaches (limit : Nat)
  | notAttached
  | unavailable
  | protocol

/-- The calls that a client of the daemon implements. -/
class SessionHost (H : Type) where
  attach : HostAttach → H → Except HostRefusal HostAttachGrant × H
  detach : SessionId → AttachId → H → Except HostRefusal HostDetach × H

structure AttachConfig where
  maxBindingsPerWindow : Nat := DEFAULT_MAX_BINDINGS_PER_WINDOW
  maxQueuedEventsPerBinding : Nat := MAX_QUEUED_EVENTS_PER_BINDING

structure AttachRequest where
  window : WindowId
  panel : PanelId
  session : SessionId
  role : LeaseRole
  expectedGeneration : Option Nat
  controlToken : Option Text
  observerGrant : Option Text

structure SessionBinding where
  handle : BindingHandle
  panel : PanelId
  session : SessionId
  role : LeaseRole
  generation : Nat
  attachId : AttachId
  queuedEvents : Nat

inductive ReleaseCause
  | requested
  | windowClosed
  | sessionTerminated
  | daemonStopped
  | leaseRevoked
  | terminalEventLost

inductive HostDetachOutcome
  | acknowledged (wasAttached : Bool)
  | refused (refusal : HostRefusal)

structure ReleaseReceipt where
  binding : SessionBinding
  cause : ReleaseCause
  host : HostDetachOutcome
  discardedEvents : Nat

inductive ReleaseOutcome
  | released (receipt : ReleaseReceipt)
  | notAttached

inductive EventDelivery
  | queued (handle : BindingHandle) (queuedEvents : Nat)
  | droppedUnknownLease
  | droppedForeignSession
  | droppedStale
  | droppedClosing
  | droppedInvalid
  | leaseClosed (handle : BindingHandle) (receipt : ReleaseReceipt)

structure DrainOutcome where
  events : List SessionEvent
  released : Option ReleaseReceipt

inductive AttachError
  | notAttached
  | alreadyAttached (role : LeaseRole) (panel : PanelId)
  | windowLimitReached (max current : Nat)
  | daemonStopped
  | missingControlToken
  | unexpectedObserverGrant
  | missingObserverGrant
  | unexpectedControlToken
  | generationRequired
  | generationMismatch (expected found : Nat)
  | roleMismatch (requested granted : LeaseRole)
  | invalidCredential
  | invalidLimit (limit : Text) (value maximum : Nat)
  | refused (refusal : HostRefusal)
  | duplicateAttachId (attachId : AttachId)
  | hostProtocol
  | bindingIdExhausted

/-- Why a binding is closing after its last control frame. -/
inductive Closing
  | sessionTerminated
  | leaseRevoked
  | daemonStopped

def Closing.cause : Closing → ReleaseCause
  | sessionTerminated => .sessionTerminated
  | leaseRevoked => .leaseRevoked
  | daemonStopped => .daemonStopped

def EventKind.closing : EventKind → Option Closing
  | sessionTerminal => some .sessionTerminated
  | leaseRevoked => some .leaseRevoked
  | daemonStopping => some .daemonStopped
  | sessionState | controlTransfer => none

structure Binding where
  handle : BindingHandle
  panel : PanelId
  session : SessionId
  role : LeaseRole
  generation : Nat
  attachId : AttachId
  events : List SessionEvent := []
  queuedBytes : Nat := 0
  lastRevision : Option Nat := none
  recent : List (Nat × EventKind) := []
  closing : Option Closing := none

namespace Binding

def key (b : Binding) : BindingKey := ⟨b.handle.window, b.session⟩

def window (b : Binding) : WindowId := b.handle.window

def snapshot (b : Binding) : SessionBinding where
  handle := b.handle
  panel := b.panel
  session := b.session
  role := b.role
  generation := b.generation
  attachId := b.attachId
  queuedEvents := b.events.length

def take (size : Nat) (event : SessionEvent) (b : Binding) : Binding where
  handle := b.handle
  panel := b.panel
  session := b.session
  role := b.role
  generation := b.generation
  attachId := b.attachId
  events := b.events ++ [event]
  queuedBytes := b.queuedBytes + size
  lastRevision := some event.revision
  recent := Recent.push DEDUPE_HISTORY b.recent (event.revision, event.kind)
  closing := event.kind.closing.or b.closing

def drained (b : Binding) : Binding := { b with events := [], queuedBytes := 0, closing := none }

end Binding

structure AttachSeam (H : Type) where
  host : H
  config : AttachConfig
  daemonAvailable : Bool
  nextBinding : Nat
  bindings : ExtTreeMap BindingId Binding
  byKey : ExtTreeMap BindingKey BindingId
  byAttach : ExtTreeMap AttachId BindingId
  windowCounts : ExtTreeMap WindowId Nat

namespace AttachSeam

variable {H : Type}

/-- `AttachSeam::new`. -/
def new (host : H) (config : AttachConfig) : Except AttachError (AttachSeam H) :=
  if MAX_BINDINGS_PER_WINDOW < config.maxBindingsPerWindow then
    .error (.invalidLimit "max_bindings_per_window".toList config.maxBindingsPerWindow MAX_BINDINGS_PER_WINDOW)
  else if config.maxQueuedEventsPerBinding = 0 ∨ MAX_QUEUED_EVENTS_PER_BINDING < config.maxQueuedEventsPerBinding then
    .error (.invalidLimit "max_queued_events_per_binding".toList config.maxQueuedEventsPerBinding
      MAX_QUEUED_EVENTS_PER_BINDING)
  else .ok
    { host, config, daemonAvailable := true, nextBinding := 1, bindings := ∅, byKey := ∅, byAttach := ∅, windowCounts := ∅ }

def validateCredential (credential : Text) : Except AttachError Unit :=
  refuseIf (credential = [] ∨ MAX_CREDENTIAL_LEN < byteLen credential) .invalidCredential

def validateRole (request : AttachRequest) : Except AttachError Unit := do
  match request.role with
  | .controller => do
    refuseIf (request.controlToken = none) .missingControlToken
    refuseIf (request.observerGrant ≠ none) .unexpectedObserverGrant
    refuseIf (request.expectedGeneration = none) .generationRequired
  | .observer => do
    refuseIf (request.observerGrant = none) .missingObserverGrant
    refuseIf (request.controlToken ≠ none) .unexpectedControlToken
  each validateCredential (request.controlToken.toList ++ request.observerGrant.toList)

/-- The answer of `bind` for a key that is bound. -/
def rebind (request : AttachRequest) (existing : Binding) : Except AttachError (Option BindingHandle) :=
  let sameGeneration := request.expectedGeneration.all (· = existing.generation)
  if existing.panel = request.panel ∧ existing.role = request.role ∧ sameGeneration = true then .ok (some existing.handle)
  else .error (.alreadyAttached existing.role existing.panel)

/-- The part of `bind` before the host is called: the handle of the same binding if it is there. -/
def screen (request : AttachRequest) (s : AttachSeam H) : Except AttachError (Option BindingHandle) := do
  refuseIf (s.daemonAvailable = false) .daemonStopped
  validateRole request
  match s.byKey[BindingKey.mk request.window request.session]? with
  | some existingId =>
    match s.bindings[existingId]? with
    | none => .error .hostProtocol
    | some existing => rebind request existing
  | none =>
    let current := s.windowCounts[request.window]?.getD 0
    if s.config.maxBindingsPerWindow ≤ current then .error (.windowLimitReached s.config.maxBindingsPerWindow current)
    else .ok none

def mintBindingId : Mutation (AttachSeam H) AttachError BindingId := fun s =>
  if s.nextBinding + 1 ≤ U64_MAX then (.ok ⟨s.nextBinding⟩, { s with nextBinding := s.nextBinding + 1 })
  else (.error .bindingIdExhausted, s)

variable [SessionHost H]

def hostAttach (request : AttachRequest) : Mutation (AttachSeam H) AttachError HostAttachGrant := fun s =>
  let (answer, host) := SessionHost.attach
    ⟨request.session, request.role, request.expectedGeneration, request.controlToken, request.observerGrant⟩ s.host
  (answer.mapError .refused, { s with host })

def hostDetach (session : SessionId) (attachId : AttachId) (s : AttachSeam H) :
    Except HostRefusal HostDetach × AttachSeam H :=
  let (answer, host) := SessionHost.detach session attachId s.host
  (answer, { s with host })

def checkGrant (request : AttachRequest) (grant : HostAttachGrant) : Mutation (AttachSeam H) AttachError Unit := fun s =>
  if grant.role ≠ request.role then
    (.error (.roleMismatch request.role grant.role), (s.hostDetach request.session grant.attachId).2)
  else if request.expectedGeneration.all (grant.generation = ·) = false then
    (.error (.generationMismatch (request.expectedGeneration.getD 0) grant.generation),
      (s.hostDetach request.session grant.attachId).2)
  else if s.byAttach[grant.attachId]?.isSome = true then (.error (.duplicateAttachId grant.attachId), s)
  else (.ok (), s)

omit [SessionHost H] in
def register (request : AttachRequest) (bindingId : BindingId) (grant : HostAttachGrant) (s : AttachSeam H) : AttachSeam H :=
  let binding : Binding :=
    { handle := ⟨request.window, bindingId⟩, panel := request.panel, session := request.session, role := grant.role,
      generation := grant.generation, attachId := grant.attachId }
  { s with
    bindings := s.bindings.insert bindingId binding
    byKey := s.byKey.insert binding.key bindingId
    byAttach := s.byAttach.insert grant.attachId bindingId
    windowCounts := countUp request.window s.windowCounts }

def bind (request : AttachRequest) : Mutation (AttachSeam H) AttachError BindingHandle := do
  match ← Mutation.ask (screen request) with
  | some handle => return handle
  | none =>
    let bindingId ← mintBindingId
    let grant ← hostAttach request
    checkGrant request grant
    Mutation.change (register request bindingId grant)
    return ⟨request.window, bindingId⟩

omit [SessionHost H] in
def remove (bindingId : BindingId) (binding : Binding) (s : AttachSeam H) : AttachSeam H :=
  { s with
    bindings := s.bindings.erase bindingId
    byKey := s.byKey.erase binding.key
    byAttach := s.byAttach.erase binding.attachId
    windowCounts := countDown binding.handle.window s.windowCounts }

def releaseInner (bindingId : BindingId) (cause : ReleaseCause) (s : AttachSeam H) : Option ReleaseReceipt × AttachSeam H :=
  match s.bindings[bindingId]? with
  | none => (none, s)
  | some binding =>
    let (answer, released) := (s.remove bindingId binding).hostDetach binding.session binding.attachId
    let host := match answer with
      | .ok detach => .acknowledged detach.wasAttached
      | .error refusal => .refused refusal
    (some { binding := binding.snapshot, cause, host, discardedEvents := binding.events.length }, released)

def releaseEach (cause : ReleaseCause) : List BindingId → AttachSeam H → List ReleaseReceipt × AttachSeam H
  | [], s => ([], s)
  | id :: rest, s =>
    let first := s.releaseInner id cause
    let later := releaseEach cause rest first.2
    (first.1.toList ++ later.1, later.2)

def releaseWhere (predicate : Binding → Bool) (cause : ReleaseCause) (s : AttachSeam H) :
    List ReleaseReceipt × AttachSeam H :=
  let ids := (s.bindings.toList.filter fun entry => predicate entry.2).map (·.1)
  s.releaseEach cause ids

def outcomeOf : Option ReleaseReceipt → ReleaseOutcome
  | some receipt => .released receipt
  | none => .notAttached

def release (handle : BindingHandle) (s : AttachSeam H) : ReleaseOutcome × AttachSeam H :=
  match s.bindings[handle.binding]? with
  | some binding =>
    if binding.handle = handle then
      let (receipt, released) := s.releaseInner handle.binding .requested
      (outcomeOf receipt, released)
    else (.notAttached, s)
  | none => (.notAttached, s)

def releaseSession (window : WindowId) (session : SessionId) (s : AttachSeam H) : ReleaseOutcome × AttachSeam H :=
  match s.byKey[BindingKey.mk window session]? with
  | none => (.notAttached, s)
  | some bindingId =>
    let (receipt, released) := s.releaseInner bindingId .requested
    (outcomeOf receipt, released)

def onWindowClosed (window : WindowId) (s : AttachSeam H) : List ReleaseReceipt × AttachSeam H :=
  s.releaseWhere (fun binding => binding.handle.window = window) .windowClosed

def onSessionTerminated (session : SessionId) (s : AttachSeam H) : List ReleaseReceipt × AttachSeam H :=
  s.releaseWhere (fun binding => binding.session = session) .sessionTerminated

def onDaemonStopped (s : AttachSeam H) : List ReleaseReceipt × AttachSeam H :=
  releaseWhere (fun _ => true) .daemonStopped { s with daemonAvailable := false }

omit [SessionHost H] in
def onDaemonStarted (s : AttachSeam H) : AttachSeam H := { s with daemonAvailable := true }

omit [SessionHost H] in
def dropped (binding : Binding) (event : SessionEvent) : Option EventDelivery :=
  if binding.session ≠ event.session then some .droppedForeignSession
  else if event.detailMatchesKind = false then some .droppedInvalid
  else if binding.closing.isSome = true then some .droppedClosing
  else if binding.lastRevision.any (event.revision < ·) = true then some .droppedStale
  else if (event.revision, event.kind) ∈ binding.recent then some .droppedStale
  else none

omit [SessionHost H] in
def overflows (size : Nat) (binding : Binding) (s : AttachSeam H) : Bool :=
  decide (s.config.maxQueuedEventsPerBinding ≤ binding.events.length) ||
    decide (MAX_QUEUED_EVENT_BYTES_PER_BINDING < min USIZE_MAX (binding.queuedBytes + size))

def enqueue (size : Nat) (event : SessionEvent) (bindingId : BindingId) (binding : Binding) (s : AttachSeam H) :
    EventDelivery × AttachSeam H :=
  if s.overflows size binding = true then
    match s.releaseInner bindingId .terminalEventLost with
    | (some receipt, released) => (.leaseClosed binding.handle receipt, released)
    | (none, released) => (.droppedUnknownLease, released)
  else
    (.queued binding.handle (binding.events.length + 1),
      { s with bindings := s.bindings.modify bindingId (Binding.take size event) })

def deliverEvent (size : Nat) (event : SessionEvent) (s : AttachSeam H) : EventDelivery × AttachSeam H :=
  match s.byAttach[event.attachId]? with
  | none => (.droppedUnknownLease, s)
  | some bindingId =>
    match s.bindings[bindingId]? with
    | none => (.droppedUnknownLease, s)
    | some binding =>
      match dropped binding event with
      | some delivery => (delivery, s)
      | none => s.enqueue size event bindingId binding

def drainEvents (handle : BindingHandle) (s : AttachSeam H) : Except AttachError DrainOutcome × AttachSeam H :=
  match s.bindings[handle.binding]? with
  | none => (.error .notAttached, s)
  | some binding =>
    if binding.handle ≠ handle then (.error .notAttached, s)
    else
      let emptied := { s with bindings := s.bindings.modify handle.binding Binding.drained }
      match binding.closing with
      | none => (.ok ⟨binding.events, none⟩, emptied)
      | some closing =>
        let (receipt, released) := emptied.releaseInner handle.binding closing.cause
        (.ok ⟨binding.events, receipt⟩, released)

end AttachSeam

end Bitty.Attach
