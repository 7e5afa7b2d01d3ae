import Bitty.Library.TreeMap
import Bitty.Daemon.Events.Queue
import Std.Data.ExtTreeSet.Lemmas

namespace Bitty.Daemon.Events

open Std

structure TerminalPin where
  event : Event
  pending : ExtTreeSet AttachId

namespace TerminalPin

def release (attachId : AttachId) (pin : TerminalPin) : Option TerminalPin :=
  let pending := pin.pending.erase attachId
  if pending.isEmpty then none else some { pin with pending }

end TerminalPin

structure SessionEvents where
  revision : Nat := 0
  terminalized : Bool := false
  backlog : Backlog
  leases : ExtTreeMap AttachId LeaseQueue := ∅
  terminal : Option TerminalPin := none

structure Emission where
  recipients : List AttachId := []
  closed : List LeaseClose := []
  deriving DecidableEq

structure ReplaySlice where
  events : List Event := []
  backlogTruncated : Bool := false
  earliestRevision : Option Nat := none
  terminalEvent : Option Event := none

structure EventBus where
  instanceId : DaemonInstanceId
  limits : EventLimits
  sessions : ExtTreeMap SessionId SessionEvents := ∅

namespace Emission

def concat (emissions : List Emission) : Emission :=
  ⟨emissions.flatMap (·.recipients), emissions.flatMap (·.closed)⟩

def closes (emission : Emission) : List AttachId := emission.closed.map (·.attachId)

def deliver (admission : Admission) (attachId : AttachId) (emission : Emission) : Emission :=
  match admission with
  | .accepted => { emission with recipients := emission.recipients ++ [attachId] }
  | .lost | .shed => { emission with closed := emission.closed ++ [⟨attachId, .terminalEventLost⟩] }

end Emission

namespace SessionEvents

def new (limits : EventLimits) : SessionEvents := { backlog := .new limits }

def admitTo (limits : EventLimits) (event : Event) (state : Emission × SessionEvents) (attachId : AttachId) :
    Emission × SessionEvents :=
  match state.2.leases[attachId]? with
  | none => state
  | some queue =>
    let (admission, queue) := queue.admitEvent limits (event.routedTo attachId) .control
    (state.1.deliver admission attachId, { state.2 with leases := state.2.leases.insert attachId queue })

/-- One frame for every attached lease. The source's name is `admit`. -/
def admitFrame (limits : EventLimits) (event : Event) (session : SessionEvents) : Emission × SessionEvents :=
  session.leases.keys.foldl (admitTo limits event) ({}, session)

def admitFrames (limits : EventLimits) : List Event → SessionEvents → List (Event × Emission) × SessionEvents
  | [], session => ([], session)
  | event :: rest, session =>
    let (emission, session) := admitFrame limits event session
    let (emissions, session) := admitFrames limits rest session
    ((event, emission) :: emissions, session)

/-- A plain `session_state` for every revision the caller did not report, then the event itself. -/
def burst (event : Event) (session : SessionEvents) : List Event :=
  (List.range' (session.revision + 1) (event.revision - (session.revision + 1))).map
    (fun next => { event with revision := next, kind := .sessionState, terminal := none, detail := .none }) ++ [event]

def recorded (limits : EventLimits) (event : Event) (session : SessionEvents) : SessionEvents :=
  let backlog := (session.burst event).foldl (fun backlog event => backlog.append limits event) session.backlog
  if event.kind = .sessionTerminal then
    { session with
      revision := event.revision
      terminalized := true
      backlog := backlog.free
      terminal := some ⟨event, ExtTreeSet.ofList session.leases.keys⟩ }
  else { session with revision := event.revision, backlog }

def emit (limits : EventLimits) (event : Event) (session : SessionEvents) : List (Event × Emission) × SessionEvents :=
  admitFrames limits (session.burst event) (session.recorded limits event)

def detach (attachId : AttachId) (session : SessionEvents) : SessionEvents :=
  { session with
    leases := session.leases.erase attachId
    terminal := session.terminal.bind (·.release attachId) }

def ackTerminal (attachId : AttachId) (session : SessionEvents) : SessionEvents :=
  { session with terminal := session.terminal.bind (·.release attachId) }

def replay (attachId : AttachId) (session : SessionEvents) : ReplaySlice where
  events := (session.backlog.after 0).map (·.routedTo attachId)
  backlogTruncated :=
    match session.backlog.earliest with
    | some front => front > 1
    | none => session.terminalized ∧ session.revision > 0
  earliestRevision := session.backlog.earliest.or
    (if session.terminalized ∧ session.revision > 0 then some session.revision else none)
  terminalEvent := session.terminal.bind fun pin =>
    if attachId ∉ pin.pending then none
    else if session.leases[attachId]?.any (·.contains pin.event.revision .sessionTerminal) then none
    else some (pin.event.routedTo attachId)

end SessionEvents

namespace EventBus

def new (instanceId : DaemonInstanceId) (limits : EventLimits) : EventBus := { instanceId, limits }

def register (sessionId : SessionId) (bus : EventBus) : EventBus :=
  { bus with sessions := bus.sessions.insertIfNew sessionId (.new bus.limits) }

def remove (sessionId : SessionId) (bus : EventBus) : List LeaseClose × EventBus :=
  (match bus.sessions[sessionId]? with
    | none => []
    | some session => session.leases.keys.map (⟨·, .terminalEventLost⟩),
    { bus with sessions := bus.sessions.erase sessionId })

def attach (sessionId : SessionId) (attachId : AttachId) (bus : EventBus) : Bool × EventBus :=
  match bus.sessions[sessionId]? with
  | none => (false, bus)
  | some session =>
    (true, { bus with
      sessions := bus.sessions.insert sessionId { session with leases := session.leases.insert attachId {} } })

def detach (sessionId : SessionId) (attachId : AttachId) (bus : EventBus) : EventBus :=
  { bus with sessions := bus.sessions.modify sessionId (·.detach attachId) }

/-- The frames of an emission with what comes of each; `emit` returns this put together. -/
def emitEach (sessionId : SessionId) (revision : Nat) (kind : EventKind) (detail : EventDetail)
    (terminal : Option TerminalMarker) (now : MonotonicMs) (bus : EventBus) :
    Option (List (Event × Emission)) × EventBus :=
  match bus.sessions[sessionId]? with
  | none => (none, bus)
  | some session =>
    if revision ≤ session.revision then (none, bus)
    else
      let (emissions, session) :=
        session.emit bus.limits ⟨bus.instanceId, sessionId, none, revision, kind, terminal, detail, now⟩
      (some emissions, { bus with sessions := bus.sessions.insert sessionId session })

def emit (sessionId : SessionId) (revision : Nat) (kind : EventKind) (detail : EventDetail)
    (terminal : Option TerminalMarker) (now : MonotonicMs) (bus : EventBus) : Option Emission × EventBus :=
  let (emissions, bus) := bus.emitEach sessionId revision kind detail terminal now
  (emissions.map fun emissions => .concat (emissions.map (·.2)), bus)

def emitTo (sessionId : SessionId) (only : Option AttachId) (revision : Nat) (kind : EventKind)
    (detail : EventDetail) (now : MonotonicMs) (bus : EventBus) : Option Emission × EventBus :=
  match bus.sessions[sessionId]? with
  | none => (none, bus)
  | some session =>
    let event : Event := ⟨bus.instanceId, sessionId, none, revision, kind, none, detail, now⟩
    match only with
    | some attachId =>
      if attachId ∉ session.leases then (none, bus)
      else
        let (emission, session) := SessionEvents.admitTo bus.limits event ({}, session) attachId
        (some emission, { bus with sessions := bus.sessions.insert sessionId session })
    | none =>
      let (emission, session) := session.admitFrame bus.limits event
      (some emission, { bus with sessions := bus.sessions.insert sessionId session })

def emitScoped (sessionId : SessionId) (kind : EventKind) (detail : EventDetail) (now : MonotonicMs)
    (bus : EventBus) : Option Emission × EventBus :=
  match bus.sessions[sessionId]? with
  | none => (none, bus)
  | some session => bus.emitTo sessionId none session.revision kind detail now

def queue (sessionId : SessionId) (attachId : AttachId) (bus : EventBus) : Option LeaseQueue :=
  bus.sessions[sessionId]?.bind (·.leases[attachId]?)

def setQueue (sessionId : SessionId) (attachId : AttachId) (queue : LeaseQueue) (bus : EventBus) : EventBus :=
  { bus with
    sessions := bus.sessions.modify sessionId fun session =>
      { session with leases := session.leases.insert attachId queue } }

def drain (sessionId : SessionId) (attachId : AttachId) (bus : EventBus) : List Event × EventBus :=
  match bus.queue sessionId attachId with
  | none => ([], bus)
  | some queue => (queue.drain.1, bus.setQueue sessionId attachId queue.drain.2)

def drainNext (sessionId : SessionId) (attachId : AttachId) (bus : EventBus) : Option Event × EventBus :=
  match bus.queue sessionId attachId with
  | none => (none, bus)
  | some queue => ((queue.popFront bus.limits).1, bus.setQueue sessionId attachId (queue.popFront bus.limits).2)

def replay (sessionId : SessionId) (attachId : AttachId) (bus : EventBus) : ReplaySlice :=
  match bus.sessions[sessionId]? with
  | none => {}
  | some session => session.replay attachId

def ackTerminal (sessionId : SessionId) (attachId : AttachId) (bus : EventBus) : EventBus :=
  { bus with sessions := bus.sessions.modify sessionId (·.ackTerminal attachId) }

end EventBus

end Bitty.Daemon.Events
