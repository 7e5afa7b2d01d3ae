import Bitty.Library.Keyed
import Bitty.Plugin.Manifest

namespace Bitty.Plugin

open Text

inductive EventKind
  | pluginActivated | pluginSuspended | pluginDisposed | handlerViolation
  | terminalOpened | terminalClosed | terminalTitleChanged | terminalCwdChanged | terminalBell
  | focusChanged | selectionChanged | processExited | configReloaded
  | workspaceCreated | workspaceClosed | workspaceRenamed | workspaceFocused | workspaceChanged
  | overlayReleased | overlayInputAvailable | overlayDismissed
  | interceptCommandDispatch | interceptTerminalSpawn | interceptPaste | interceptOpenUrl
  deriving DecidableEq

namespace EventKind

def asStr : EventKind → Text
  | pluginActivated => "plugin.activated".toList
  | pluginSuspended => "plugin.suspended".toList
  | pluginDisposed => "plugin.disposed".toList
  | handlerViolation => "handler.violation".toList
  | terminalOpened => "terminal.opened".toList
  | terminalClosed => "terminal.closed".toList
  | terminalTitleChanged => "terminal.title-changed".toList
  | terminalCwdChanged => "terminal.cwd-changed".toList
  | terminalBell => "terminal.bell".toList
  | focusChanged => "focus.changed".toList
  | selectionChanged => "selection.changed".toList
  | processExited => "process.exited".toList
  | configReloaded => "config.reloaded".toList
  | workspaceCreated => "workspace.created".toList
  | workspaceClosed => "workspace.closed".toList
  | workspaceRenamed => "workspace.renamed".toList
  | workspaceFocused => "workspace.focused".toList
  | workspaceChanged => "workspace.changed".toList
  | overlayReleased => "overlay.released".toList
  | overlayInputAvailable => "overlay.input.available".toList
  | overlayDismissed => "overlay.dismissed".toList
  | interceptCommandDispatch => "intercept.command-dispatch".toList
  | interceptTerminalSpawn => "intercept.terminal-spawn".toList
  | interceptPaste => "intercept.paste".toList
  | interceptOpenUrl => "intercept.open-url".toList

def isCoalescable : EventKind → Bool
  | terminalTitleChanged | terminalCwdChanged | focusChanged | selectionChanged | overlayInputAvailable => true
  | _ => false

end EventKind

def EVENT_MAX_BYTES : Nat := 8 * 1024

abbrev BoundedText := { s : Text // byteLen s ≤ EVENT_MAX_BYTES }

inductive EventPayload
  | empty
  | text (s : BoundedText)
  | titleChanged (s : BoundedText)
  | cwdChanged (s : BoundedText)
  | interception (action origin preview : BoundedText)

namespace EventPayload

def bytes : EventPayload → Nat
  | empty => 0
  | text s | titleChanged s | cwdChanged s => byteLen s.val
  | interception action origin preview => byteLen action.val + byteLen origin.val + byteLen preview.val

def isBounded (payload : EventPayload) : Bool := payload.bytes ≤ EVENT_MAX_BYTES

theorem bytes_le (payload : EventPayload) : payload.bytes ≤ 3 * EVENT_MAX_BYTES := by
  cases payload with
  | empty => exact Nat.zero_le _
  | text s => exact s.property.trans (Nat.le_mul_of_pos_left _ (by decide))
  | titleChanged s => exact s.property.trans (Nat.le_mul_of_pos_left _ (by decide))
  | cwdChanged s => exact s.property.trans (Nat.le_mul_of_pos_left _ (by decide))
  | interception action origin preview =>
    have first := action.property
    have second := origin.property
    have third := preview.property
    change byteLen action.val + byteLen origin.val + byteLen preview.val ≤ _
    omega

end EventPayload

structure Event where
  kind : EventKind
  payload : EventPayload
  sequence : Nat

def Event.bytes (event : Event) : Nat := event.payload.bytes

inductive DropPolicy
  | dropOldest
  | dropNewest
  deriving DecidableEq

def wrappingSucc (n : Nat) : Nat := (n + 1) % 2 ^ 64

structure EventQueue where
  inner : List Event
  capacity : Nat
  dropPolicy : DropPolicy
  dropped : Nat
  positive : 0 < capacity
  within : inner.length ≤ capacity

namespace EventQueue

variable (q : EventQueue)

def new (capacity : Nat) (dropPolicy : DropPolicy) (positive : 0 < capacity) : EventQueue where
  inner := []
  capacity
  dropPolicy
  dropped := 0
  positive
  within := Nat.zero_le _

def queuedBytes : Nat := (q.inner.map Event.bytes).sum

def drop : EventQueue := { q with dropped := wrappingSucc q.dropped }

def popFront : EventQueue :=
  { q with
    inner := q.inner.tail
    dropped := wrappingSucc q.dropped
    within := by
      have here := q.within
      rw [List.length_tail]
      omega }

def coalesces (event : Event) : Bool := event.kind.isCoalescable && !q.inner.isEmpty

def enqueue (event : Event) : EventQueue :=
  if room : q.inner.length < q.capacity then
    { q with
      inner := q.inner ++ [event]
      within := by
        rw [List.length_append, List.length_singleton]
        omega }
  else
    match q.dropPolicy with
    | .dropOldest =>
      { q with
        inner := q.inner.tail ++ [event]
        dropped := wrappingSucc q.dropped
        within := by
          have here := q.within
          have positive := q.positive
          rw [List.length_append, List.length_tail, List.length_singleton]
          omega }
    | .dropNewest => q.drop

def cleared : EventQueue := { q with inner := [], within := Nat.zero_le _ }

def push (event : Event) : EventQueue :=
  if event.payload.isBounded then
    if q.coalesces event then q.cleared.enqueue event else q.enqueue event
  else q.drop

def drain : List Event × EventQueue := (q.inner, q.cleared)

/-- How many of the first events a batch takes, after some were taken. -/
def batch (maxEvents maxBytes : Nat) : List Event → Nat → Nat → Nat
  | [], _, _ => 0
  | front :: rest, taken, bytes =>
    if maxEvents ≤ taken ∨ maxBytes < bytes + front.bytes then 0
    else if maxBytes ≤ bytes + front.bytes then 1
    else batch maxEvents maxBytes rest (taken + 1) (bytes + front.bytes) + 1

def drainBatch (maxEvents maxBytes : Nat) : List Event × EventQueue :=
  let taken := batch maxEvents maxBytes q.inner 0 0
  (q.inner.take taken, { q with
    inner := q.inner.drop taken
    within := (List.length_drop.le.trans (Nat.sub_le _ _)).trans q.within })

end EventQueue

end Bitty.Plugin

namespace Bitty.Plugin

open Text

def PER_PLUGIN_QUEUED_EVENT_LIMIT : Nat := 1024

def PER_PLUGIN_QUEUED_BYTES_LIMIT : Nat := 256 * 1024

def GLOBAL_QUEUED_EVENT_LIMIT : Nat := 8192

def GLOBAL_QUEUED_BYTES_LIMIT : Nat := 2 * 1024 * 1024

structure SubscriptionKey where
  plugin : Text
  kind : EventKind
  deriving DecidableEq

def SubscriptionKey.le (a b : SubscriptionKey) : Bool :=
  if a.plugin = b.plugin then Text.le a.kind.asStr b.kind.asStr else Text.le a.plugin b.plugin

abbrev Queues := List (SubscriptionKey × EventQueue)

/-- Each subscription has one queue; the queues stand in the order of their subscriptions. -/
structure EventPipeline where
  queues : Queues
  defaultCapacity : Nat
  dropPolicy : DropPolicy
  positive : 0 < defaultCapacity
  once : (queues.map (·.1)).Nodup

namespace EventPipeline

variable (p : EventPipeline)

def new (defaultCapacity : Nat) (dropPolicy : DropPolicy) (positive : 0 < defaultCapacity) : EventPipeline where
  queues := []
  defaultCapacity
  dropPolicy
  positive
  once := List.nodup_nil

def get (key : SubscriptionKey) : Option EventQueue := Keyed.find key p.queues

def modify (key : SubscriptionKey) (f : EventQueue → EventQueue) : EventPipeline :=
  { p with
    queues := Keyed.modify key f p.queues
    once := by
      rw [Keyed.keys_modify]
      exact p.once }

def eventsIn (selected : SubscriptionKey → Bool) : Nat := Keyed.total selected (·.inner.length) p.queues

def bytesIn (selected : SubscriptionKey → Bool) : Nat := Keyed.total selected EventQueue.queuedBytes p.queues

def totalQueuedEvents : Nat := p.eventsIn fun _ => true

def totalQueuedBytes : Nat := p.bytesIn fun _ => true

def queuedEventsForPlugin (plugin : Text) : Nat := p.eventsIn (·.plugin = plugin)

def queuedBytesForPlugin (plugin : Text) : Nat := p.bytesIn (·.plugin = plugin)

def wouldExceedPluginLimits (plugin : Text) (event : Event) : Bool :=
  PER_PLUGIN_QUEUED_EVENT_LIMIT < p.queuedEventsForPlugin plugin + 1 ||
    PER_PLUGIN_QUEUED_BYTES_LIMIT < p.queuedBytesForPlugin plugin + event.bytes

def wouldExceedGlobalLimits (event : Event) : Bool :=
  GLOBAL_QUEUED_EVENT_LIMIT < p.totalQueuedEvents + 1 || GLOBAL_QUEUED_BYTES_LIMIT < p.totalQueuedBytes + event.bytes

def exceeds (plugin : Text) (event : Event) : Bool :=
  p.wouldExceedPluginLimits plugin event || p.wouldExceedGlobalLimits event

/-- The selected queue whose front has the lowest sequence number; the first of several. -/
def oldest (selected : SubscriptionKey → Bool) : Queues → Option (SubscriptionKey × Nat) → Option (SubscriptionKey × Nat)
  | [], best => best
  | (key, q) :: rest, best =>
    match selected key, q.inner.head? with
    | true, some front =>
      match best with
      | some (_, lowest) => oldest selected rest (if front.sequence < lowest then some (key, front.sequence) else best)
      | none => oldest selected rest (some (key, front.sequence))
    | _, _ => oldest selected rest best

def evictOldest (selected : SubscriptionKey → Bool) : EventPipeline :=
  match oldest selected p.queues none with
  | some (key, _) => p.modify key EventQueue.popFront
  | none => p

def evictOldestGlobally : EventPipeline := p.evictOldest fun _ => true

def evictOldestForPlugin (plugin : Text) : EventPipeline := p.evictOldest (·.plugin = plugin)

/-- Evicts until an arrival would fit, no more than so many times and only while it helps. -/
def evictUntil (plugin : Text) (event : Event) : Nat → EventPipeline → EventPipeline
  | 0, p => p
  | attempts + 1, p =>
    if p.exceeds plugin event then
      let p' := if p.wouldExceedGlobalLimits event then p.evictOldestGlobally else p.evictOldestForPlugin plugin
      if p'.totalQueuedEvents = p.totalQueuedEvents ∧ p'.totalQueuedBytes = p.totalQueuedBytes then p'
      else evictUntil plugin event attempts p'
    else p

def makeRoom (plugin : Text) (event : Event) : EventPipeline :=
  if p.exceeds plugin event ∧ p.dropPolicy = .dropOldest then p.evictUntil plugin event 4 else p

/-- An arrival at a queue: admitted if it fits, else counted as dropped. -/
def admitEvent (key : SubscriptionKey) (event : Event) : EventPipeline :=
  if p.exceeds key.plugin event then p.modify key EventQueue.drop else p.modify key (·.push event)

def offer (event : Event) (p : EventPipeline) (key : SubscriptionKey) : EventPipeline :=
  (p.makeRoom key.plugin event).admitEvent key event

def targets (kind : EventKind) : List SubscriptionKey := (p.queues.map (·.1)).filter (·.kind = kind)

def publish (event : Event) : EventPipeline := (p.targets event.kind).foldl (offer event) p

def notSubscribed (plugin : Text) (kind : EventKind) : PluginError :=
  .event ("not subscribed: ".toList ++ plugin ++ [':'] ++ kind.asStr)

/-- The subscription is looked up when room has been made. -/
def publishTo (plugin : Text) (event : Event) : Except PluginError Unit × EventPipeline :=
  let p := p.makeRoom plugin event
  match p.get ⟨plugin, event.kind⟩ with
  | none => (.error (notSubscribed plugin event.kind), p)
  | some _ => (.ok (), p.admitEvent ⟨plugin, event.kind⟩ event)

theorem once_insert {key : SubscriptionKey} (fresh : p.get key = none) (q : EventQueue) :
    ((p.queues.orderedInsert (fun a b => a.1.le b.1) (key, q)).map (·.1)).Nodup := by
  have inserted := (List.perm_orderedInsert (fun a b : SubscriptionKey × EventQueue => a.1.le b.1) (key, q) p.queues).map
    (·.1)
  exact inserted.nodup_iff.mpr (List.nodup_cons.mpr ⟨Keyed.find_eq_none.mp fresh, p.once⟩)

def subscribe (plugin : Text) (kind : EventKind) : Except PluginError Unit × EventPipeline :=
  if fresh : p.get ⟨plugin, kind⟩ = none then
    let q := EventQueue.new p.defaultCapacity p.dropPolicy p.positive
    (.ok (), { p with
      queues := p.queues.orderedInsert (fun a b => a.1.le b.1) (⟨plugin, kind⟩, q)
      once := p.once_insert fresh q })
  else (.error (.duplicate "subscription".toList (plugin ++ [':'] ++ kind.asStr)), p)

def remove (key : SubscriptionKey) : EventPipeline :=
  { p with
    queues := p.queues.filter fun e => e.1 ≠ key
    once := p.once.sublist (List.filter_sublist.map _) }

def unsubscribe (plugin : Text) (kind : EventKind) : Except PluginError Unit × EventPipeline :=
  match p.get ⟨plugin, kind⟩ with
  | none => (.error (notSubscribed plugin kind), p)
  | some _ => (.ok (), p.remove ⟨plugin, kind⟩)

def take (taking : EventQueue → List Event × EventQueue) (plugin : Text) (kind : EventKind) :
    Except PluginError (List Event) × EventPipeline :=
  match p.get ⟨plugin, kind⟩ with
  | none => (.error (notSubscribed plugin kind), p)
  | some q => (.ok (taking q).1, p.modify ⟨plugin, kind⟩ fun q => (taking q).2)

def drainBatch (plugin : Text) (kind : EventKind) (maxEvents maxBytes : Nat) :
    Except PluginError (List Event) × EventPipeline :=
  p.take (·.drainBatch maxEvents maxBytes) plugin kind

def drain (plugin : Text) (kind : EventKind) : Except PluginError (List Event) × EventPipeline :=
  p.take EventQueue.drain plugin kind

end EventPipeline

inductive PipelineOp
  | subscribe (plugin : Text) (kind : EventKind)
  | unsubscribe (plugin : Text) (kind : EventKind)
  | publish (event : Event)
  | publishTo (plugin : Text) (event : Event)
  | drain (plugin : Text) (kind : EventKind)
  | drainBatch (plugin : Text) (kind : EventKind) (maxEvents maxBytes : Nat)

namespace EventPipeline

def answered (outcome : Except PluginError Unit × EventPipeline) : Except PluginError (List Event) × EventPipeline :=
  (outcome.1.map fun _ => [], outcome.2)

def perform (p : EventPipeline) : PipelineOp → Except PluginError (List Event) × EventPipeline
  | .subscribe plugin kind => answered (p.subscribe plugin kind)
  | .unsubscribe plugin kind => answered (p.unsubscribe plugin kind)
  | .publish event => (.ok [], p.publish event)
  | .publishTo plugin event => answered (p.publishTo plugin event)
  | .drain plugin kind => p.drain plugin kind
  | .drainBatch plugin kind maxEvents maxBytes => p.drainBatch plugin kind maxEvents maxBytes

end EventPipeline

end Bitty.Plugin
