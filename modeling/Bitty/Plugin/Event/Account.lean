import Bitty.Plugin.Event.Pipeline

namespace Bitty.Plugin

def Event.bytesOf (events : List Event) : Nat := (events.map Event.bytes).sum

theorem Event.bytesOf_sublist {some all : List Event} (sub : some.Sublist all) : bytesOf some ≤ bytesOf all := by
  induction sub with
  | slnil => exact Nat.le_refl _
  | cons e _ ih => exact Nat.le_trans ih (Nat.le_add_left _ _)
  | cons_cons e _ ih => exact Nat.add_le_add_left ih _

theorem Event.bytesOf_append (first second : List Event) : bytesOf (first ++ second) = bytesOf first + bytesOf second := by
  simp [bytesOf]

namespace EventQueue

variable {q : EventQueue} {event : Event}

theorem inner_enqueue : (q.enqueue event).inner.Sublist (q.inner ++ [event]) := by
  unfold enqueue
  split
  next => exact List.Sublist.refl _
  next =>
    split
    next => exact (List.tail_sublist _).append_right _
    next => exact List.sublist_append_left _ _

theorem inner_push : (q.push event).inner.Sublist (q.inner ++ [event]) := by
  unfold push
  split
  next =>
    split
    next => exact inner_enqueue.trans ((List.nil_sublist _).append_right _)
    next => exact inner_enqueue
  next => exact List.sublist_append_left _ _

theorem push_of_room (q : EventQueue) (bounded : event.payload.isBounded = true) (alone : q.coalesces event = false)
    (room : q.inner.length < q.capacity) :
    (q.push event).inner = q.inner ++ [event] ∧ (q.push event).capacity = q.capacity := by
  unfold push enqueue
  rw [if_pos bounded, alone, if_neg Bool.false_ne_true, dif_pos room]
  exact ⟨rfl, rfl⟩

end EventQueue

namespace EventPipeline

variable {p : EventPipeline} {key : SubscriptionKey} {event : Event} {plugin : Text} {f : EventQueue → EventQueue}

structure Bounded (p : EventPipeline) : Prop where
  pluginEvents : ∀ plugin, p.queuedEventsForPlugin plugin ≤ PER_PLUGIN_QUEUED_EVENT_LIMIT
  pluginBytes : ∀ plugin, p.queuedBytesForPlugin plugin ≤ PER_PLUGIN_QUEUED_BYTES_LIMIT
  events : p.totalQueuedEvents ≤ GLOBAL_QUEUED_EVENT_LIMIT
  bytes : p.totalQueuedBytes ≤ GLOBAL_QUEUED_BYTES_LIMIT

theorem total_modify_le (selected : SubscriptionKey → Bool) (w : EventQueue → Nat) {more : Nat}
    (grows : ∀ q, p.get key = some q → w (f q) ≤ w q + more) :
    Keyed.total selected w (p.modify key f).queues ≤ Keyed.total selected w p.queues + if selected key then more else 0 := by
  change Keyed.total selected w (Keyed.modify key f p.queues) ≤ _
  cases found : p.get key with
  | none =>
    rw [Keyed.modify_of_absent f found]
    exact Nat.le_add_right _ _
  | some q =>
    have change := Keyed.total_modify selected w f p.once found
    have weight := grows q found
    split at change
    next here =>
      rw [if_pos here]
      omega
    next here =>
      rw [if_neg here]
      omega

def Grows (p : EventPipeline) (key : SubscriptionKey) (f : EventQueue → EventQueue) (new : List Event) : Prop :=
  ∀ q, p.get key = some q → (f q).inner.Sublist (q.inner ++ new)

theorem events_modify_le (selected : SubscriptionKey → Bool) {new : List Event} (grows : p.Grows key f new) :
    (p.modify key f).eventsIn selected ≤ p.eventsIn selected + if selected key then new.length else 0 := by
  refine total_modify_le selected _ fun q found => ?_
  have length := (grows q found).length_le
  rwa [List.length_append] at length

theorem bytes_modify_le (selected : SubscriptionKey → Bool) {new : List Event} (grows : p.Grows key f new) :
    (p.modify key f).bytesIn selected ≤ p.bytesIn selected + if selected key then Event.bytesOf new else 0 := by
  refine total_modify_le selected _ fun q found => ?_
  have bytes := Event.bytesOf_sublist (grows q found)
  rwa [Event.bytesOf_append] at bytes

theorem Bounded.of_le {p' : EventPipeline} (bounded : p.Bounded) (events : ∀ selected, p'.eventsIn selected ≤ p.eventsIn selected)
    (bytes : ∀ selected, p'.bytesIn selected ≤ p.bytesIn selected) : p'.Bounded :=
  ⟨fun plugin => Nat.le_trans (events _) (bounded.pluginEvents plugin),
    fun plugin => Nat.le_trans (bytes _) (bounded.pluginBytes plugin), Nat.le_trans (events _) bounded.events,
    Nat.le_trans (bytes _) bounded.bytes⟩

theorem Bounded.shrink (bounded : p.Bounded) (grows : p.Grows key f []) : (p.modify key f).Bounded := by
  have events (selected : SubscriptionKey → Bool) : (p.modify key f).eventsIn selected ≤ p.eventsIn selected := by
    simpa using events_modify_le selected grows
  have bytes (selected : SubscriptionKey → Bool) : (p.modify key f).bytesIn selected ≤ p.bytesIn selected := by
    simpa [Event.bytesOf] using bytes_modify_le selected grows
  exact bounded.of_le events bytes

theorem not_exceeds : p.exceeds plugin event = false ↔
    (p.queuedEventsForPlugin plugin + 1 ≤ PER_PLUGIN_QUEUED_EVENT_LIMIT ∧
      p.queuedBytesForPlugin plugin + event.bytes ≤ PER_PLUGIN_QUEUED_BYTES_LIMIT) ∧
      p.totalQueuedEvents + 1 ≤ GLOBAL_QUEUED_EVENT_LIMIT ∧
        p.totalQueuedBytes + event.bytes ≤ GLOBAL_QUEUED_BYTES_LIMIT := by
  simp [exceeds, wouldExceedPluginLimits, wouldExceedGlobalLimits]

theorem Bounded.grow (bounded : p.Bounded) (grows : p.Grows key f [event]) (fits : p.exceeds key.plugin event = false) :
    (p.modify key f).Bounded := by
  obtain ⟨⟨pluginEvents, pluginBytes⟩, events, bytes⟩ := not_exceeds.mp fits
  have size : Event.bytesOf [event] = event.bytes := by simp [Event.bytesOf]
  have moreEvents (selected : SubscriptionKey → Bool) := events_modify_le selected grows
  have moreBytes (selected : SubscriptionKey → Bool) := bytes_modify_le selected grows
  refine ⟨fun plugin => ?_, fun plugin => ?_, ?_, ?_⟩
  · refine Nat.le_trans (moreEvents _) ?_
    by_cases here : key.plugin = plugin
    · subst here
      simpa [queuedEventsForPlugin] using pluginEvents
    · simpa [here, queuedEventsForPlugin] using bounded.pluginEvents plugin
  · refine Nat.le_trans (moreBytes _) ?_
    rw [size]
    by_cases here : key.plugin = plugin
    · subst here
      simpa [queuedBytesForPlugin] using pluginBytes
    · simpa [here, queuedBytesForPlugin] using bounded.pluginBytes plugin
  · exact Nat.le_trans (moreEvents _) (by simpa [totalQueuedEvents] using events)
  · refine Nat.le_trans (moreBytes _) ?_
    rw [size]
    simpa [totalQueuedBytes] using bytes

theorem grows_popFront : p.Grows key EventQueue.popFront [] := by
  intro q _
  rw [List.append_nil]
  exact List.tail_sublist _

theorem Bounded.evictOldest (bounded : p.Bounded) (selected : SubscriptionKey → Bool) : (p.evictOldest selected).Bounded := by
  unfold EventPipeline.evictOldest
  split
  next => exact bounded.shrink grows_popFront
  next => exact bounded

theorem evictUntil_keeps (Keeps : EventPipeline → Prop) (evict : ∀ p selected, Keeps p → Keeps (p.evictOldest selected))
    (attempts : Nat) (kept : Keeps p) : Keeps (evictUntil plugin event attempts p) := by
  induction attempts generalizing p with
  | zero => exact kept
  | succ attempts ih =>
    have next : Keeps (if p.wouldExceedGlobalLimits event then p.evictOldestGlobally else p.evictOldestForPlugin plugin) := by
      split
      next => exact evict p _ kept
      next => exact evict p _ kept
    unfold evictUntil
    by_cases surplus : p.exceeds plugin event = true
    · rw [if_pos surplus]
      generalize (if p.wouldExceedGlobalLimits event then p.evictOldestGlobally else p.evictOldestForPlugin plugin) = p'
        at next
      dsimp only
      split
      next => exact next
      next => exact ih next
    · rw [if_neg surplus]
      exact kept

theorem makeRoom_keeps (Keeps : EventPipeline → Prop) (evict : ∀ p selected, Keeps p → Keeps (p.evictOldest selected))
    (kept : Keeps p) : Keeps (p.makeRoom plugin event) := by
  unfold makeRoom
  split
  next => exact evictUntil_keeps Keeps evict 4 kept
  next => exact kept

theorem Bounded.makeRoom (bounded : p.Bounded) : (p.makeRoom plugin event).Bounded :=
  makeRoom_keeps Bounded (fun _ selected kept => kept.evictOldest selected) bounded

theorem Bounded.admitEvent (bounded : p.Bounded) : (p.admitEvent key event).Bounded := by
  unfold EventPipeline.admitEvent
  split
  next => exact bounded.shrink fun q _ => (List.append_nil q.inner).symm ▸ List.Sublist.refl _
  next fits => exact bounded.grow (fun q _ => EventQueue.inner_push) (Bool.eq_false_iff.mpr fits)

theorem Bounded.offer (bounded : p.Bounded) : (offer event p key).Bounded := bounded.makeRoom.admitEvent

theorem Bounded.publish (bounded : p.Bounded) : (p.publish event).Bounded := by
  unfold EventPipeline.publish
  generalize p.targets event.kind = keys
  induction keys generalizing p with
  | nil => exact bounded
  | cons key rest ih => exact ih bounded.offer

theorem Bounded.subscribe (bounded : p.Bounded) (plugin : Text) (kind : EventKind) : (p.subscribe plugin kind).2.Bounded := by
  unfold EventPipeline.subscribe
  split
  next fresh =>
    have inserted := List.perm_orderedInsert (fun a b : SubscriptionKey × EventQueue => a.1.le b.1)
      (⟨plugin, kind⟩, EventQueue.new p.defaultCapacity p.dropPolicy p.positive) p.queues
    refine bounded.of_le (fun selected => ?_) fun selected => ?_
    · refine Nat.le_of_eq ((Keyed.total_perm selected _ inserted).trans ?_)
      rw [Keyed.total_cons]
      simp [EventQueue.new, eventsIn]
    · refine Nat.le_of_eq ((Keyed.total_perm selected _ inserted).trans ?_)
      rw [Keyed.total_cons]
      simp [EventQueue.new, EventQueue.queuedBytes, bytesIn]
  next => exact bounded

theorem Bounded.unsubscribe (bounded : p.Bounded) (plugin : Text) (kind : EventKind) :
    (p.unsubscribe plugin kind).2.Bounded := by
  unfold EventPipeline.unsubscribe
  split
  next => exact bounded
  next =>
    exact bounded.of_le (fun selected => Keyed.total_le_of_sublist selected _ List.filter_sublist)
      fun selected => Keyed.total_le_of_sublist selected _ List.filter_sublist

theorem Bounded.publishTo (bounded : p.Bounded) (plugin : Text) (event : Event) : (p.publishTo plugin event).2.Bounded := by
  unfold EventPipeline.publishTo
  dsimp only
  split
  next => exact bounded.makeRoom
  next => exact bounded.makeRoom.admitEvent

def Taking (taking : EventQueue → List Event × EventQueue) : Prop := ∀ q, (taking q).1 ++ (taking q).2.inner = q.inner

theorem taking_drain : Taking EventQueue.drain := fun q => List.append_nil q.inner

theorem taking_drainBatch (maxEvents maxBytes : Nat) : Taking (·.drainBatch maxEvents maxBytes) :=
  fun q => List.take_append_drop _ q.inner

theorem Bounded.take {taking : EventQueue → List Event × EventQueue} (bounded : p.Bounded) (rest : Taking taking)
    (plugin : Text) (kind : EventKind) : (p.take taking plugin kind).2.Bounded := by
  unfold EventPipeline.take
  split
  next => exact bounded
  next =>
    refine bounded.shrink fun q _ => ?_
    rw [List.append_nil, ← rest q]
    exact List.sublist_append_right _ _

theorem Bounded.perform (bounded : p.Bounded) (op : PipelineOp) : (p.perform op).2.Bounded := by
  cases op with
  | subscribe plugin kind => exact bounded.subscribe plugin kind
  | unsubscribe plugin kind => exact bounded.unsubscribe plugin kind
  | publish event => exact bounded.publish
  | publishTo plugin event => exact bounded.publishTo plugin event
  | drain plugin kind => exact bounded.take taking_drain plugin kind
  | drainBatch plugin kind maxEvents maxBytes => exact bounded.take (taking_drainBatch maxEvents maxBytes) plugin kind

theorem bounded_new (capacity : Nat) (dropPolicy : DropPolicy) (positive : 0 < capacity) :
    (new capacity dropPolicy positive).Bounded :=
  ⟨fun _ => Nat.zero_le _, fun _ => Nat.zero_le _, Nat.zero_le _, Nat.zero_le _⟩

end EventPipeline

end Bitty.Plugin

namespace Bitty.Plugin

/-- What became of the copies of events that were offered to a queue since its subscription. -/
structure Account where
  offered : List Event
  drained : List Event
  coalesced : Nat

def Account.opened : Account := ⟨[], [], 0⟩

structure Account.Covers (a : Account) (q : EventQueue) : Prop where
  order : (a.drained ++ q.inner).Sublist a.offered
  balance : ∃ lost, a.offered.length = a.drained.length + q.inner.length + a.coalesced + lost ∧
    q.dropped = lost % 2 ^ 64

namespace EventQueue

variable {q : EventQueue} {event : Event}

def coalescing (q : EventQueue) (event : Event) : Nat :=
  if event.payload.isBounded && q.coalesces event then q.inner.length else 0

theorem wrappingSucc_mod (n : Nat) : wrappingSucc (n % 2 ^ 64) = (n + 1) % 2 ^ 64 := by
  rw [wrappingSucc, Nat.mod_add_mod]

end EventQueue

namespace Account

variable {a : Account} {q : EventQueue} {event : Event}

theorem covers_opened (capacity : Nat) (dropPolicy : DropPolicy) (positive : 0 < capacity) :
    opened.Covers (.new capacity dropPolicy positive) :=
  ⟨List.Sublist.refl _, 0, rfl, rfl⟩

theorem Covers.popFront (covers : a.Covers q) (nonempty : q.inner ≠ []) : a.Covers q.popFront := by
  obtain ⟨lost, total, dropped⟩ := covers.balance
  refine ⟨((List.tail_sublist _).append_left _).trans covers.order, lost + 1, ?_, ?_⟩
  · have some := List.length_pos_of_ne_nil nonempty
    change a.offered.length = a.drained.length + q.inner.tail.length + a.coalesced + (lost + 1)
    rw [List.length_tail]
    omega
  · change wrappingSucc q.dropped = _
    rw [dropped, EventQueue.wrappingSucc_mod]

theorem Covers.drop (covers : a.Covers q) (event : Event) : ({ a with offered := a.offered ++ [event] } : Account).Covers q.drop := by
  obtain ⟨lost, total, dropped⟩ := covers.balance
  refine ⟨covers.order.trans (List.sublist_append_left _ _), lost + 1, ?_, ?_⟩
  · change (a.offered ++ [event]).length = a.drained.length + q.inner.length + a.coalesced + (lost + 1)
    rw [List.length_append, List.length_singleton]
    omega
  · change wrappingSucc q.dropped = _
    rw [dropped, EventQueue.wrappingSucc_mod]

theorem Covers.enqueue (covers : a.Covers q) (event : Event) :
    ({ a with offered := a.offered ++ [event] } : Account).Covers (q.enqueue event) := by
  obtain ⟨lost, total, dropped⟩ := covers.balance
  unfold EventQueue.enqueue
  by_cases room : q.inner.length < q.capacity
  · rw [dif_pos room]
    refine ⟨?_, lost, ?_, dropped⟩
    · change (a.drained ++ (q.inner ++ [event])).Sublist (a.offered ++ [event])
      rw [← List.append_assoc]
      exact covers.order.append_right _
    · change (a.offered ++ [event]).length = a.drained.length + (q.inner ++ [event]).length + a.coalesced + lost
      rw [List.length_append, List.length_append, List.length_singleton]
      omega
  · rw [dif_neg room]
    cases q.dropPolicy with
    | dropNewest => exact covers.drop event
    | dropOldest =>
      have positive := q.positive
      refine ⟨?_, lost + 1, ?_, ?_⟩
      · change (a.drained ++ (q.inner.tail ++ [event])).Sublist (a.offered ++ [event])
        rw [← List.append_assoc]
        exact (((List.tail_sublist _).append_left _).trans covers.order).append_right _
      · change (a.offered ++ [event]).length =
          a.drained.length + (q.inner.tail ++ [event]).length + a.coalesced + (lost + 1)
        rw [List.length_append, List.length_append, List.length_tail, List.length_singleton]
        omega
      · change wrappingSucc q.dropped = _
        rw [dropped, EventQueue.wrappingSucc_mod]

theorem Covers.cleared (covers : a.Covers q) :
    ({ a with coalesced := a.coalesced + q.inner.length } : Account).Covers q.cleared := by
  obtain ⟨lost, total, dropped⟩ := covers.balance
  refine ⟨?_, lost, ?_, dropped⟩
  · change (a.drained ++ []).Sublist a.offered
    exact ((List.nil_sublist _).append_left _).trans covers.order
  · change a.offered.length = a.drained.length + 0 + (a.coalesced + q.inner.length) + lost
    omega

theorem Covers.push (covers : a.Covers q) (event : Event) :
    ({ a with offered := a.offered ++ [event], coalesced := a.coalesced + q.coalescing event } : Account).Covers
      (q.push event) := by
  unfold EventQueue.push EventQueue.coalescing
  by_cases bounded : event.payload.isBounded = true
  · by_cases replaces : q.coalesces event = true
    · simp only [bounded, replaces, Bool.and_self, if_true]
      exact covers.cleared.enqueue event
    · simp only [bounded, replaces, Bool.true_and, if_true, if_false, Nat.add_zero, Bool.false_eq_true]
      exact covers.enqueue event
  · simp only [bounded, Bool.false_and, if_false, Nat.add_zero, Bool.false_eq_true]
    exact covers.drop event

theorem Covers.take {taking : EventQueue → List Event × EventQueue} (covers : a.Covers q)
    (rest : (taking q).1 ++ (taking q).2.inner = q.inner) (same : (taking q).2.dropped = q.dropped) :
    ({ a with drained := a.drained ++ (taking q).1 } : Account).Covers (taking q).2 := by
  obtain ⟨lost, total, dropped⟩ := covers.balance
  refine ⟨?_, lost, ?_, same.trans dropped⟩
  · change (a.drained ++ (taking q).1 ++ (taking q).2.inner).Sublist a.offered
    rw [List.append_assoc, rest]
    exact covers.order
  · have split := congrArg List.length rest
    rw [List.length_append] at split
    change a.offered.length = (a.drained ++ (taking q).1).length + (taking q).2.inner.length + a.coalesced + lost
    rw [List.length_append]
    omega

end Account

end Bitty.Plugin
