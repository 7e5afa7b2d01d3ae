import Bitty.Plugin.Event.Run

namespace Bitty.Plugin.EventPipeline

variable {p : EventPipeline} {selected : SubscriptionKey → Bool} {event : Event} {plugin : Text}

def Holds (p : EventPipeline) (selected : SubscriptionKey → Bool) : Prop :=
  ∃ e ∈ p.queues, selected e.1 = true ∧ e.2.inner ≠ []

theorem oldest_of_best (queues : Queues) (best : SubscriptionKey × Nat) : oldest selected queues (some best) ≠ none := by
  intro absent
  rcases oldest_cases selected queues (some best) with same | ⟨_, _, _, _, n, same⟩
  · rw [absent] at same
    cases same
  · rw [absent] at same
    cases same

theorem oldest_of_mem {queues : Queues} {e : SubscriptionKey × EventQueue} (member : e ∈ queues) (here : selected e.1 = true)
    (nonempty : e.2.inner ≠ []) (best : Option (SubscriptionKey × Nat)) : oldest selected queues best ≠ none := by
  induction queues generalizing best with
  | nil => cases member
  | cons first rest ih =>
    rcases List.mem_cons.mp member with rfl | later
    · obtain ⟨front, tail, inner⟩ := List.exists_cons_of_ne_nil nonempty
      unfold oldest
      rw [here, inner, List.head?_cons]
      dsimp only
      cases best with
      | none => exact oldest_of_best rest _
      | some lowest =>
        dsimp only
        split
        next => exact oldest_of_best rest _
        next => exact oldest_of_best rest _
    · unfold oldest
      split
      next =>
        split
        next => exact ih later _
        next => exact ih later _
      next => exact ih later _

theorem evictOldest_le (p : EventPipeline) (selected : SubscriptionKey → Bool) :
    (p.evictOldest selected).totalQueuedEvents ≤ p.totalQueuedEvents := by
  rcases p.evictOldest_cases selected with ⟨-, same⟩ | ⟨key, q, -, -, -, same⟩
  · rw [same]
  · rw [same]
    simpa [totalQueuedEvents] using events_modify_le (fun _ => true) (grows_popFront : p.Grows key EventQueue.popFront [])

theorem Holds.evictOldest (holds : p.Holds selected) : (p.evictOldest selected).totalQueuedEvents < p.totalQueuedEvents := by
  rcases p.evictOldest_cases selected with ⟨absent, -⟩ | ⟨key, q, found, -, nonempty, same⟩
  · obtain ⟨e, member, here, nonempty⟩ := holds
    exact absurd absent (oldest_of_mem member here nonempty none)
  · have balance := Keyed.total_modify (fun _ => true) (fun q : EventQueue => q.inner.length) EventQueue.popFront p.once found
    have length := List.length_pos_of_ne_nil nonempty
    have shorter : q.popFront.inner.length = q.inner.length - 1 := List.length_tail
    rw [same]
    simp only [if_true] at balance
    change Keyed.total (fun _ => true) (fun q : EventQueue => q.inner.length) (Keyed.modify key EventQueue.popFront p.queues) <
      Keyed.total (fun _ => true) (fun q : EventQueue => q.inner.length) p.queues
    omega

theorem evictUntil_le (attempts : Nat) : (evictUntil plugin event attempts p).totalQueuedEvents ≤ p.totalQueuedEvents :=
  evictUntil_keeps (fun p' => p'.totalQueuedEvents ≤ p.totalQueuedEvents)
    (fun p' selected le => (evictOldest_le p' selected).trans le) attempts le_rfl

theorem holds_of_bytes (some : 0 < p.bytesIn selected) : p.Holds selected := by
  obtain ⟨e, member, here, positive⟩ := Keyed.exists_pos_of_total_pos some
  refine ⟨e, member, here, fun empty => ?_⟩
  rw [EventQueue.queuedBytes, empty] at positive
  exact Nat.lt_irrefl 0 positive

theorem holds_of_events (some : 0 < p.eventsIn selected) : p.Holds selected := by
  obtain ⟨e, member, here, positive⟩ := Keyed.exists_pos_of_total_pos some
  exact ⟨e, member, here, List.ne_nil_of_length_pos positive⟩

theorem holds_of_exceeds_plugin (surplus : p.wouldExceedPluginLimits plugin event = true) : p.Holds (·.plugin = plugin) := by
  have size := event.payload.bytes_le
  simp only [wouldExceedPluginLimits, Bool.or_eq_true, decide_eq_true_eq] at surplus
  rcases surplus with events | bytes
  · refine holds_of_events ?_
    change 0 < p.queuedEventsForPlugin plugin
    unfold PER_PLUGIN_QUEUED_EVENT_LIMIT at events
    omega
  · refine holds_of_bytes ?_
    change 0 < p.queuedBytesForPlugin plugin
    unfold PER_PLUGIN_QUEUED_BYTES_LIMIT Event.bytes at bytes
    unfold EVENT_MAX_BYTES at size
    omega

theorem holds_of_exceeds_global (surplus : p.wouldExceedGlobalLimits event = true) : p.Holds fun _ => true := by
  have size := event.payload.bytes_le
  simp only [wouldExceedGlobalLimits, Bool.or_eq_true, decide_eq_true_eq] at surplus
  rcases surplus with events | bytes
  · refine holds_of_events ?_
    change 0 < p.totalQueuedEvents
    unfold GLOBAL_QUEUED_EVENT_LIMIT at events
    omega
  · refine holds_of_bytes ?_
    change 0 < p.totalQueuedBytes
    unfold GLOBAL_QUEUED_BYTES_LIMIT Event.bytes at bytes
    unfold EVENT_MAX_BYTES at size
    omega

theorem evictUntil_lt (surplus : p.exceeds plugin event = true) (attempts : Nat) :
    (evictUntil plugin event (attempts + 1) p).totalQueuedEvents < p.totalQueuedEvents := by
  have first : (if p.wouldExceedGlobalLimits event then p.evictOldestGlobally else p.evictOldestForPlugin plugin).totalQueuedEvents
      < p.totalQueuedEvents := by
    split
    next global => exact (holds_of_exceeds_global global).evictOldest
    next within =>
      have some : p.wouldExceedPluginLimits plugin event = true := by
        simpa [exceeds, within] using surplus
      exact (holds_of_exceeds_plugin some).evictOldest
  unfold evictUntil
  rw [if_pos surplus]
  dsimp only
  generalize (if p.wouldExceedGlobalLimits event then p.evictOldestGlobally else p.evictOldestForPlugin plugin) = p' at first
  split
  next => exact first
  next => exact (evictUntil_le attempts).trans_lt first

/-- A publication to a plugin without the subscription finds room for its event. -/
def Careful (p : EventPipeline) : PipelineOp → Prop
  | .publishTo plugin event =>
    p.get ⟨plugin, event.kind⟩ = none → p.dropPolicy = .dropOldest → p.exceeds plugin event = false
  | _ => True

theorem makeRoom_eq_self : p.makeRoom plugin event = p ↔ (p.dropPolicy = .dropOldest → p.exceeds plugin event = false) := by
  unfold makeRoom
  constructor
  · intro same oldest
    by_contra surplus
    have surplus := Bool.eq_true_of_not_eq_false surplus
    rw [if_pos ⟨surplus, oldest⟩] at same
    have fewer := evictUntil_lt surplus 3
    rw [same] at fewer
    exact Nat.lt_irrefl _ fewer
  · intro fits
    refine if_neg fun both => ?_
    rw [fits both.2] at both
    exact Bool.false_ne_true both.1

theorem perform_error {e : PluginError} {op : PipelineOp} (refused : (p.perform op).1 = .error e) :
    (p.perform op).2 = p ↔ p.Careful op := by
  cases op with
  | subscribe plugin kind =>
    refine iff_of_true ?_ trivial
    simp only [perform, answered, EventPipeline.subscribe] at refused ⊢
    split
    next fresh =>
      rw [dif_pos fresh] at refused
      cases refused
    next => rfl
  | unsubscribe plugin kind =>
    refine iff_of_true ?_ trivial
    simp only [perform, answered, EventPipeline.unsubscribe] at refused ⊢
    split
    next => rfl
    next found =>
      rw [found] at refused
      cases refused
  | publish event => cases refused
  | publishTo plugin event =>
    simp only [perform, answered, EventPipeline.publishTo] at refused ⊢
    cases found : (p.makeRoom plugin event).get ⟨plugin, event.kind⟩ with
    | none =>
      have absent := (get_makeRoom_none _).mp found
      refine makeRoom_eq_self.trans ⟨fun fits _ => fits, fun careful => careful absent⟩
    | some q =>
      rw [found] at refused
      cases refused
  | drain plugin kind =>
    refine iff_of_true ?_ trivial
    simp only [perform, EventPipeline.drain, EventPipeline.take] at refused ⊢
    split
    next => rfl
    next found =>
      rw [found] at refused
      cases refused
  | drainBatch plugin kind maxEvents maxBytes =>
    refine iff_of_true ?_ trivial
    simp only [perform, EventPipeline.drainBatch, EventPipeline.take] at refused ⊢
    split
    next => rfl
    next found =>
      rw [found] at refused
      cases refused

/-- After every run the limits hold and every live queue is accounted for, until its counter of drops wraps around; what
a refused operation leaves as it was is everything, just when the operation is careful. -/
theorem pipeline_sound (capacity : Nat) (dropPolicy : DropPolicy) (positive : 0 < capacity) (ops : List PipelineOp) :
    let s := run capacity dropPolicy positive ops
    s.1.Bounded ∧
      (∀ key q, s.1.get key = some q → q.inner.length ≤ q.capacity ∧
        ((s.2 key).drained ++ q.inner).Sublist (s.2 key).offered ∧
        ((s.2 key).offered.length < 2 ^ 64 →
          (s.2 key).offered.length = (s.2 key).drained.length + q.inner.length + (s.2 key).coalesced + q.dropped)) ∧
      ∀ op e, (s.1.perform op).1 = .error e → ((s.1.perform op).2 = s.1 ↔ s.1.Careful op) := by
  intro s
  obtain ⟨bounded, accounted⟩ := run_keeps capacity dropPolicy positive ops
  refine ⟨bounded, fun key q found => ?_, fun op e refused => perform_error refused⟩
  have covers := accounted key q found
  refine ⟨q.within, covers.order, fun few => ?_⟩
  obtain ⟨lost, total, dropped⟩ := covers.balance
  have below : lost < 2 ^ 64 := by
    change (s.2 key).offered.length = _ at total
    omega
  rw [dropped, Nat.mod_eq_of_lt below]
  exact total

section

/-- The one queue holds so many bells and nothing else. -/
def Ringing (n : Nat) (p : EventPipeline) : Prop :=
  p.dropPolicy = .dropOldest ∧ ∃ q, p.queues = [(⟨"a".toList, .terminalBell⟩, q)] ∧
    q.inner = List.replicate n ⟨.terminalBell, .empty, 0⟩ ∧ q.capacity = PER_PLUGIN_QUEUED_EVENT_LIMIT

theorem Ringing.queued {n : Nat} (ringing : Ringing n p) : p.queuedEventsForPlugin "a".toList = n ∧
    p.queuedBytesForPlugin "a".toList = 0 ∧ p.totalQueuedEvents = n ∧ p.totalQueuedBytes = 0 := by
  obtain ⟨-, q, queues, inner, -⟩ := ringing
  simp [queuedEventsForPlugin, queuedBytesForPlugin, totalQueuedEvents, totalQueuedBytes, eventsIn, bytesIn, queues, Keyed.total,
    EventQueue.queuedBytes, inner, Event.bytes, EventPayload.bytes]

theorem Ringing.publishTo {n : Nat} (ringing : Ringing n p) (few : n < PER_PLUGIN_QUEUED_EVENT_LIMIT) :
    Ringing (n + 1) (p.perform (.publishTo "a".toList ⟨.terminalBell, .empty, 0⟩)).2 := by
  obtain ⟨pluginEvents, pluginBytes, events, bytes⟩ := ringing.queued
  obtain ⟨oldest, q, queues, inner, capacity⟩ := ringing
  have fits : p.exceeds "a".toList ⟨.terminalBell, .empty, 0⟩ = false := by
    rw [not_exceeds, pluginEvents, pluginBytes, events, bytes]
    refine ⟨⟨few, Nat.zero_le _⟩, ?_, Nat.zero_le _⟩
    unfold PER_PLUGIN_QUEUED_EVENT_LIMIT at few
    unfold GLOBAL_QUEUED_EVENT_LIMIT
    omega
  have roomy : p.makeRoom "a".toList ⟨.terminalBell, .empty, 0⟩ = p := makeRoom_eq_self.mpr fun _ => fits
  have found : p.get ⟨"a".toList, .terminalBell⟩ = some q := by
    unfold EventPipeline.get
    rw [queues, Keyed.find_cons, if_pos rfl]
  have room : q.inner.length < q.capacity := by
    rw [inner, List.length_replicate, capacity]
    exact few
  have pushed : (q.push ⟨.terminalBell, .empty, 0⟩).inner = q.inner ++ [⟨.terminalBell, .empty, 0⟩] ∧
      (q.push ⟨.terminalBell, .empty, 0⟩).capacity = q.capacity := q.push_of_room (by decide) rfl room
  have queues' : (p.perform (.publishTo "a".toList ⟨.terminalBell, .empty, 0⟩)).2 =
      p.modify ⟨"a".toList, .terminalBell⟩ (·.push ⟨.terminalBell, .empty, 0⟩) := by
    simp only [perform, answered, EventPipeline.publishTo, roomy, found, admitEvent, fits]
    rfl
  rw [queues']
  refine ⟨oldest, q.push ⟨.terminalBell, .empty, 0⟩, ?_, ?_, pushed.2.trans capacity⟩
  · change Keyed.modify (⟨"a".toList, .terminalBell⟩ : SubscriptionKey) (·.push ⟨.terminalBell, .empty, 0⟩) p.queues = _
    rw [queues]
    simp [Keyed.modify]
  · rw [pushed.1, List.replicate_succ', ← inner]

def bells (n : Nat) : List PipelineOp :=
  .subscribe "a".toList .terminalBell :: List.replicate n (.publishTo "a".toList ⟨.terminalBell, .empty, 0⟩)

theorem ringing_bells {n : Nat} (few : n ≤ PER_PLUGIN_QUEUED_EVENT_LIMIT) :
    Ringing n (run PER_PLUGIN_QUEUED_EVENT_LIMIT .dropOldest (by decide) (bells n)).1 := by
  induction n with
  | zero => exact ⟨rfl, _, rfl, rfl, rfl⟩
  | succ n ih =>
    have before := ih (Nat.le_of_succ_le few)
    unfold run bells at before ⊢
    rw [List.replicate_succ', ← List.cons_append, List.foldl_append]
    exact before.publishTo few

theorem Ringing.refused (ringing : Ringing PER_PLUGIN_QUEUED_EVENT_LIMIT p) :
    (p.perform (.publishTo "a".toList ⟨.focusChanged, .empty, 1⟩)).1 = .error (notSubscribed "a".toList .focusChanged) ∧
      (p.perform (.publishTo "a".toList ⟨.focusChanged, .empty, 1⟩)).2 ≠ p := by
  obtain ⟨pluginEvents, -, -, -⟩ := ringing.queued
  have absent : p.get ⟨"a".toList, .focusChanged⟩ = none := by
    obtain ⟨-, q, queues, -⟩ := ringing
    unfold EventPipeline.get
    rw [queues, Keyed.find_cons, if_neg nofun]
    rfl
  have refused : (p.perform (.publishTo "a".toList ⟨.focusChanged, .empty, 1⟩)).1 =
      .error (notSubscribed "a".toList .focusChanged) := by
    simp only [perform, answered, EventPipeline.publishTo, (get_makeRoom_none _).mpr absent]
    rfl
  refine ⟨refused, fun same => ?_⟩
  have fits := (perform_error refused).mp same absent ringing.1
  have room := (not_exceeds.mp fits).1.1
  rw [pluginEvents] at room
  exact Nat.lt_irrefl _ room

/-- A refused publication after a run that reached the limit of the plugin changes the pipeline. -/
theorem pipeline_unsound :
    ((run PER_PLUGIN_QUEUED_EVENT_LIMIT .dropOldest (by decide) (bells PER_PLUGIN_QUEUED_EVENT_LIMIT)).1.perform
        (.publishTo "a".toList ⟨.focusChanged, .empty, 1⟩)).1 = .error (notSubscribed "a".toList .focusChanged) ∧
      ((run PER_PLUGIN_QUEUED_EVENT_LIMIT .dropOldest (by decide) (bells PER_PLUGIN_QUEUED_EVENT_LIMIT)).1.perform
        (.publishTo "a".toList ⟨.focusChanged, .empty, 1⟩)).2 ≠
          (run PER_PLUGIN_QUEUED_EVENT_LIMIT .dropOldest (by decide) (bells PER_PLUGIN_QUEUED_EVENT_LIMIT)).1 :=
  (ringing_bells le_rfl).refused

theorem pipeline_sound_bells : 0 < PER_PLUGIN_QUEUED_EVENT_LIMIT ∧
    (run PER_PLUGIN_QUEUED_EVENT_LIMIT .dropOldest (by decide) (bells 1)).1.Bounded :=
  ⟨by decide, (pipeline_sound PER_PLUGIN_QUEUED_EVENT_LIMIT .dropOldest (by decide) (bells 1)).1⟩

end

end Bitty.Plugin.EventPipeline
