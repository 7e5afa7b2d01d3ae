import Bitty.Library.Transducer
import Bitty.Plugin.Event.Failure

/-! What the drop policy of a pipeline promises where an arrival meets a limit. -/

namespace Bitty.Plugin

def EventQueue.collapse (event : Event) (q : EventQueue) : EventQueue := if q.coalesces event then q.cleared else q

namespace EventPipeline

variable {p p' : EventPipeline} {selected : SubscriptionKey → Bool} {room : EventPipeline → Bool} {key : SubscriptionKey}
  {event front : Event} {plugin : Text} {evicted : List (SubscriptionKey × Event)}

def OldestIn (selected : SubscriptionKey → Bool) (queues : Queues) (key : SubscriptionKey) (front : Event) : Prop :=
  ∃ before q after, queues = before ++ (key, q) :: after ∧ selected key = true ∧ q.inner.head? = some front ∧
    (∀ e ∈ before, selected e.1 = true → ∀ other ∈ e.2.inner.head?, front.sequence < other.sequence) ∧
    ∀ e ∈ after, selected e.1 = true → ∀ other ∈ e.2.inner.head?, front.sequence ≤ other.sequence

inductive MakesRoom (selected : SubscriptionKey → Bool) (room : EventPipeline → Bool) :
    List (SubscriptionKey × Event) → EventPipeline → EventPipeline → Prop
  | enough {p : EventPipeline} : room p = true → MakesRoom selected room [] p p
  | evict {p p' : EventPipeline} {key : SubscriptionKey} {front : Event} {evicted : List (SubscriptionKey × Event)} :
      room p = false → OldestIn selected p.queues key front →
      MakesRoom selected room evicted (p.modify key EventQueue.popFront) p' →
      MakesRoom selected room ((key, front) :: evicted) p p'

def held (p : EventPipeline) (key : SubscriptionKey) : Option (List Event) := (p.get key).map (·.inner)

def roomGlobally (key : SubscriptionKey) (event : Event) (p : EventPipeline) : Bool :=
  !(p.modify key (EventQueue.collapse event)).wouldExceedGlobalLimits event

def roomForPlugin (key : SubscriptionKey) (event : Event) (p : EventPipeline) : Bool :=
  !(p.modify key (EventQueue.collapse event)).wouldExceedPluginLimits key.plugin event

def roomInQueue (key : SubscriptionKey) (event : Event) (p : EventPipeline) : Bool :=
  (p.get key).all fun q => (q.collapse event).inner.length < q.capacity

/-- The arrival is the newest event of its queue, after what it does not replace; the other queues are as they were. -/
def Enqueued (key : SubscriptionKey) (event : Event) (p p' : EventPipeline) : Prop :=
  ∀ other, p'.held other = if key = other then (p.get other).map fun q => (q.collapse event).inner ++ [event] else p.held other

structure Honours (p : EventPipeline) (key : SubscriptionKey) (event : Event) (p' : EventPipeline) : Prop where
  dropOldest : p.dropPolicy = .dropOldest → ∃ first p₁ second p₂ third p₃,
    MakesRoom (fun _ => true) (roomGlobally key event) first p p₁ ∧
    MakesRoom (·.plugin = key.plugin) (roomForPlugin key event) second p₁ p₂ ∧
    MakesRoom (· = key) (roomInQueue key event) third p₂ p₃ ∧ Enqueued key event p₃ p'
  dropNewest : p.dropPolicy = .dropNewest → Enqueued key event p p' ∨
    p'.held = p.held ∧ (roomGlobally key event p && roomForPlugin key event p && roomInQueue key event p) = false
  newest : event.kind.isCoalescable = true → ∀ q, p.get key = some q → q.inner ≠ [] → p'.held key = some [event]

/-- An arrival at one queue finds room, or has nothing to replace there; no more than four of the oldest events have to leave for
it, and none of them is a copy of an arrival that replaces others. -/
structure Roomy (p : EventPipeline) (key : SubscriptionKey) (event : Event) : Prop where
  apart : p.exceeds key.plugin event = true → ∀ q, p.get key = some q → q.coalesces event = false
  few : p.dropPolicy = .dropOldest → ∃ first p₁ second p₂,
    MakesRoom (fun _ => true) (fun p => !p.wouldExceedGlobalLimits event) first p p₁ ∧
    MakesRoom (·.plugin = key.plugin) (fun p => !p.wouldExceedPluginLimits key.plugin event) second p₁ p₂ ∧
    (first ++ second).length ≤ 4 ∧ (event.kind.isCoalescable = true → ∀ e ∈ first ++ second, e.2 ≠ event)

def FindsRoom (event : Event) (p : EventPipeline) : Prop :=
  Stream.Each (fun before key => Roomy (before.foldl (offer event) p) key event) (p.targets event.kind)

/-- What the drop policy promises for a published event: for each copy when its turn comes, and that queues of a coalescable kind
that held something hold the newest value alone in the end. -/
structure Honoured (event : Event) (p : EventPipeline) : Prop where
  each : Stream.Each (fun before key =>
    Honours (before.foldl (offer event) p) key event ((before ++ [key]).foldl (offer event) p)) (p.targets event.kind)
  alone : event.kind.isCoalescable = true → ∀ key ∈ p.targets event.kind, ∀ q, p.get key = some q → q.inner ≠ [] →
    (p.publish event).held key = some [event]

theorem oldest_stays {queues : Queues} {best : SubscriptionKey × Nat}
    (above : ∀ e ∈ queues, selected e.1 = true → ∀ other ∈ e.2.inner.head?, best.2 ≤ other.sequence) :
    oldest selected queues (some best) = some best := by
  induction queues with
  | nil => rfl
  | cons e rest ih =>
    obtain ⟨key, q⟩ := e
    have later := ih fun e member => above e (List.mem_cons_of_mem _ member)
    unfold oldest
    cases here : selected key with
    | false => exact later
    | true =>
      cases first : q.inner.head? with
      | none => exact later
      | some front =>
        have low : ¬front.sequence < best.2 := Nat.not_lt.mpr (above _ List.mem_cons_self here front first)
        dsimp only
        rw [if_neg low]
        exact later

theorem oldest_eq {queues : Queues} (first : OldestIn selected queues key front) {best : Option (SubscriptionKey × Nat)}
    (above : ∀ b ∈ best, front.sequence < b.2) : oldest selected queues best = some (key, front.sequence) := by
  obtain ⟨before, q, after, rfl, here, head, higher, rest⟩ := first
  induction before generalizing best with
  | nil =>
    have later : oldest selected after (some (key, front.sequence)) = some (key, front.sequence) := oldest_stays rest
    rw [List.nil_append]
    unfold oldest
    rw [here, head]
    cases best with
    | none => exact later
    | some best =>
      dsimp only
      rw [if_pos (above best rfl)]
      exact later
  | cons e before ih =>
    obtain ⟨key', q'⟩ := e
    have higher' := fun e member => higher e (List.mem_cons_of_mem _ member)
    rw [List.cons_append]
    unfold oldest
    cases here' : selected key' with
    | false => exact ih above higher'
    | true =>
      cases head' : q'.inner.head? with
      | none => exact ih above higher'
      | some front' =>
        have higher₁ := higher _ List.mem_cons_self here' front' head'
        have again : oldest selected (before ++ (key, q) :: after) (some (key', front'.sequence)) = some (key, front.sequence) := by
          refine ih ?_ higher'
          rintro _ ⟨⟩
          exact higher₁
        dsimp only
        cases best with
        | none => exact again
        | some best =>
          dsimp only
          split
          next => exact again
          next => exact ih above higher'

theorem evictOldest_eq (first : OldestIn selected p.queues key front) :
    p.evictOldest selected = p.modify key EventQueue.popFront := by
  unfold evictOldest
  rw [oldest_eq first (by rintro _ ⟨⟩)]

theorem OldestIn.holds (first : OldestIn selected p.queues key front) : p.Holds selected := by
  obtain ⟨before, q, after, split, here, head, -⟩ := first
  refine ⟨(key, q), by simp [split], here, fun empty => ?_⟩
  rw [empty] at head
  cases head

theorem OldestIn.get (first : OldestIn selected p.queues key front) : ∃ q, p.get key = some q ∧ q.inner.head? = some front := by
  obtain ⟨before, q, after, split, -, head, -⟩ := first
  exact ⟨q, Keyed.find_of_mem p.once (by simp [split]), head⟩

theorem fits_of_shrink (plugin : Text) {f : EventQueue → EventQueue} (shrinks : p.Grows key f []) :
    (p.wouldExceedGlobalLimits event = false → (p.modify key f).wouldExceedGlobalLimits event = false) ∧
      (p.wouldExceedPluginLimits plugin event = false → (p.modify key f).wouldExceedPluginLimits plugin event = false) := by
  have events (selected : SubscriptionKey → Bool) : (p.modify key f).eventsIn selected ≤ p.eventsIn selected := by
    simpa using events_modify_le selected shrinks
  have bytes (selected : SubscriptionKey → Bool) : (p.modify key f).bytesIn selected ≤ p.bytesIn selected := by
    simpa [Event.bytesOf] using bytes_modify_le selected shrinks
  simp only [wouldExceedGlobalLimits, wouldExceedPluginLimits, Bool.or_eq_false_iff, decide_eq_false_iff_not, Nat.not_lt]
  constructor
  · rintro ⟨few, small⟩
    exact ⟨(Nat.add_le_add_right (events _) _).trans few, (Nat.add_le_add_right (bytes _) _).trans small⟩
  · rintro ⟨few, small⟩
    exact ⟨(Nat.add_le_add_right (events _) _).trans few, (Nat.add_le_add_right (bytes _) _).trans small⟩

theorem evictUntil_of_fits (fits : p.exceeds plugin event = false) (attempts : Nat) : evictUntil plugin event attempts p = p := by
  cases attempts with
  | zero => rfl
  | succ attempts =>
    unfold evictUntil
    rw [fits]
    exact if_neg Bool.false_ne_true

theorem evictUntil_succ (surplus : p.exceeds plugin event = true) (first : OldestIn selected p.queues key front)
    (level : (if p.wouldExceedGlobalLimits event then p.evictOldestGlobally else p.evictOldestForPlugin plugin) =
      p.evictOldest selected) (attempts : Nat) :
    evictUntil plugin event (attempts + 1) p = evictUntil plugin event attempts (p.modify key EventQueue.popFront) := by
  have fewer := first.holds.evictOldest
  rw [evictOldest_eq first] at level fewer
  conv_lhs => unfold evictUntil
  rw [if_pos surplus, level]
  exact if_neg fun both => Nat.ne_of_lt fewer both.1

theorem evictUntil_plugin
    (run : MakesRoom (·.plugin = plugin) (fun p => !p.wouldExceedPluginLimits plugin event) evicted p p')
    (globally : p.wouldExceedGlobalLimits event = false) {attempts : Nat} (few : evicted.length ≤ attempts) :
    evictUntil plugin event attempts p = p' ∧ p'.exceeds plugin event = false := by
  induction run generalizing attempts with
  | @enough p fits =>
    have fits : p.exceeds plugin event = false := by
      rw [exceeds, globally, Bool.or_false]
      exact (Bool.not_eq_true' _).mp fits
    exact ⟨evictUntil_of_fits fits attempts, fits⟩
  | @evict p p' key front evicted full first _ ih =>
    obtain ⟨attempts, rfl⟩ := Nat.exists_eq_add_of_lt (Nat.lt_of_lt_of_le (Nat.zero_lt_succ _) few)
    have surplus : p.exceeds plugin event = true := by
      rw [exceeds, (Bool.not_eq_false' _).mp full]
      rfl
    rw [Nat.zero_add, evictUntil_succ surplus first (if_neg (by rw [globally]; exact Bool.false_ne_true))]
    have fewer : (p.modify key EventQueue.popFront).wouldExceedGlobalLimits event = false :=
      (fits_of_shrink plugin grows_popFront).1 globally
    refine ih fewer ?_
    rw [List.length_cons] at few
    omega

theorem evictUntil_eq {p₁ p₂ : EventPipeline} {first second : List (SubscriptionKey × Event)}
    (globally : MakesRoom (fun _ => true) (fun p => !p.wouldExceedGlobalLimits event) first p p₁)
    (run : MakesRoom (·.plugin = plugin) (fun p => !p.wouldExceedPluginLimits plugin event) second p₁ p₂) {attempts : Nat}
    (few : (first ++ second).length ≤ attempts) :
    evictUntil plugin event attempts p = p₂ ∧ p₂.exceeds plugin event = false := by
  induction globally generalizing attempts with
  | enough fits => exact evictUntil_plugin run ((Bool.not_eq_true' _).mp fits) few
  | @evict p p' key front evicted full oldest _ ih =>
    obtain ⟨attempts, rfl⟩ := Nat.exists_eq_add_of_lt (Nat.lt_of_lt_of_le (Nat.zero_lt_succ _) few)
    have high : p.wouldExceedGlobalLimits event = true := (Bool.not_eq_false' _).mp full
    have surplus : p.exceeds plugin event = true := by rw [exceeds, high, Bool.or_true]
    rw [Nat.zero_add, evictUntil_succ surplus oldest (if_pos high)]
    refine ih run ?_
    rw [List.cons_append, List.length_cons] at few
    omega

namespace MakesRoom

theorem congr {room' : EventPipeline → Bool} (run : MakesRoom selected room evicted p p') (Keeps : EventPipeline → Prop)
    (evict : ∀ p key, Keeps p → Keeps (p.modify key EventQueue.popFront)) (same : ∀ p, Keeps p → room p = room' p)
    (kept : Keeps p) :
    MakesRoom selected room' evicted p p' ∧ Keeps p' := by
  induction run with
  | enough fits => exact ⟨.enough ((same _ kept).symm.trans fits), kept⟩
  | evict full oldest _ ih =>
    obtain ⟨later, kept'⟩ := ih (evict _ _ kept)
    exact ⟨.evict ((same _ kept).symm.trans full) oldest later, kept'⟩

theorem eq_nil (run : MakesRoom selected room evicted p p') (fits : room p = true) : evicted = [] ∧ p' = p := by
  cases run with
  | enough => exact ⟨rfl, rfl⟩
  | evict full => exact absurd (fits.symm.trans full) Bool.noConfusion

theorem held (run : MakesRoom selected room evicted p p') (stays : ∀ e ∈ evicted, e.2 ≠ event) (one : p.held key = some [event]) :
    p'.held key = some [event] := by
  induction run with
  | enough => exact one
  | @evict p p' other front evicted _ oldest _ ih =>
    refine ih (fun e member => stays e (List.mem_cons_of_mem _ member)) ?_
    have apart : other ≠ key := by
      rintro rfl
      obtain ⟨q, found, head⟩ := oldest.get
      rw [EventPipeline.held, found, Option.map_some, Option.some.injEq] at one
      rw [one, List.head?_cons, Option.some.injEq] at head
      exact stays _ List.mem_cons_self head.symm
    rw [EventPipeline.held, get_modify, if_neg apart]
    exact one

end MakesRoom

end EventPipeline

namespace EventQueue

variable {q : EventQueue} {event : Event}

theorem inner_collapse_of_coalescable (coalescable : event.kind.isCoalescable = true) (q : EventQueue) :
    (q.collapse event).inner = [] := by
  unfold collapse
  split
  next => rfl
  next stays =>
    rw [coalesces, coalescable, Bool.true_and, Bool.not_eq_true', Bool.not_eq_false] at stays
    exact List.isEmpty_iff.mp stays

theorem coalesces_popFront (apart : q.coalesces event = false) : q.popFront.coalesces event = false := by
  unfold coalesces at apart ⊢
  rcases Bool.and_eq_false_iff.mp apart with kind | empty
  · rw [kind, Bool.false_and]
  · have none : q.inner = [] := by simpa using empty
    have none' : q.popFront.inner = [] := by
      change q.inner.tail = []
      rw [none]
      rfl
    rw [none']
    exact Bool.and_false _

theorem capacity_collapse : (q.collapse event).capacity = q.capacity ∧ (q.collapse event).dropPolicy = q.dropPolicy := by
  unfold collapse
  split
  next => exact ⟨rfl, rfl⟩
  next => exact ⟨rfl, rfl⟩

theorem push_eq (bounded : event.payload.isBounded = true) : q.push event = (q.collapse event).enqueue event := by
  unfold push collapse
  rw [if_pos bounded]
  split <;> rfl

theorem inner_push_of_room (bounded : event.payload.isBounded = true) (room : (q.collapse event).inner.length < q.capacity) :
    (q.push event).inner = (q.collapse event).inner ++ [event] := by
  rw [push_eq bounded, enqueue, dif_pos (by rwa [capacity_collapse.1])]

theorem collapse_of_full (full : ¬(q.collapse event).inner.length < q.capacity) : q.collapse event = q := by
  unfold collapse at full ⊢
  split at full
  next => exact absurd q.positive full
  next stays => exact if_neg stays

theorem inner_push_of_full (bounded : event.payload.isBounded = true) (full : ¬(q.collapse event).inner.length < q.capacity) :
    (q.push event).inner = match q.dropPolicy with
      | .dropOldest => q.inner.tail ++ [event]
      | .dropNewest => q.inner := by
  rw [push_eq bounded, collapse_of_full full]
  rw [collapse_of_full full] at full
  rw [enqueue, dif_neg full]
  cases q.dropPolicy <;> rfl

end EventQueue

namespace EventPipeline

variable {p p' : EventPipeline} {key : SubscriptionKey} {event : Event} {plugin : Text} {f : EventQueue → EventQueue}

def Uniform (p : EventPipeline) : Prop := ∀ key q, p.get key = some q → q.dropPolicy = p.dropPolicy

theorem Uniform.modify (uniform : p.Uniform) (same : ∀ q, (f q).dropPolicy = q.dropPolicy) : (p.modify key f).Uniform := by
  intro other q found
  rw [get_modify] at found
  split at found
  next =>
    obtain ⟨before, here, rfl⟩ := Option.map_eq_some_iff.mp found
    exact (same before).trans (uniform other before here)
  next => exact uniform other q found

theorem dropPolicy_enqueue (q : EventQueue) : (q.enqueue event).dropPolicy = q.dropPolicy := by
  unfold EventQueue.enqueue
  split
  next => rfl
  next => split <;> rfl

theorem dropPolicy_push (q : EventQueue) : (q.push event).dropPolicy = q.dropPolicy := by
  unfold EventQueue.push
  split
  next =>
    split
    next => exact dropPolicy_enqueue _
    next => exact dropPolicy_enqueue _
  next => rfl

theorem evictOldest_keeps (Keeps : EventPipeline → Prop) (evict : ∀ key, Keeps (p.modify key EventQueue.popFront)) (kept : Keeps p)
    (selected : SubscriptionKey → Bool) : Keeps (p.evictOldest selected) := by
  unfold evictOldest
  split
  next => exact evict _
  next => exact kept

theorem Uniform.makeRoom (uniform : p.Uniform) : (p.makeRoom plugin event).Uniform :=
  makeRoom_keeps Uniform (fun _ selected kept => evictOldest_keeps Uniform (fun _ => kept.modify fun _ => rfl) kept selected) uniform

theorem dropPolicy_makeRoom : (p.makeRoom plugin event).dropPolicy = p.dropPolicy :=
  makeRoom_keeps (fun p' => p'.dropPolicy = p.dropPolicy)
    (fun _ selected kept => evictOldest_keeps (fun p' => p'.dropPolicy = p.dropPolicy) (fun _ => kept) kept selected) rfl

theorem Uniform.admitEvent (uniform : p.Uniform) : (p.admitEvent key event).Uniform := by
  unfold EventPipeline.admitEvent
  split
  next => exact uniform.modify fun _ => rfl
  next => exact uniform.modify dropPolicy_push

theorem Uniform.offer (uniform : p.Uniform) : (offer event p key).Uniform := uniform.makeRoom.admitEvent

theorem dropPolicy_offer : (offer event p key).dropPolicy = p.dropPolicy := by
  unfold offer admitEvent
  split
  next => exact dropPolicy_makeRoom
  next => exact dropPolicy_makeRoom

theorem Uniform.foldl_offer (uniform : p.Uniform) (keys : List SubscriptionKey) :
    (keys.foldl (EventPipeline.offer event) p).Uniform := by
  induction keys generalizing p with
  | nil => exact uniform
  | cons key rest ih => exact ih uniform.offer

theorem Uniform.subscribe (uniform : p.Uniform) (plugin : Text) (kind : EventKind) : (p.subscribe plugin kind).2.Uniform := by
  unfold EventPipeline.subscribe
  split
  next fresh =>
    intro other q here
    have inserted := List.perm_orderedInsert (fun a b : SubscriptionKey × EventQueue => a.1.le b.1)
      (⟨plugin, kind⟩, EventQueue.new p.defaultCapacity p.dropPolicy p.positive) p.queues
    change Keyed.find other (p.queues.orderedInsert _ _) = some q at here
    rw [Keyed.find_perm (p.once_insert fresh _) inserted, Keyed.find_cons] at here
    split at here
    next =>
      cases here
      rfl
    next => exact uniform other q here
  next => exact uniform

theorem Uniform.unsubscribe (uniform : p.Uniform) (plugin : Text) (kind : EventKind) : (p.unsubscribe plugin kind).2.Uniform := by
  unfold EventPipeline.unsubscribe
  split
  next => exact uniform
  next =>
    intro other q here
    change Keyed.find other (p.queues.filter fun e => e.1 ≠ ⟨plugin, kind⟩) = some q at here
    rw [Keyed.find_filter_ne] at here
    split at here
    next => cases here
    next => exact uniform other q here

theorem Uniform.take {taking : EventQueue → List Event × EventQueue} (uniform : p.Uniform)
    (same : ∀ q, (taking q).2.dropPolicy = q.dropPolicy) (plugin : Text) (kind : EventKind) :
    (p.take taking plugin kind).2.Uniform := by
  unfold EventPipeline.take
  split
  next => exact uniform
  next => exact uniform.modify same

theorem Uniform.perform (uniform : p.Uniform) (op : PipelineOp) : (p.perform op).2.Uniform := by
  cases op with
  | subscribe plugin kind => exact uniform.subscribe plugin kind
  | unsubscribe plugin kind => exact uniform.unsubscribe plugin kind
  | publish event => exact uniform.foldl_offer _
  | publishTo plugin event =>
    simp only [EventPipeline.perform, answered, publishTo]
    split
    next => exact uniform.makeRoom
    next => exact uniform.makeRoom.admitEvent
  | drain plugin kind => exact uniform.take (fun _ => rfl) plugin kind
  | drainBatch plugin kind maxEvents maxBytes => exact uniform.take (fun _ => rfl) plugin kind

theorem uniform_run (capacity : Nat) (dropPolicy : DropPolicy) (positive : 0 < capacity) (ops : List PipelineOp) :
    (run capacity dropPolicy positive ops).1.Uniform := by
  have keeps (s : EventPipeline × Ledger) (uniform : s.1.Uniform) :
      (ops.foldl (fun s op => ((s.1.perform op).2, s.1.ledgerAfter s.2 op)) s).1.Uniform := by
    induction ops generalizing s with
    | nil => exact uniform
    | cons op rest ih => exact ih _ (uniform.perform op)
  exact keeps _ nofun

def Apart (key : SubscriptionKey) (event : Event) (p : EventPipeline) : Prop := ∀ q, p.get key = some q → q.coalesces event = false

theorem Apart.evict (apart : p.Apart key event) (other : SubscriptionKey) : (p.modify other EventQueue.popFront).Apart key event := by
  intro q found
  rw [get_modify] at found
  split at found
  next =>
    obtain ⟨before, here, rfl⟩ := Option.map_eq_some_iff.mp found
    exact EventQueue.coalesces_popFront (apart before here)
  next => exact apart q found

theorem Apart.modify_collapse (apart : p.Apart key event) : p.modify key (EventQueue.collapse event) = p := by
  have same : Keyed.modify key (EventQueue.collapse event) p.queues = p.queues := by
    refine Keyed.modify_of_fixed p.once fun q found => ?_
    rw [EventQueue.collapse, apart q found]
    exact if_neg Bool.false_ne_true
  obtain ⟨queues, _, _, _, _⟩ := p
  simp only [EventPipeline.modify, same]

theorem grows_collapse : p.Grows key (EventQueue.collapse event) [] := by
  intro q _
  rw [List.append_nil, EventQueue.collapse]
  split
  next => exact List.nil_sublist _
  next => exact List.Sublist.refl _

theorem Roomy.rooms (roomy : p.Roomy key event) (oldest : p.dropPolicy = .dropOldest) : ∃ first p₁ second p₂,
    MakesRoom (fun _ => true) (roomGlobally key event) first p p₁ ∧
    MakesRoom (·.plugin = key.plugin) (roomForPlugin key event) second p₁ p₂ ∧
    p.makeRoom key.plugin event = p₂ ∧ p₂.exceeds key.plugin event = false ∧
    (event.kind.isCoalescable = true → ∀ e ∈ first ++ second, e.2 ≠ event) := by
  obtain ⟨first, p₁, second, p₂, run₁, run₂, few, others⟩ := roomy.few oldest
  obtain ⟨made, fits⟩ := evictUntil_eq run₁ run₂ few
  refine ⟨first, p₁, second, p₂, ?_⟩
  cases surplus : p.exceeds key.plugin event with
  | true =>
    have globally (p : EventPipeline) (kept : p.Apart key event) : (!p.wouldExceedGlobalLimits event) = roomGlobally key event p := by
      rw [roomGlobally, kept.modify_collapse]
    have forPlugin (p : EventPipeline) (kept : p.Apart key event) :
        (!p.wouldExceedPluginLimits key.plugin event) = roomForPlugin key event p := by
      rw [roomForPlugin, kept.modify_collapse]
    obtain ⟨run₁', apart⟩ := run₁.congr (Apart key event) (fun _ other kept => kept.evict other) globally (roomy.apart surplus)
    obtain ⟨run₂', -⟩ := run₂.congr (Apart key event) (fun _ other kept => kept.evict other) forPlugin apart
    refine ⟨run₁', run₂', ?_, fits, others⟩
    rw [makeRoom, if_pos ⟨surplus, oldest⟩]
    exact made
  | false =>
    obtain ⟨forPlugin, globally⟩ := Bool.or_eq_false_iff.mp surplus
    obtain ⟨rfl, rfl⟩ := run₁.eq_nil (by rw [globally]; rfl)
    obtain ⟨rfl, rfl⟩ := run₂.eq_nil (by rw [forPlugin]; rfl)
    refine ⟨.enough ?_, .enough ?_, makeRoom_eq_self.mpr fun _ => surplus, fits, others⟩
    · rw [roomGlobally, (fits_of_shrink key.plugin grows_collapse).1 globally]
      rfl
    · rw [roomForPlugin, (fits_of_shrink key.plugin grows_collapse).2 forPlugin]
      rfl

theorem enqueued_push (bounded : event.payload.isBounded = true) (room : p.roomInQueue key event = true) :
    Enqueued key event p (p.modify key (·.push event)) := by
  intro other
  rw [held, get_modify]
  split
  next here =>
    subst here
    cases found : p.get key with
    | none => rfl
    | some q =>
      rw [roomInQueue, found, Option.all_some, decide_eq_true_eq] at room
      exact congrArg some (EventQueue.inner_push_of_room bounded room)
  next => rfl

theorem full_of_no_room (room : p.roomInQueue key event = false) :
    ∃ q, p.get key = some q ∧ ¬(q.collapse event).inner.length < q.capacity := by
  cases found : p.get key with
  | none =>
    rw [roomInQueue, found] at room
    cases room
  | some q =>
    rw [roomInQueue, found, Option.all_some, decide_eq_false_iff_not] at room
    exact ⟨q, rfl, room⟩

theorem oldestIn_queue {q : EventQueue} (found : p.get key = some q) (head : q.inner.head? = some front) :
    OldestIn (· = key) p.queues key front := by
  obtain ⟨before, after, split⟩ := List.append_of_mem (Keyed.mem_of_find found)
  have once := p.once
  rw [split, List.map_append, List.map_cons, List.nodup_middle, List.nodup_cons, List.mem_append, not_or] at once
  refine ⟨before, q, after, split, decide_eq_true rfl, head, fun e member here => ?_, fun e member here => ?_⟩
  · exact absurd (List.mem_map.mpr ⟨e, member, of_decide_eq_true here⟩) once.1.1
  · exact absurd (List.mem_map.mpr ⟨e, member, of_decide_eq_true here⟩) once.1.2

theorem push_oldest (bounded : event.payload.isBounded = true) (uniform : p.Uniform) (oldest : p.dropPolicy = .dropOldest) :
    ∃ third p₃, MakesRoom (· = key) (roomInQueue key event) third p p₃ ∧
      Enqueued key event p₃ (p.modify key (·.push event)) := by
  cases room : p.roomInQueue key event with
  | true => exact ⟨[], p, .enough room, enqueued_push bounded room⟩
  | false =>
    obtain ⟨q, found, full⟩ := full_of_no_room room
    have apart : q.coalesces event = false := by
      by_contra replaces
      rw [EventQueue.collapse, if_pos (Bool.eq_true_of_not_eq_false replaces)] at full
      exact full q.positive
    have collapse : q.popFront.collapse event = q.popFront := by
      rw [EventQueue.collapse, EventQueue.coalesces_popFront apart]
      exact if_neg Bool.false_ne_true
    have many : q.capacity ≤ q.inner.length := by
      rw [EventQueue.collapse_of_full full] at full
      exact Nat.not_lt.mp full
    obtain ⟨front, rest, inner⟩ := List.exists_cons_of_length_pos (q.positive.trans_le many)
    have popped : (p.modify key EventQueue.popFront).get key = some q.popFront := by rw [get_modify, if_pos rfl, found, Option.map_some]
    have room' : (p.modify key EventQueue.popFront).roomInQueue key event = true := by
      rw [roomInQueue, popped, Option.all_some, decide_eq_true_eq, collapse]
      change q.inner.tail.length < q.capacity
      have within := q.within
      rw [inner, List.length_cons] at within
      rw [inner, List.tail_cons]
      exact within
    refine ⟨_, _, .evict room (oldestIn_queue found (by rw [inner, List.head?_cons])) (.enough room'), fun other => ?_⟩
    rw [held, get_modify]
    split
    next here =>
      subst here
      rw [popped, found, Option.map_some, Option.map_some, Option.map_some, EventQueue.inner_push_of_full bounded full,
        uniform key q found, oldest, collapse]
      rfl
    next here => rw [held, get_modify, if_neg here]

theorem held_push (bounded : event.payload.isBounded = true) (coalescable : event.kind.isCoalescable = true)
    (here : p.get key ≠ none) : (p.modify key (·.push event)).held key = some [event] := by
  obtain ⟨q, found⟩ := Option.ne_none_iff_exists'.mp here
  have none := EventQueue.inner_collapse_of_coalescable coalescable q
  have room : (q.collapse event).inner.length < q.capacity := by
    rw [none]
    exact q.positive
  rw [held, get_modify, if_pos rfl, found, Option.map_some, Option.map_some, EventQueue.inner_push_of_room bounded room, none]
  rfl

theorem makeRoom_of_newest (newest : p.dropPolicy = .dropNewest) : p.makeRoom plugin event = p :=
  makeRoom_eq_self.mpr fun oldest => absurd (oldest.symm.trans newest) nofun

theorem Roomy.held_offer (roomy : p.Roomy key event) (bounded : event.payload.isBounded = true)
    (coalescable : event.kind.isCoalescable = true) (oldest : p.dropPolicy = .dropOldest) (here : p.get key ≠ none) :
    (offer event p key).held key = some [event] := by
  obtain ⟨-, -, -, p₂, -, -, made, fits, -⟩ := roomy.rooms oldest
  rw [offer, made, admitEvent, fits]
  refine held_push bounded coalescable ?_
  rw [← made]
  exact mt (get_makeRoom_none key).mp here

theorem Roomy.honours (roomy : p.Roomy key event) (bounded : event.payload.isBounded = true) (uniform : p.Uniform) :
    p.Honours key event (offer event p key) where
  dropOldest oldest := by
    obtain ⟨first, p₁, second, p₂, run₁, run₂, made, fits, -⟩ := roomy.rooms oldest
    have uniform' : p₂.Uniform := made ▸ uniform.makeRoom
    have oldest' : p₂.dropPolicy = .dropOldest := by rw [← made, dropPolicy_makeRoom, oldest]
    obtain ⟨third, p₃, run₃, enqueued⟩ := push_oldest bounded uniform' oldest'
    refine ⟨first, p₁, second, p₂, third, p₃, run₁, run₂, run₃, ?_⟩
    rw [offer, made, admitEvent, fits]
    exact enqueued
  dropNewest newest := by
    have unmoved {f : EventQueue → EventQueue} (same : ∀ q, p.get key = some q → (f q).inner = q.inner) :
        (p.modify key f).held = p.held := by
      funext other
      rw [held, get_modify]
      split
      next here =>
        subst here
        rw [Option.map_map]
        exact Option.map_congr fun q found => same q found
      next => rfl
    rw [offer, makeRoom_of_newest newest, admitEvent]
    split
    next surplus =>
      refine .inr ⟨unmoved fun _ _ => rfl, ?_⟩
      rw [roomGlobally, roomForPlugin, Apart.modify_collapse (roomy.apart surplus)]
      rcases Bool.or_eq_true_iff.mp surplus with plugin | globally
      · rw [plugin, Bool.not_true, Bool.and_false, Bool.false_and]
      · rw [globally, Bool.not_true, Bool.false_and, Bool.false_and]
    next =>
      cases room : p.roomInQueue key event with
      | true => exact .inl (enqueued_push bounded room)
      | false =>
        obtain ⟨q, found, full⟩ := full_of_no_room room
        refine .inr ⟨unmoved fun q' found' => ?_, Bool.and_false _⟩
        cases found.symm.trans found'
        rw [EventQueue.inner_push_of_full bounded full, uniform key q found, newest]
  newest coalescable q found nonempty := by
    have here : p.get key ≠ none := by
      rw [found]
      exact Option.some_ne_none q
    cases policy : p.dropPolicy with
    | dropOldest => exact roomy.held_offer bounded coalescable policy here
    | dropNewest =>
      have replaces : q.coalesces event = true := by
        rw [EventQueue.coalesces, coalescable, Bool.true_and, List.isEmpty_eq_false_iff.mpr nonempty]
        rfl
      have fits : ¬p.exceeds key.plugin event = true := fun surplus =>
        absurd (replaces.symm.trans (roomy.apart surplus q found)) Bool.noConfusion
      rw [offer, makeRoom_of_newest policy, admitEvent, if_neg fits]
      exact held_push bounded coalescable here

theorem held_admitEvent {other : SubscriptionKey} (apart : key ≠ other) : (p.admitEvent key event).held other = p.held other := by
  unfold admitEvent
  split
  next => rw [held, get_modify, if_neg apart, held]
  next => rw [held, get_modify, if_neg apart, held]

theorem get_offer_none (key other : SubscriptionKey) : (offer event p key).get other = none ↔ p.get other = none := by
  have admitted (p : EventPipeline) : (p.admitEvent key event).get other = none ↔ p.get other = none := by
    unfold admitEvent
    split
    next =>
      rw [get_modify]
      split
      next => exact Option.map_eq_none_iff
      next => rfl
    next =>
      rw [get_modify]
      split
      next => exact Option.map_eq_none_iff
      next => rfl
  exact (admitted _).trans (get_makeRoom_none other)

theorem Roomy.held_other (roomy : p.Roomy key event) (coalescable : event.kind.isCoalescable = true) {other : SubscriptionKey}
    (apart : key ≠ other) (one : p.held other = some [event]) : (offer event p key).held other = some [event] := by
  rw [offer, held_admitEvent apart]
  cases policy : p.dropPolicy with
  | dropNewest => rwa [makeRoom_of_newest policy]
  | dropOldest =>
    obtain ⟨first, p₁, second, p₂, run₁, run₂, made, -, others⟩ := roomy.rooms policy
    rw [made]
    refine run₂.held (fun e member => ?_) (run₁.held (fun e member => ?_) one)
    · exact others coalescable e (List.mem_append_right _ member)
    · exact others coalescable e (List.mem_append_left _ member)

/-- What a publication does up to some of its copies: the queues they went to hold the newest alone, and without eviction the
other queues are as they were. -/
structure Delivered (event : Event) (p : EventPipeline) (keys : List SubscriptionKey) (p' : EventPipeline) : Prop where
  uniform : p'.Uniform
  dropPolicy : p'.dropPolicy = p.dropPolicy
  subscribed : ∀ key, p'.get key = none ↔ p.get key = none
  waiting : p.dropPolicy = .dropNewest → ∀ key, key ∉ keys → p'.held key = p.held key
  alone : event.kind.isCoalescable = true → ∀ key ∈ keys, ∀ q, p.get key = some q → q.inner ≠ [] → p'.held key = some [event]

theorem delivered (bounded : event.payload.isBounded = true) (uniform : p.Uniform) {keys : List SubscriptionKey} (once : keys.Nodup)
    (roomy : Stream.Each (fun before key => Roomy (before.foldl (offer event) p) key event) keys) :
    Delivered event p keys (keys.foldl (offer event) p) := by
  induction keys using List.reverseRecOn with
  | nil => exact ⟨uniform, rfl, fun _ => Iff.rfl, fun _ _ _ => rfl, fun _ _ => nofun⟩
  | append_singleton keys key ih =>
    obtain ⟨earlier, here⟩ := Stream.each_concat.mp roomy
    obtain ⟨once', fresh⟩ : keys.Nodup ∧ key ∉ keys := by
      rw [List.nodup_append_comm, List.singleton_append, List.nodup_cons] at once
      exact ⟨once.2, once.1⟩
    have before := ih once' earlier
    rw [List.foldl_append, List.foldl_cons, List.foldl_nil]
    generalize keys.foldl (offer event) p = p' at before here
    have policy : (offer event p' key).dropPolicy = p.dropPolicy := dropPolicy_offer.trans before.dropPolicy
    refine ⟨before.uniform.offer, policy, fun other => (get_offer_none key other).trans (before.subscribed other), ?_, ?_⟩
    · intro newest other outside
      rw [List.mem_append, List.mem_singleton, not_or] at outside
      rw [offer, held_admitEvent (Ne.symm outside.2), makeRoom_of_newest (before.dropPolicy.trans newest)]
      exact before.waiting newest other outside.1
    · intro coalescable other member q found nonempty
      rcases List.mem_append.mp member with earlier | last
      · have apart : key ≠ other := by
          rintro rfl
          exact fresh earlier
        exact here.held_other coalescable apart (before.alone coalescable other earlier q found nonempty)
      · obtain rfl := List.mem_singleton.mp last
        have some' : p'.get other ≠ none := by
          rw [Ne, before.subscribed, found]
          nofun
        cases policy' : p'.dropPolicy with
        | dropOldest => exact here.held_offer bounded coalescable policy' some'
        | dropNewest =>
          obtain ⟨q', found'⟩ := Option.ne_none_iff_exists'.mp some'
          have same := before.waiting (before.dropPolicy.symm.trans policy') other fresh
          rw [held, held, found, found', Option.map_some, Option.map_some, Option.some.injEq] at same
          exact (here.honours bounded before.uniform).newest coalescable q' found' (same ▸ nonempty)

theorem nodup_targets (kind : EventKind) : (p.targets kind).Nodup := p.once.filter _

section

def bell : SubscriptionKey := ⟨"a".toList, .terminalBell⟩

def title : SubscriptionKey := ⟨"a".toList, .terminalTitleChanged⟩

def Titled (n : Nat) (p : EventPipeline) : Prop :=
  p.dropPolicy = .dropNewest ∧ ∃ q t, p.queues = [(bell, q), (title, t)] ∧
    q.inner = List.replicate n ⟨.terminalBell, .empty, 0⟩ ∧ q.capacity = PER_PLUGIN_QUEUED_EVENT_LIMIT ∧ t.inner = [⟨.terminalTitleChanged, .empty, 0⟩]

theorem Titled.queued {n : Nat} (titled : Titled n p) : p.queuedEventsForPlugin "a".toList = n + 1 ∧
    p.queuedBytesForPlugin "a".toList = 0 ∧ p.totalQueuedEvents = n + 1 ∧ p.totalQueuedBytes = 0 := by
  obtain ⟨-, q, t, queues, inner, -, inner'⟩ := titled
  simp [queuedEventsForPlugin, queuedBytesForPlugin, totalQueuedEvents, totalQueuedBytes, eventsIn, bytesIn, queues, Keyed.total,
    EventQueue.queuedBytes, inner, inner', bell, title, Event.bytes, EventPayload.bytes]

theorem Titled.targets {n : Nat} (titled : Titled n p) :
    p.targets .terminalBell = [bell] ∧ p.targets .terminalTitleChanged = [title] := by
  obtain ⟨-, q, t, queues, -⟩ := titled
  simp [EventPipeline.targets, queues, bell, title]

theorem Titled.publish {n : Nat} (titled : Titled n p) (few : n + 1 < PER_PLUGIN_QUEUED_EVENT_LIMIT) :
    Titled (n + 1) (p.perform (.publish ⟨.terminalBell, .empty, 0⟩)).2 := by
  obtain ⟨pluginEvents, pluginBytes, events, bytes⟩ := titled.queued
  have targets := titled.targets.1
  obtain ⟨newest, q, t, queues, inner, capacity, inner'⟩ := titled
  have fits : p.exceeds "a".toList ⟨.terminalBell, .empty, 0⟩ = false := by
    rw [not_exceeds, pluginEvents, pluginBytes, events, bytes]
    refine ⟨⟨few, Nat.zero_le _⟩, ?_, Nat.zero_le _⟩
    unfold PER_PLUGIN_QUEUED_EVENT_LIMIT at few
    unfold GLOBAL_QUEUED_EVENT_LIMIT
    omega
  have room : q.inner.length < q.capacity := by
    rw [inner, List.length_replicate, capacity]
    omega
  have pushed : (q.push ⟨.terminalBell, .empty, 0⟩).inner = q.inner ++ [⟨.terminalBell, .empty, 0⟩] ∧
      (q.push ⟨.terminalBell, .empty, 0⟩).capacity = q.capacity := q.push_of_room (by decide) rfl room
  have step : (p.perform (.publish ⟨.terminalBell, .empty, 0⟩)).2 = p.modify bell (·.push ⟨.terminalBell, .empty, 0⟩) := by
    change (p.targets .terminalBell).foldl (offer ⟨.terminalBell, .empty, 0⟩) p = _
    rw [targets, List.foldl_cons, List.foldl_nil, offer, makeRoom_of_newest newest, admitEvent]
    exact if_neg (Bool.eq_false_iff.mp fits)
  rw [step]
  refine ⟨newest, q.push ⟨.terminalBell, .empty, 0⟩, t, ?_, ?_, pushed.2.trans capacity, inner'⟩
  · change Keyed.modify bell (·.push ⟨.terminalBell, .empty, 0⟩) p.queues = _
    rw [queues]
    simp [Keyed.modify, bell, title]
  · rw [pushed.1, List.replicate_succ', ← inner]

def titleAndBells (n : Nat) : List PipelineOp :=
  [.subscribe "a".toList .terminalBell, .subscribe "a".toList .terminalTitleChanged,
    .publish ⟨.terminalTitleChanged, .empty, 0⟩] ++ List.replicate n (.publish ⟨.terminalBell, .empty, 0⟩)

theorem titled_run {n : Nat} (few : n < PER_PLUGIN_QUEUED_EVENT_LIMIT) :
    Titled n (run PER_PLUGIN_QUEUED_EVENT_LIMIT .dropNewest (by decide) (titleAndBells n)).1 := by
  induction n with
  | zero => exact ⟨rfl, _, _, rfl, rfl, rfl, rfl⟩
  | succ n ih =>
    have before := ih (Nat.lt_of_succ_lt few)
    unfold run titleAndBells at before ⊢
    rw [List.replicate_succ', ← List.append_assoc, List.foldl_append]
    exact before.publish few

end

end EventPipeline

end Bitty.Plugin
