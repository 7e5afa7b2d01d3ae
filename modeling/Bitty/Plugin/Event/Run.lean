import Bitty.Plugin.Event.Account

namespace Bitty.Plugin

abbrev Ledger := SubscriptionKey → Account

namespace EventPipeline

variable {p p' : EventPipeline} {ledger : Ledger} {key : SubscriptionKey} {event : Event} {plugin : Text} {kind : EventKind}

/-- The account of a queue at which an event arrives: offered, and possibly in place of queued ones. -/
def arrival (p : EventPipeline) (key : SubscriptionKey) (event : Event) (a : Account) : Account :=
  { a with
    offered := a.offered ++ [event]
    coalesced := a.coalesced + if p.exceeds key.plugin event then 0 else (p.get key).elim 0 (·.coalescing event) }

def record (event : Event) (s : EventPipeline × Ledger) (key : SubscriptionKey) : EventPipeline × Ledger :=
  let roomy := s.1.makeRoom key.plugin event
  (roomy.admitEvent key event, Function.update s.2 key (roomy.arrival key event (s.2 key)))

def ledgerTaking (p : EventPipeline) (ledger : Ledger) (taking : EventQueue → List Event × EventQueue) (plugin : Text)
    (kind : EventKind) : Ledger :=
  match p.get ⟨plugin, kind⟩ with
  | none => ledger
  | some q => Function.update ledger ⟨plugin, kind⟩
      { ledger ⟨plugin, kind⟩ with drained := (ledger ⟨plugin, kind⟩).drained ++ (taking q).1 }

def ledgerAfter (p : EventPipeline) (ledger : Ledger) : PipelineOp → Ledger
  | .subscribe plugin kind =>
    match p.get ⟨plugin, kind⟩ with
    | none => Function.update ledger ⟨plugin, kind⟩ .opened
    | some _ => ledger
  | .unsubscribe _ _ => ledger
  | .publish event => ((p.targets event.kind).foldl (record event) (p, ledger)).2
  | .publishTo plugin event =>
    match p.get ⟨plugin, event.kind⟩ with
    | none => ledger
    | some _ => (record event (p, ledger) ⟨plugin, event.kind⟩).2
  | .drain plugin kind => p.ledgerTaking ledger EventQueue.drain plugin kind
  | .drainBatch plugin kind maxEvents maxBytes => p.ledgerTaking ledger (·.drainBatch maxEvents maxBytes) plugin kind

def Accounted (ledger : Ledger) (p : EventPipeline) : Prop := ∀ key q, p.get key = some q → (ledger key).Covers q

theorem get_modify (f : EventQueue → EventQueue) (other : SubscriptionKey) :
    (p.modify key f).get other = if key = other then (p.get other).map f else p.get other := Keyed.find_modify f

theorem oldest_cases (selected : SubscriptionKey → Bool) (queues : Queues) (best : Option (SubscriptionKey × Nat)) :
    oldest selected queues best = best ∨
      ∃ e ∈ queues, selected e.1 = true ∧ e.2.inner ≠ [] ∧ ∃ n, oldest selected queues best = some (e.1, n) := by
  induction queues generalizing best with
  | nil => exact .inl rfl
  | cons e rest ih =>
    obtain ⟨key, q⟩ := e
    have skip : oldest selected rest best = best ∨ ∃ e ∈ (key, q) :: rest, selected e.1 = true ∧ e.2.inner ≠ [] ∧
        ∃ n, oldest selected rest best = some (e.1, n) := by
      rcases ih best with same | ⟨e, member, found⟩
      · exact .inl same
      · exact .inr ⟨e, List.mem_cons_of_mem _ member, found⟩
    have choose (here : selected key = true) (n : Nat) (nonempty : q.inner ≠ []) :
        ∃ e ∈ (key, q) :: rest, selected e.1 = true ∧ e.2.inner ≠ [] ∧
          ∃ m, oldest selected rest (some (key, n)) = some (e.1, m) := by
      rcases ih (some (key, n)) with same | ⟨e, member, found⟩
      · exact ⟨(key, q), List.mem_cons_self, here, nonempty, n, same⟩
      · exact ⟨e, List.mem_cons_of_mem _ member, found⟩
    unfold oldest
    cases here : selected key with
    | false => exact skip
    | true =>
      cases front : q.inner.head? with
      | none => exact skip
      | some event =>
        have nonempty : q.inner ≠ [] := by
          intro empty
          rw [empty] at front
          cases front
        dsimp only
        cases best with
        | none => exact .inr (choose here event.sequence nonempty)
        | some lowest =>
          dsimp only
          split
          next => exact .inr (choose here event.sequence nonempty)
          next => exact skip

theorem evictOldest_cases (p : EventPipeline) (selected : SubscriptionKey → Bool) :
    oldest selected p.queues none = none ∧ p.evictOldest selected = p ∨
    ∃ key q, p.get key = some q ∧ selected key = true ∧ q.inner ≠ [] ∧
      p.evictOldest selected = p.modify key EventQueue.popFront := by
  unfold evictOldest
  cases found : oldest selected p.queues none with
  | none => exact .inl ⟨rfl, rfl⟩
  | some best =>
    rcases oldest_cases selected p.queues none with same | ⟨e, member, here, nonempty, n, same⟩
    · rw [found] at same
      cases same
    · rw [found] at same
      obtain rfl := Option.some.inj same
      exact .inr ⟨e.1, e.2, Keyed.find_of_mem p.once member, here, nonempty, rfl⟩

theorem Accounted.evictOldest (accounted : Accounted ledger p) (selected : SubscriptionKey → Bool) :
    Accounted ledger (p.evictOldest selected) := by
  rcases p.evictOldest_cases selected with ⟨-, same⟩ | ⟨key, q, found, -, nonempty, same⟩
  · rw [same]
    exact accounted
  · rw [same]
    intro other q' here
    rw [get_modify] at here
    split at here
    next atKey =>
      subst atKey
      rw [found] at here
      obtain rfl := Option.some.inj here
      exact (accounted key q found).popFront nonempty
    next => exact accounted other q' here

theorem Accounted.makeRoom (accounted : Accounted ledger p) : Accounted ledger (p.makeRoom plugin event) :=
  makeRoom_keeps (Accounted ledger) (fun _ selected kept => kept.evictOldest selected) accounted

theorem Accounted.admitEvent (accounted : Accounted ledger p) :
    Accounted (Function.update ledger key (p.arrival key event (ledger key))) (p.admitEvent key event) := by
  intro other q here
  unfold EventPipeline.admitEvent at here
  by_cases surplus : p.exceeds key.plugin event = true
  · rw [if_pos surplus, get_modify] at here
    by_cases same : key = other
    · subst same
      rw [if_pos rfl] at here
      obtain ⟨old, found, rfl⟩ := Option.map_eq_some_iff.mp here
      have covers := (accounted key old found).drop event
      rw [Function.update_self]
      simpa only [arrival, surplus, if_true, Nat.add_zero] using covers
    · rw [if_neg same] at here
      rw [Function.update_of_ne (Ne.symm same)]
      exact accounted other q here
  · rw [if_neg surplus, get_modify] at here
    by_cases same : key = other
    · subst same
      rw [if_pos rfl] at here
      obtain ⟨old, found, rfl⟩ := Option.map_eq_some_iff.mp here
      have covers := (accounted key old found).push event
      rw [Function.update_self]
      simpa only [arrival, surplus, if_false, found, Option.elim_some, Bool.false_eq_true] using covers
    · rw [if_neg same] at here
      rw [Function.update_of_ne (Ne.symm same)]
      exact accounted other q here

theorem Accounted.record {s : EventPipeline × Ledger} (accounted : Accounted s.2 s.1) (key : SubscriptionKey) :
    Accounted (EventPipeline.record event s key).2 (EventPipeline.record event s key).1 := accounted.makeRoom.admitEvent

theorem Accounted.publish (accounted : Accounted ledger p) (keys : List SubscriptionKey) :
    (keys.foldl (EventPipeline.record event) (p, ledger)).1 = keys.foldl (EventPipeline.offer event) p ∧
      Accounted (keys.foldl (EventPipeline.record event) (p, ledger)).2 (keys.foldl (EventPipeline.offer event) p) := by
  induction keys generalizing p ledger with
  | nil => exact ⟨rfl, accounted⟩
  | cons key rest ih => exact ih (accounted.record key)

theorem get_evictOldest_none (selected : SubscriptionKey → Bool) (key : SubscriptionKey) :
    (p.evictOldest selected).get key = none ↔ p.get key = none := by
  rcases p.evictOldest_cases selected with ⟨-, same⟩ | ⟨front, q, -, -, -, same⟩
  · rw [same]
  · rw [same, get_modify]
    split
    next => exact Option.map_eq_none_iff
    next => rfl

theorem get_makeRoom_none (key : SubscriptionKey) : (p.makeRoom plugin event).get key = none ↔ p.get key = none :=
  makeRoom_keeps (fun p' => p'.get key = none ↔ p.get key = none)
    (fun _ selected kept => (get_evictOldest_none selected key).trans kept) Iff.rfl

theorem Accounted.subscribe (accounted : Accounted ledger p) (plugin : Text) (kind : EventKind) :
    Accounted (p.ledgerAfter ledger (.subscribe plugin kind)) (p.subscribe plugin kind).2 := by
  unfold EventPipeline.subscribe ledgerAfter
  dsimp only
  by_cases fresh : p.get ⟨plugin, kind⟩ = none
  · rw [dif_pos fresh, fresh]
    intro other q here
    have inserted := List.perm_orderedInsert (fun a b : SubscriptionKey × EventQueue => a.1.le b.1)
      (⟨plugin, kind⟩, EventQueue.new p.defaultCapacity p.dropPolicy p.positive) p.queues
    change Keyed.find other (p.queues.orderedInsert _ _) = some q at here
    rw [Keyed.find_perm (p.once_insert fresh _) inserted, Keyed.find_cons] at here
    by_cases same : (⟨plugin, kind⟩ : SubscriptionKey) = other
    · rw [if_pos same] at here
      obtain rfl := Option.some.inj here
      dsimp only
      rw [← same, Function.update_self]
      exact Account.covers_opened _ _ _
    · rw [if_neg same] at here
      dsimp only
      rw [Function.update_of_ne (Ne.symm same)]
      exact accounted other q here
  · rw [dif_neg fresh]
    obtain ⟨q, found⟩ := Option.ne_none_iff_exists'.mp fresh
    rw [found]
    exact accounted

theorem Accounted.unsubscribe (accounted : Accounted ledger p) (plugin : Text) (kind : EventKind) :
    Accounted ledger (p.unsubscribe plugin kind).2 := by
  unfold EventPipeline.unsubscribe
  split
  next => exact accounted
  next =>
    intro other q here
    change Keyed.find other (p.queues.filter fun e => e.1 ≠ ⟨plugin, kind⟩) = some q at here
    rw [Keyed.find_filter_ne] at here
    split at here
    next => cases here
    next => exact accounted other q here

theorem Accounted.publishTo (accounted : Accounted ledger p) (plugin : Text) (event : Event) :
    Accounted (p.ledgerAfter ledger (.publishTo plugin event)) (p.publishTo plugin event).2 := by
  have roomy : Accounted ledger (p.makeRoom plugin event) := accounted.makeRoom
  have absent : (p.makeRoom plugin event).get ⟨plugin, event.kind⟩ = none ↔ p.get ⟨plugin, event.kind⟩ = none :=
    get_makeRoom_none _
  unfold EventPipeline.publishTo ledgerAfter
  dsimp only
  cases found : p.get ⟨plugin, event.kind⟩ with
  | none =>
    rw [absent.mpr found]
    exact roomy
  | some q =>
    have present : (p.makeRoom plugin event).get ⟨plugin, event.kind⟩ ≠ none := by
      rw [Ne, absent, found]
      nofun
    obtain ⟨q', here⟩ := Option.ne_none_iff_exists'.mp present
    rw [here]
    exact roomy.admitEvent

theorem Accounted.take {taking : EventQueue → List Event × EventQueue} (accounted : Accounted ledger p)
    (rest : Taking taking) (kept : ∀ q, (taking q).2.dropped = q.dropped) (plugin : Text) (kind : EventKind) :
    Accounted (p.ledgerTaking ledger taking plugin kind) (p.take taking plugin kind).2 := by
  unfold EventPipeline.take ledgerTaking
  cases found : p.get ⟨plugin, kind⟩ with
  | none => exact accounted
  | some q =>
    intro other q' here
    rw [get_modify] at here
    by_cases same : (⟨plugin, kind⟩ : SubscriptionKey) = other
    · subst same
      rw [if_pos rfl, found] at here
      obtain rfl := Option.some.inj here
      dsimp only
      rw [Function.update_self]
      exact (accounted _ q found).take (rest q) (kept q)
    · rw [if_neg same] at here
      dsimp only
      rw [Function.update_of_ne (Ne.symm same)]
      exact accounted other q' here

theorem Accounted.perform (accounted : Accounted ledger p) (op : PipelineOp) :
    Accounted (p.ledgerAfter ledger op) (p.perform op).2 := by
  cases op with
  | subscribe plugin kind => exact accounted.subscribe plugin kind
  | unsubscribe plugin kind => exact accounted.unsubscribe plugin kind
  | publish event => exact (accounted.publish (p.targets event.kind)).2
  | publishTo plugin event => exact accounted.publishTo plugin event
  | drain plugin kind => exact accounted.take taking_drain (fun _ => rfl) plugin kind
  | drainBatch plugin kind maxEvents maxBytes =>
    exact accounted.take (taking_drainBatch maxEvents maxBytes) (fun _ => rfl) plugin kind

def run (capacity : Nat) (dropPolicy : DropPolicy) (positive : 0 < capacity) (ops : List PipelineOp) :
    EventPipeline × Ledger :=
  ops.foldl (fun s op => ((s.1.perform op).2, s.1.ledgerAfter s.2 op)) (new capacity dropPolicy positive, fun _ => .opened)

theorem run_keeps (capacity : Nat) (dropPolicy : DropPolicy) (positive : 0 < capacity) (ops : List PipelineOp) :
    (run capacity dropPolicy positive ops).1.Bounded ∧
      Accounted (run capacity dropPolicy positive ops).2 (run capacity dropPolicy positive ops).1 := by
  have keeps (s : EventPipeline × Ledger) (bounded : s.1.Bounded) (accounted : Accounted s.2 s.1) :
      (ops.foldl (fun s op => ((s.1.perform op).2, s.1.ledgerAfter s.2 op)) s).1.Bounded ∧
        Accounted (ops.foldl (fun s op => ((s.1.perform op).2, s.1.ledgerAfter s.2 op)) s).2
          (ops.foldl (fun s op => ((s.1.perform op).2, s.1.ledgerAfter s.2 op)) s).1 := by
    induction ops generalizing s with
    | nil => exact ⟨bounded, accounted⟩
    | cons op rest ih => exact ih _ (bounded.perform op) (accounted.perform op)
  exact keeps _ (bounded_new capacity dropPolicy positive) nofun

end EventPipeline

end Bitty.Plugin
