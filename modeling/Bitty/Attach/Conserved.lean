import Bitty.Attach.History

/-! A seam over whole runs: its maps agree, and no lease, event or receipt is lost or doubled. -/

namespace Bitty.Attach.AttachSeam

variable {H : Type} {s s' : AttachSeam (Watched H)} {hist : History} {size : Nat}

variable {request : AttachRequest}

theorem Bound.granted {answer : Except AttachError BindingHandle}
    (bound : Bound request s answer s') : s.host.granted <+: s'.host.granted := by
  cases bound with
  | still => exact List.prefix_rfl
  | again => exact List.prefix_rfl
  | refused granted => exact granted ▸ List.prefix_rfl
  | handedBack granted => exact granted ▸ List.prefix_append _ _
  | duplicate granted => exact granted ▸ List.prefix_append _ _
  | fresh granted => exact granted ▸ List.prefix_append _ _

theorem Bound.holds {answer : Except AttachError BindingHandle}
    (bound : Bound request s answer s') (held : Holds size hist s) (once : s'.host.granted.Nodup) :
    Holds size (hist.record ⟨.bind request, .bound answer⟩) s' := by
  have later := Nat.le_succ s.nextBinding
  cases bound with
  | still => exact held
  | again found here => exact held.bindAgain here
  | refused granted returned => exact held.after later (held.balanced.after _ granted returned)
  | handedBack granted returned => exact held.after later (held.balanced.handedBack _ granted returned)
  | @duplicate e w attachId id granted taken =>
    -- the id names a live binding, so it was granted before
    obtain ⟨b, here, same⟩ := held.indexed.leases.entry taken
    have before := held.balanced.granted_of_live here
    rw [same] at before
    have distinct : w.granted.Nodup := once
    rw [granted] at distinct
    exact absurd rfl ((List.nodup_append.mp distinct).2.2 _ before _ (List.mem_singleton.mpr rfl))
  | fresh granted returned absent free room => exact held.bindFresh granted returned absent free room

theorem Bound.refusal {e : AttachError} (bound : Bound request s (.error e) s') :
    s'.bindings = s.bindings ∧ s'.byKey = s.byKey ∧ s'.byAttach = s.byAttach ∧ s'.windowCounts = s.windowCounts := by
  cases bound <;> exact ⟨rfl, rfl, rfl, rfl⟩

variable [SessionHost H]

theorem bound (request : AttachRequest) (s : AttachSeam (Watched H)) : Bound request s (bind request s).1 (bind request s).2 :=
  bind_cases rfl

/-! Only `bind` makes the host grant a lease. -/

theorem granted_releaseInner (id : BindingId) (cause : ReleaseCause) :
    (s.releaseInner id cause).2.host.granted = s.host.granted := by
  cases here : s.bindings[id]? with
  | none => rw [releaseInner_gone cause here]
  | some b =>
    obtain ⟨w, receipt, run, granted, -⟩ := releaseInner_live cause here
    rw [run]
    exact granted

theorem granted_releaseEach (cause : ReleaseCause) (ids : List BindingId) :
    (releaseEach cause ids s).2.host.granted = s.host.granted := by
  induction ids generalizing s with
  | nil => rfl
  | cons id rest ih => exact ih.trans (granted_releaseInner id cause)

theorem granted_release (handle : BindingHandle) : (s.release handle).2.host.granted = s.host.granted := by
  unfold release
  split
  · split_ifs
    · exact granted_releaseInner _ _
    · rfl
  · rfl

theorem granted_releaseSession (window : WindowId) (session : SessionId) :
    (s.releaseSession window session).2.host.granted = s.host.granted := by
  unfold releaseSession
  split
  · rfl
  · exact granted_releaseInner _ _

theorem granted_enqueue (event : SessionEvent) (id : BindingId) (b : Binding) :
    (s.enqueue size event id b).2.host.granted = s.host.granted := by
  have released := granted_releaseInner (s := s) id .terminalEventLost
  unfold enqueue
  split_ifs
  · split
    · rename_i run
      rw [run] at released
      exact released
    · rename_i run
      rw [run] at released
      exact released
  · rfl

theorem granted_deliverEvent (event : SessionEvent) : (s.deliverEvent size event).2.host.granted = s.host.granted := by
  unfold deliverEvent
  split
  · rfl
  · split
    · rfl
    · split
      · rfl
      · exact granted_enqueue _ _ _

theorem granted_drainEvents (handle : BindingHandle) : (s.drainEvents handle).2.host.granted = s.host.granted := by
  unfold drainEvents
  split
  · rfl
  · split_ifs
    · rfl
    · split
      · rfl
      · exact granted_releaseInner (s := s.modified handle.binding Binding.drained) _ _

theorem granted_perform (op : SeamOp) : s.host.granted <+: (s.perform size op).2.host.granted := by
  have unchanged (s' : AttachSeam (Watched H)) (same : s'.host.granted = s.host.granted) : s.host.granted <+: s'.host.granted :=
    same ▸ List.prefix_rfl
  cases op with
  | bind request => exact (bound request s).granted
  | release handle => exact unchanged _ (granted_release handle)
  | releaseSession window session => exact unchanged _ (granted_releaseSession window session)
  | deliverEvent event => exact unchanged _ (granted_deliverEvent event)
  | drainEvents handle => exact unchanged _ (granted_drainEvents handle)
  | onWindowClosed window => exact unchanged _ (granted_releaseEach _ _)
  | onSessionTerminated session => exact unchanged _ (granted_releaseEach _ _)
  | onDaemonStopped => exact unchanged _ (granted_releaseEach _ _)
  | onDaemonStarted => exact List.prefix_rfl

theorem granted_run (ops : List SeamOp) : s.host.granted <+: (s.run size ops).1.host.granted := by
  induction ops generalizing s with
  | nil => exact List.prefix_rfl
  | cons op rest ih => exact (granted_perform op).trans ih

theorem releaseInner_drained {id : BindingId} {b : Binding} (cause : ReleaseCause) (here : s.bindings[id]? = some b) :
    ∃ (w : Watched H) (receipt : ReleaseReceipt), (s.modified id Binding.drained).releaseInner id cause =
        (some receipt, (s.remove id b).after s.nextBinding w) ∧
      w.granted = s.host.granted ∧ w.returned = s.host.returned ++ [b.attachId] ∧
      receipt.binding.handle = b.handle ∧ 0 = receipt.discardedEvents := by
  have emptied : (s.modified id Binding.drained).bindings[id]? = some b.drained := by
    change (s.bindings.modify id Binding.drained)[id]? = _
    rw [TreeMap.find_modify, if_pos rfl, here]
    rfl
  have table : (s.bindings.modify id Binding.drained).erase id = s.bindings.erase id := by
    refine Std.ExtTreeMap.ext_getElem? fun id' => ?_
    rw [TreeMap.find_erase, TreeMap.find_erase, TreeMap.find_modify]
    split_ifs <;> rfl
  have gone : (s.modified id Binding.drained).remove id b.drained = s.remove id b := by
    unfold remove modified
    rw [table]
    rfl
  obtain ⟨w, receipt, run, granted, returned, snapshot, -, discarded⟩ := releaseInner_live cause emptied
  rw [gone] at run
  exact ⟨w, receipt, run, granted, returned, congrArg SessionBinding.handle snapshot, discarded.symm⟩

namespace Holds

theorem releaseInner (held : Holds size hist s) (id : BindingId) (cause : ReleaseCause) :
    Holds size (hist.release (s.releaseInner id cause).1.toList) (s.releaseInner id cause).2 := by
  cases here : s.bindings[id]? with
  | none =>
    rw [releaseInner_gone cause here]
    exact hist.release_nil.symm ▸ held
  | some b =>
    obtain ⟨w, receipt, run, granted, returned, snapshot, -, discarded⟩ := releaseInner_live cause here
    have named : receipt.binding.handle = b.handle := congrArg SessionBinding.handle snapshot
    have closed := held.close here granted returned named [] b.events rfl discarded.symm
    rw [run, ← hist.drain_nil b.handle]
    exact closed

theorem releaseEach (held : Holds size hist s) (cause : ReleaseCause) (ids : List BindingId) :
    Holds size (hist.release (AttachSeam.releaseEach cause ids s).1) (AttachSeam.releaseEach cause ids s).2 := by
  induction ids generalizing s hist with
  | nil => exact hist.release_nil.symm ▸ held
  | cons id rest ih =>
    have first := ih (held.releaseInner id cause)
    rw [← History.release_append] at first
    exact first

theorem outcome (held : Holds size hist s) (op : SeamOp) (id : BindingId) :
    Holds size (hist.record ⟨op, .released (outcomeOf (s.releaseInner id .requested).1)⟩) (s.releaseInner id .requested).2 := by
  have released := held.releaseInner id .requested
  cases answer : (s.releaseInner id .requested).1 with
  | none =>
    rw [answer] at released
    have same : hist.record ⟨op, .released .notAttached⟩ = hist.release [] := by
      rw [hist.release_nil]
      cases op <;> rfl
    exact same ▸ released
  | some receipt =>
    rw [answer] at released
    have same : hist.record ⟨op, .released (.released receipt)⟩ = hist.release [receipt] := by cases op <;> rfl
    exact same ▸ released

omit [SessionHost H] in
theorem still (held : Holds size hist s) (op : SeamOp) : Holds size (hist.record ⟨op, .released .notAttached⟩) s := by
  have same : hist.record ⟨op, .released .notAttached⟩ = hist := by cases op <;> rfl
  exact same.symm ▸ held

theorem release (held : Holds size hist s) (handle : BindingHandle) :
    Holds size (hist.record ⟨.release handle, .released (s.release handle).1⟩) (s.release handle).2 := by
  unfold AttachSeam.release
  split
  · split_ifs
    · exact held.outcome (.release handle) handle.binding
    · exact held.still (.release handle)
  · exact held.still (.release handle)

theorem releaseSession (held : Holds size hist s) (window : WindowId) (session : SessionId) :
    Holds size (hist.record ⟨.releaseSession window session, .released (s.releaseSession window session).1⟩)
      (s.releaseSession window session).2 := by
  unfold AttachSeam.releaseSession
  split
  · exact held.still (.releaseSession window session)
  · exact held.outcome (.releaseSession window session) _

theorem deliverEvent (held : Holds size hist s) (event : SessionEvent) :
    Holds size (hist.record ⟨.deliverEvent event, .delivered (s.deliverEvent size event).1⟩) (s.deliverEvent size event).2 := by
  unfold AttachSeam.deliverEvent
  split
  · exact held
  rename_i id found
  split
  · exact held
  rename_i b here
  split
  · rename_i delivery refused
    unfold dropped at refused
    split_ifs at refused <;> cases refused <;> exact held
  rename_i passed
  unfold enqueue
  split_ifs with full
  · have released := held.releaseInner id .terminalEventLost
    split
    · rename_i run
      rw [run] at released
      exact released
    · rename_i run
      rw [run] at released
      exact hist.release_nil ▸ released
  · exact held.accept here passed full

theorem drainEvents (held : Holds size hist s) (handle : BindingHandle) :
    Holds size (hist.record ⟨.drainEvents handle, .drained (s.drainEvents handle).1⟩) (s.drainEvents handle).2 := by
  unfold AttachSeam.drainEvents
  split
  · exact held
  rename_i b here
  split_ifs with named
  · exact held
  simp only [ne_eq, Decidable.not_not] at named
  split
  · rename_i running
    have drained := held.drain here running
    rw [named, ← History.release_nil (hist.drain handle b.events)] at drained
    exact drained
  · rename_i closing _
    obtain ⟨w, receipt, run, granted, returned, name, discarded⟩ := releaseInner_drained closing.cause here
    have closed := held.close here granted returned name b.events [] (List.append_nil _) discarded
    have run : AttachSeam.releaseInner handle.binding closing.cause
      { s with bindings := s.bindings.modify handle.binding Binding.drained } = _ := run
    dsimp only
    rw [run]
    rw [named] at closed
    exact closed

theorem perform (held : Holds size hist s) (op : SeamOp) (once : (s.perform size op).2.host.granted.Nodup) :
    Holds size (hist.record ⟨op, (s.perform size op).1⟩) (s.perform size op).2 := by
  cases op with
  | bind request => exact (bound request s).holds held once
  | release handle => exact held.release handle
  | releaseSession window session => exact held.releaseSession window session
  | deliverEvent event => exact held.deliverEvent event
  | drainEvents handle => exact held.drainEvents handle
  | onWindowClosed window => exact held.releaseEach _ _
  | onSessionTerminated session => exact held.releaseEach _ _
  | onDaemonStopped => exact (held.onDaemon false).releaseEach _ _
  | onDaemonStarted => exact held.onDaemon true

theorem run (held : Holds size hist s) (ops : List SeamOp) (once : (s.run size ops).1.host.granted.Nodup) :
    Holds size ((s.run size ops).2.foldl History.record hist) (s.run size ops).1 := by
  induction ops generalizing s hist with
  | nil => exact held
  | cons op rest ih =>
    have now : (s.perform size op).2.host.granted.Nodup := once.sublist (granted_run rest).sublist
    exact ih (held.perform op now) once

end Holds

omit [SessionHost H] in
theorem new_ok {host : H} {config : AttachConfig} {opened : AttachSeam H} (made : new host config = .ok opened) :
    opened =
      { host, config, daemonAvailable := true, nextBinding := 1, bindings := ∅, byKey := ∅, byAttach := ∅,
        windowCounts := ∅ } := by
  unfold new at made
  split_ifs at made
  exact (Except.ok.inj made).symm

omit [SessionHost H] in
theorem Holds.new {host : H} {config : AttachConfig} (made : AttachSeam.new ⟨host, []⟩ config = .ok s) : Holds size {} s := by
  rw [new_ok made]
  have nothing (id : BindingId) (b : Binding) : ¬(∅ : Std.ExtTreeMap BindingId Binding)[id]? = some b := by simp
  refine ⟨⟨.empty, .empty, .empty, fun id b live => absurd live (nothing id b), fun window => ?_⟩, fun a => ?_, ?_,
    fun _ => .nil, fun id b live => absurd live (nothing id b)⟩
  · rw [tally_empty]
    exact Nat.zero_le _
  · rw [tally_empty]
    rfl
  · refine ⟨nofun, fun handle => ⟨nofun, ?_⟩, nofun, List.nodup_nil, nofun, fun _ _ => ⟨rfl, rfl⟩⟩
    rintro (⟨b, live, -⟩ | member)
    · exact absurd live (nothing _ b)
    · cases member

def Holder (s : AttachSeam (Watched H)) (a : AttachId) (id : BindingId) : Prop :=
  ∃ b : Binding, s.bindings[id]? = some b ∧ b.attachId = a

def Live (s : AttachSeam (Watched H)) (handle : BindingHandle) : Prop :=
  ∃ b : Binding, s.bindings[handle.binding]? = some b ∧ b.handle = handle

structure Conserved (size : Nat) (entries : List SeamEntry) (s : AttachSeam (Watched H)) : Prop where
  keys : IsIndex s.bindings Binding.key s.byKey
  leases : IsIndex s.bindings Binding.attachId s.byAttach
  windows : IsTally s.bindings Binding.window s.windowCounts
  capped : ∀ (window : WindowId) (count : Nat), s.windowCounts[window]? = some count → count ≤ s.config.maxBindingsPerWindow
  granted : ∀ a ∈ s.host.granted,
    ((∃! id, s.Holder a id) ∧ a ∉ s.host.returned) ∨ (¬∃ id, s.Holder a id) ∧ s.host.returned.count a = 1
  refused : ∀ request e, (bind request s).1 = .error e →
    (bind request s).2.bindings = s.bindings ∧ (bind request s).2.byKey = s.byKey ∧
      (bind request s).2.byAttach = s.byAttach ∧ (bind request s).2.windowCounts = s.windowCounts
  queues : ∀ (id : BindingId) (b : Binding), s.bindings[id]? = some b →
    (history entries).drained b.handle ++ b.events = (history entries).accepted b.handle ∧
      b.events.length ≤ s.config.maxQueuedEventsPerBinding ∧ b.queuedBytes = b.events.length * size ∧
      b.queuedBytes ≤ MAX_QUEUED_EVENT_BYTES_PER_BINDING
  accepted : ∀ handle, Orderly ((history entries).accepted handle)
  bound : ∀ (id : BindingId) (b : Binding), s.bindings[id]? = some b → b.handle ∈ (history entries).bound
  released : ∀ handle ∈ (history entries).bound,
    (s.Live handle ∧ handle ∉ (history entries).released) ∨
      ¬s.Live handle ∧ (history entries).released.count handle = 1
  discarded : ∀ r ∈ (history entries).receipts, ∃ left,
    (history entries).drained r.binding.handle ++ left = (history entries).accepted r.binding.handle ∧
      left.length = r.discardedEvents

omit [SessionHost H] in
theorem Holds.granted (held : Holds size hist s) (once : s.host.granted.Nodup) {a : AttachId} (member : a ∈ s.host.granted) :
    ((∃! id, s.Holder a id) ∧ a ∉ s.host.returned) ∨ (¬∃ id, s.Holder a id) ∧ s.host.returned.count a = 1 := by
  have balance := held.balanced a
  rw [List.count_eq_one_of_mem once member] at balance
  cases found : s.byAttach[a]? with
  | none =>
    rw [held.indexed.tally_eq_zero found] at balance
    refine .inr ⟨?_, by omega⟩
    rintro ⟨id, b, here, rfl⟩
    rw [held.indexed.leases.find here] at found
    cases found
  | some id =>
    obtain ⟨b, here, rfl⟩ := held.indexed.leases.entry found
    have positive := tally_pos Binding.attachId here
    refine .inl ⟨⟨id, ⟨b, here, rfl⟩, ?_⟩, ?_⟩
    · rintro id' ⟨b', there, same⟩
      exact held.indexed.leases.unique there here same
    · rw [← List.count_eq_zero]
      omega

omit [SessionHost H] in
theorem Holds.released (held : Holds size hist s) {handle : BindingHandle} (member : handle ∈ hist.bound) :
    (s.Live handle ∧ handle ∉ hist.released) ∨ ¬s.Live handle ∧ hist.released.count handle = 1 := by
  rcases (held.settled.fate handle).mp member with ⟨b, here, rfl⟩ | gone
  · exact .inl ⟨⟨b, here, rfl⟩, held.settled.apart _ b here⟩
  · refine .inr ⟨?_, List.count_eq_one_of_mem held.settled.once gone⟩
    rintro ⟨b, here, rfl⟩
    exact held.settled.apart _ b here gone

/-- Whatever a host answers that grants no attach id twice, a seam that was opened over it and
performs any operations conserves its bindings, their leases and their events. -/
theorem run_conserves (size : Nat) {host : H} {config : AttachConfig} {opened : AttachSeam (Watched H)}
    (made : new ⟨host, []⟩ config = .ok opened) (ops : List SeamOp) (distinct : (opened.run size ops).1.host.granted.Nodup) :
    Conserved size (opened.run size ops).2 (opened.run size ops).1 := by
  have held : Holds size (history (opened.run size ops).2) (opened.run size ops).1 := (Holds.new made).run ops distinct
  exact
    { keys := held.indexed.keys
      leases := held.indexed.leases
      windows := held.indexed.windows
      capped := fun window count counted => by
        have capped := held.indexed.capped window
        rw [← held.indexed.windows.getD, counted] at capped
        exact capped
      granted := fun a member => held.granted distinct member
      refused := fun request e refusal => by
        have outcome := AttachSeam.bound request (opened.run size ops).1
        rw [refusal] at outcome
        exact outcome.refusal
      queues := fun id b live => by
        have follows := held.follows id b live
        exact ⟨follows.whole, follows.room, follows.bytes, follows.fits⟩
      accepted := held.orderly
      bound := fun id b live => held.settled.bound_of_live held.indexed live
      released := fun handle member => held.released member
      discarded := held.settled.rest }

structure CountingHost where
  next : Nat := 0

instance : SessionHost CountingHost where
  attach request h := (.ok ⟨⟨BitVec.ofNat 128 h.next⟩, request.role, request.expectedGeneration.getD 0⟩, ⟨h.next + 1⟩)
  detach _ _ h := (.ok ⟨true⟩, h)

def countingSeam : AttachSeam (Watched CountingHost) where
  host := ⟨{}, []⟩
  config := {}
  daemonAvailable := true
  nextBinding := 1
  bindings := ∅
  byKey := ∅
  byAttach := ∅
  windowCounts := ∅

def observerRequest (window : Nat) : AttachRequest :=
  ⟨⟨window⟩, ⟨3⟩, ⟨7⟩, .observer, none, none, some "grant".toList⟩

def twoWindows : List SeamOp :=
  [.bind (observerRequest 1), .bind (observerRequest 2), .deliverEvent ⟨⟨7⟩, ⟨0⟩, 4, .sessionState, .none⟩,
    .deliverEvent ⟨⟨7⟩, ⟨0⟩, 4, .sessionState, .none⟩,
    .deliverEvent ⟨⟨7⟩, ⟨0⟩, 5, .sessionTerminal, .terminal .exited .workerExit⟩, .drainEvents ⟨⟨1⟩, ⟨1⟩⟩, .onDaemonStopped]

theorem twoWindows_conserves : Conserved 72 (countingSeam.run 72 twoWindows).2 (countingSeam.run 72 twoWindows).1 := by
  have opened : new (⟨{}, []⟩ : Watched CountingHost) {} = .ok countingSeam := rfl
  exact run_conserves 72 opened twoWindows (by decide)

example : (countingSeam.run 72 twoWindows).1.host.granted = [⟨0⟩, ⟨1⟩] ∧
    (countingSeam.run 72 twoWindows).1.host.returned = [⟨0⟩, ⟨1⟩] ∧
    ((history (countingSeam.run 72 twoWindows).2).drained ⟨⟨1⟩, ⟨1⟩⟩).map (·.revision) = [4, 5] := by decide

end Bitty.Attach.AttachSeam
