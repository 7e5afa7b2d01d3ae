import Bitty.Daemon.Lease.Run

/-! In every state of every run the registry, the lease tables, the controllers and the reverse index are in step. -/

namespace Bitty.Daemon

open Std (ExtTreeMap)

structure SessionHost.InStep (h : SessionHost) : Prop where
  owned : ∀ (a : AttachId) s, h.leaseSessions[a]? = some s ↔
    ∃ st l, h.sessions[s]? = some st ∧ (st.leases[a]? : Option Lease) = some l
  controller : ∀ (s : SessionId) st a, h.sessions[s]? = some st →
    (st.controller = some a ↔ (∃ l : Lease, st.leases[a]? = some l ∧ l.role = .controller) ∧
      ∀ b (l : Lease), st.leases[b]? = some l → l.role = .controller → b = a)
  observers : ∀ (s : SessionId) st now, h.sessions[s]? = some st → st.liveObservers now ≤ h.limits.maxAttachesPerSession
  records : ∀ (s : SessionId) st, h.sessions[s]? = some st → st.leases.size ≤ h.limits.maxAttachesPerSession + 1
  counted : ∀ (s : SessionId) r st, (h.registry.live[s]?.or h.registry.retained[s]?) = some r → h.sessions[s]? = some st →
    r.attachCount = st.leases.size
  stopping : ∀ (s : SessionId) r st, (h.registry.live[s]?.or h.registry.retained[s]?) = some r → h.sessions[s]? = some st →
    (st.stop.isSome ↔ r.state = .stopping)
  cancelling : ∀ (s : SessionId) r st, (h.registry.live[s]?.or h.registry.retained[s]?) = some r → h.sessions[s]? = some st →
    st.cancel.isSome → r.state = .created
  terminal : ∀ (s : SessionId) r st, (h.registry.live[s]?.or h.registry.retained[s]?) = some r → h.sessions[s]? = some st →
    r.state.isTerminal = true →
    st.leases = ∅ ∧ st.controller = none ∧ st.stop = none ∧ st.cancel = none ∧ st.token = .retired

theorem SessionLeaseState.liveObservers_le (st : SessionLeaseState) (now : MonotonicMs) :
    st.liveObservers now ≤ st.observers := by
  refine TreeMap.size_le_of_sub fun a l here => ?_
  rw [TreeMap.find_filter, Option.filter_eq_some_iff, Bool.and_eq_true] at here
  rw [TreeMap.find_filter, Option.filter_eq_some_iff]
  exact ⟨here.1, here.2.1⟩

namespace SessionHost

variable {digest : ControlToken → ControlTokenDigest} {h : SessionHost} {s : SessionId} {st : SessionLeaseState}
  {r : SessionRecord}

theorem Sound.recorded (sound : h.Sound) (record : (h.registry.live[s]?.or h.registry.retained[s]?) = some r)
    (state : h.sessions[s]? = some st) :
    h.slot s = .live r st ∨ r.state.isTerminal = true ∧ r.attachCount = 0 ∧ st.Settled := by
  rcases Option.or_eq_some_iff.mp record with live | ⟨unused, retained⟩
  · obtain ⟨st', slot⟩ := sound.live_slot live
    obtain rfl := Option.some.inj (state.symm.trans (congrArg Slot.state slot))
    exact .inl slot
  · obtain ⟨terminal, count⟩ := (sound.slots s).frozen r retained
    exact .inr ⟨terminal, count, (sound.slots s).settled st unused state⟩

theorem Sound.controller_unique (sound : h.Sound) (state : h.sessions[s]? = some st) (a : AttachId) :
    st.controller = some a ↔ (∃ l : Lease, st.leases[a]? = some l ∧ l.role = .controller) ∧
      ∀ b (l : Lease), st.leases[b]? = some l → l.role = .controller → b = a := by
  have controls := ((sound.slots s).table st state).controls
  constructor
  · intro controller
    refine ⟨(controls a).mp controller, fun b l lease role => ?_⟩
    have other := (controls b).mpr ⟨l, lease, role⟩
    exact Option.some.inj (other.symm.trans controller)
  · rintro ⟨held, -⟩
    exact (controls a).mpr held

theorem Sound.inStep (sound : h.Sound) (room : ∀ (s : SessionId) r, h.registry.live[s]? = some r → r.stateRevision < U64_MAX) :
    h.InStep where
  owned a s := sound.owned a s
  controller s st a state := sound.controller_unique state a
  observers s st now state := Nat.le_trans (st.liveObservers_le now) ((sound.slots s).table st state).observed
  records s st state := ((sound.slots s).table st state).size_le
  counted s r st record state := by
    rcases sound.recorded record state with live | ⟨-, count, settled⟩
    · have below := room s r (congrArg Slot.record live)
      exact ((sound.slots s).counted r st (congrArg Slot.record live) state).resolve_right (by omega)
    · rw [count, settled.leases]
      exact ExtTreeMap.size_empty.symm
  stopping s r st record state := by
    rcases sound.recorded record state with live | ⟨terminal, -, settled⟩
    · exact (sound.slots s).stopping r st (congrArg Slot.record live) state
    · rw [settled.stop]
      refine iff_of_false (by simp) fun stopping => ?_
      rw [stopping] at terminal
      cases terminal
  cancelling s r st record state cancel := by
    rcases sound.recorded record state with live | ⟨-, -, settled⟩
    · exact (sound.slots s).cancelling r st (congrArg Slot.record live) state cancel
    · rw [settled.cancel] at cancel
      cases cancel
  terminal s r st record state terminal := by
    rcases sound.recorded record state with live | ⟨-, -, settled⟩
    · rw [(sound.slots s).alive r (congrArg Slot.record live)] at terminal
      cases terminal
    · exact ⟨settled.leases, settled.controller, settled.stop, settled.cancel, settled.token⟩

/-- From the empty host, whatever the operations, their order and their instants. -/
theorem after_inStep (registryLimits : RegistryLimits) (sizeOfRecord : Nat) (registryEntropy : Entropy) (limits : LeaseLimits)
    (entropy : Entropy) (calls : List Call)
    (room : ∀ (s : SessionId) r,
      (after digest (empty registryLimits sizeOfRecord registryEntropy limits entropy) calls).registry.live[s]? = some r →
        r.stateRevision < U64_MAX) :
    (after digest (empty registryLimits sizeOfRecord registryEntropy limits entropy) calls).InStep :=
  (after_sound (sound_empty registryLimits sizeOfRecord registryEntropy limits entropy) calls).inStep room

theorem after_inStep_claimed :
    (after sampleDigest sampleHost
      [⟨.create {} .terminal, 5⟩, ⟨.bind ⟨2⟩, 6⟩, ⟨.attachObserver ⟨2⟩, 7⟩, ⟨.claimController ⟨2⟩ 1 ⟨9⟩, 8⟩]).InStep :=
  after_inStep _ _ _ _ _ _ (TreeMap.forall_find _ (by decide))

end SessionHost

end Bitty.Daemon

/-! A refused operation leaves what was there before, but for due detaches. -/

namespace Bitty.Daemon.SessionHost

open Mutation

variable {digest : ControlToken → ControlTokenDigest} {now : MonotonicMs} {h : SessionHost} {s : SessionId} {r : SessionRecord}

/-- In every state that the host can reach a refusal is whole, up to the terminal transitions that overrun the revisions. -/
theorem refused_whole_iff (registryLimits : RegistryLimits) (sizeOfRecord : Nat) (registryEntropy : Entropy)
    (limits : LeaseLimits) (entropy : Entropy) (calls : List Call) (call : Call) (e : LeaseRefusal)
    (refused : (perform digest call
      (after digest (empty registryLimits sizeOfRecord registryEntropy limits entropy) calls)).1 = .error e) :
    Whole call.now (after digest (empty registryLimits sizeOfRecord registryEntropy limits entropy) calls)
        (perform digest call (after digest (empty registryLimits sizeOfRecord registryEntropy limits entropy) calls)).2 ↔
      ¬ call.op.Overruns (after digest (empty registryLimits sizeOfRecord registryEntropy limits entropy) calls) :=
  whole_iff (after_sound (sound_empty registryLimits sizeOfRecord registryEntropy limits entropy) calls) refused

theorem refused_whole_iff_token :
    Whole 6 (after sampleDigest sampleHost [⟨.create {} .terminal, 5⟩])
        (perform sampleDigest ⟨.claimController ⟨2⟩ 0 ⟨11⟩, 6⟩ (after sampleDigest sampleHost [⟨.create {} .terminal, 5⟩])).2 ↔
      ¬ (Op.claimController ⟨2⟩ 0 ⟨11⟩).Overruns (after sampleDigest sampleHost [⟨.create {} .terminal, 5⟩]) :=
  refused_whole_iff _ _ _ _ _ _ ⟨.claimController ⟨2⟩ 0 ⟨11⟩, 6⟩ .invalidControlToken (by decide)

theorem after_append (h : SessionHost) (first second : List Call) :
    after digest h (first ++ second) = after digest (after digest h first) second :=
  Transducer.run_append_fst h first second

variable (digest now) in
theorem after_grants (n : Nat) (record : h.registry.live[s]? = some r) (alive : r.state.isTerminal = false)
    (room : r.stateRevision + n ≤ U64_MAX) :
    ∃ r', r.Aged r' ∧ r'.stateRevision = r.stateRevision + n ∧
      after digest h (List.replicate n ⟨.recordGrantMutation s, now⟩) = h.putRecord s r' := by
  induction n generalizing h r with
  | zero => exact ⟨r, .refl r, rfl, (putRecord_same record).symm⟩
  | succ n ih =>
    have revised : r.noteVisibleMutation now =
        .ok { r with stateRevision := r.stateRevision + 1, stateChangedAt := now, lastSeen := now } := by
      rw [SessionRecord.noteVisibleMutation, SessionRecord.refuseTerminal_of_live alive]
      simp only [SessionRecord.revise, checkedAdd]
      rw [if_pos (by omega)]
      rfl
    have noted : (step digest h ⟨.recordGrantMutation s, now⟩).1 =
        h.putRecord s { r with stateRevision := r.stateRevision + 1, stateChangedAt := now, lastSeen := now } := by
      have granted : onRegistry (SessionRegistry.mutate s (·.noteVisibleMutation now)) h = _ := onRegistry_of_ok record revised
      simp only [step, perform, bind_pure_apply, recordGrantMutation, SessionRegistry.noteVisibleMutation]
      rw [bind_of_ok granted]
      rfl
    obtain ⟨r', aged, revision, reached⟩ := ih (h := (step digest h ⟨.recordGrantMutation s, now⟩).1)
      (r := { r with stateRevision := r.stateRevision + 1, stateChangedAt := now, lastSeen := now })
      (by rw [noted, find_putRecord]) alive (by simp only; omega)
    refine ⟨r', ?_, ?_, ?_⟩
    · exact SessionRecord.Aged.trans ⟨Nat.le_succ _, rfl⟩ aged
    · simp only at revision
      omega
    · rw [List.replicate_succ]
      refine Eq.trans (b := after digest (step digest h ⟨.recordGrantMutation s, now⟩).1 _) rfl ?_
      rw [reached, noted, putRecord_putRecord]

/-- A worker exits when one revision is left and one lease is attached: the lease stays and its count is gone. -/
theorem refused_not_whole :
    (perform sampleDigest ⟨.recordTermination ⟨2⟩ (.exited 0) .swept, 9⟩
        (after sampleDigest sampleHost ([⟨.create {} .terminal, 5⟩, ⟨.bind ⟨2⟩, 6⟩, ⟨.attachObserver ⟨2⟩, 7⟩] ++
          List.replicate (U64_MAX - 3) ⟨.recordGrantMutation ⟨2⟩, 8⟩))).1 = .error .revisionOverflow ∧
      ¬ Whole 9
        (after sampleDigest sampleHost ([⟨.create {} .terminal, 5⟩, ⟨.bind ⟨2⟩, 6⟩, ⟨.attachObserver ⟨2⟩, 7⟩] ++
          List.replicate (U64_MAX - 3) ⟨.recordGrantMutation ⟨2⟩, 8⟩))
        (perform sampleDigest ⟨.recordTermination ⟨2⟩ (.exited 0) .swept, 9⟩
          (after sampleDigest sampleHost ([⟨.create {} .terminal, 5⟩, ⟨.bind ⟨2⟩, 6⟩, ⟨.attachObserver ⟨2⟩, 7⟩] ++
            List.replicate (U64_MAX - 3) ⟨.recordGrantMutation ⟨2⟩, 8⟩))).2 := by
  rw [after_append]
  have start : (after sampleDigest sampleHost [⟨.create {} .terminal, 5⟩, ⟨.bind ⟨2⟩, 6⟩, ⟨.attachObserver ⟨2⟩, 7⟩]).Sound :=
    after_sound (sound_empty _ _ _ _ _) _
  have record : (after sampleDigest sampleHost
      [⟨.create {} .terminal, 5⟩, ⟨.bind ⟨2⟩, 6⟩, ⟨.attachObserver ⟨2⟩, 7⟩]).registry.live[(⟨2⟩ : SessionId)]?.map
        (fun r => (r.state, r.stateRevision)) = some (.running, 2) := by decide
  have state : (after sampleDigest sampleHost
      [⟨.create {} .terminal, 5⟩, ⟨.bind ⟨2⟩, 6⟩, ⟨.attachObserver ⟨2⟩, 7⟩]).sessions[(⟨2⟩ : SessionId)]?.map
        (fun st => st.leases.size) = some 1 := by decide
  generalize after sampleDigest sampleHost [⟨.create {} .terminal, 5⟩, ⟨.bind ⟨2⟩, 6⟩, ⟨.attachObserver ⟨2⟩, 7⟩] = h
    at start record state
  obtain ⟨r, record, core⟩ := Option.map_eq_some_iff.mp record
  obtain ⟨running, revision⟩ := Prod.mk.inj core
  obtain ⟨st, live⟩ := start.live_slot record
  obtain ⟨st', state', one⟩ := Option.map_eq_some_iff.mp state
  obtain rfl := Option.some.inj (state'.symm.trans (congrArg Slot.state live))
  obtain ⟨r', aged, last, reached⟩ := after_grants sampleDigest 8 (U64_MAX - 3) record
    (by rw [running]; rfl) (by rw [revision]; decide)
  have sound : (h.putRecord ⟨2⟩ r').Sound := by
    rw [← reached]
    exact after_sound start _
  rw [reached]
  have live' : (h.putRecord ⟨2⟩ r').slot ⟨2⟩ = .live r' st' := by
    rw [slot_putRecord, if_pos rfl, live]
    rfl
  have running' : r'.state = .running := aged.state.trans running
  have room : r'.stateRevision + 1 = U64_MAX := by
    rw [last, revision]
    decide
  have overruns : (Op.recordTermination ⟨2⟩ (.exited 0) .swept).Overruns (h.putRecord ⟨2⟩ r') := by
    refine ⟨⟨.workerExit, .exitCode 0, .swept, none⟩, .worker, ⟨r', st', .workerExit, .exitCode 0, live', ?_, rfl⟩,
      r', st', (.exited, r'.stateRevision + 1), live', ?_, ?_⟩
    · have state : r'.snapshot.state = .running := running'
      unfold classify
      rw [state]
    · unfold SessionRecord.checkTerminalTransition
      rw [running']
      simp only [checkedAdd, if_pos (Nat.le_of_eq room)]
      rfl
    · rw [one]
      omega
  have run : perform sampleDigest ⟨.recordTermination ⟨2⟩ (.exited 0) .swept, 9⟩ (h.putRecord ⟨2⟩ r') = (_, _) := rfl
  obtain ⟨s, stranded⟩ := perform_overruns sound overruns run
  refine ⟨?_, stranded.not_whole⟩
  obtain ⟨outcome, actor, asked, short⟩ := overruns
  obtain ⟨h₁, refused, -⟩ := short.refused sound 9 (asked.caused sound)
  rw [← asked.finish sound] at refused
  exact congrArg Prod.fst (bind_of_error refused fun x => pure (Answer.termination x))

end Bitty.Daemon.SessionHost
