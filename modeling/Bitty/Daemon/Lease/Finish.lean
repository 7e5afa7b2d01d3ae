import Bitty.Daemon.Lease.Ending

/-! The terminal transition: each lease gives up its count, then the record is settled, or the revisions run out
between the two. -/

namespace Bitty.Daemon

open Std (ExtTreeMap)

namespace SessionRegistry

theorem mem_insertOrdered {entry other : MonotonicMs × SessionId} {order : List (MonotonicMs × SessionId)} :
    other ∈ insertOrdered entry order ↔ other = entry ∨ other ∈ order := by
  induction order with
  | nil => simp [insertOrdered]
  | cons first rest ih =>
    unfold insertOrdered
    split_ifs with same earlier
    · simp [same]
    · simp
    · simp only [List.mem_cons, ih]
      exact or_left_comm

theorem nodup_insertOrdered {entry : MonotonicMs × SessionId} {order : List (MonotonicMs × SessionId)}
    (distinct : (order.map Prod.snd).Nodup) (fresh : entry.2 ∉ order.map Prod.snd) :
    ((insertOrdered entry order).map Prod.snd).Nodup := by
  induction order with
  | nil => simp [insertOrdered]
  | cons first rest ih =>
    rw [List.map_cons, List.nodup_cons] at distinct
    rw [List.map_cons, List.mem_cons, not_or] at fresh
    unfold insertOrdered
    split_ifs with same earlier
    · exact absurd (congrArg Prod.snd same) fresh.1
    · simp only [List.map_cons, List.nodup_cons, List.mem_cons, not_or]
      exact ⟨fresh, distinct⟩
    · rw [List.map_cons, List.nodup_cons]
      refine ⟨fun inside => ?_, ih distinct.2 fresh.2⟩
      obtain ⟨other, member, eq⟩ := List.mem_map.mp inside
      rcases mem_insertOrdered.mp member with rfl | later
      · exact fresh.1 eq
      · exact distinct.1 (List.mem_map.mpr ⟨other, later, eq⟩)

end SessionRegistry

section

variable {now : MonotonicMs} {n : Nat} {r r' : SessionRecord} {outcome : TerminalOutcome}

theorem Slot.Released.revision (released : Slot.Released now n r r') :
    r'.stateRevision ≤ r.stateRevision + n ∧ (n ≤ r.attachCount → r'.stateRevision = r.stateRevision + n) := by
  induction released with
  | none => simp
  | @one n r r₁ r₂ first rest ih =>
    obtain ⟨upper, exact⟩ := ih
    obtain ⟨-, ⟨zero, rfl⟩ | ⟨positive, -, rfl⟩⟩ := SessionRecord.detach_ok first
    · simp only at upper exact
      exact ⟨by omega, by omega⟩
    · simp only at upper exact
      exact ⟨by omega, fun enough => by have same := exact (by omega); omega⟩

theorem SessionRecord.checkTerminalTransition_same {x : LifecycleState × Nat} (state : r'.state = r.state)
    (passed : r.checkTerminalTransition outcome = .ok x) :
    r'.stateRevision < U64_MAX ∧ r'.checkTerminalTransition outcome = .ok (x.1, r'.stateRevision + 1) ∨
      U64_MAX ≤ r'.stateRevision ∧ r'.checkTerminalTransition outcome = .error .revisionOverflow := by
  unfold checkTerminalTransition at passed ⊢
  dsimp only at passed ⊢
  rw [state]
  split_ifs at passed ⊢
  obtain ⟨revision, -, same⟩ := Except.bind_ok passed
  obtain rfl := Except.ok.inj same
  by_cases room : r'.stateRevision < U64_MAX
  · refine .inl ⟨room, ?_⟩
    rw [checkedAdd, if_pos (by omega)]
    rfl
  · refine .inr ⟨by omega, ?_⟩
    rw [checkedAdd, if_neg (by omega)]
    rfl

end

namespace SessionHost

open Mutation

variable {digest : ControlToken → ControlTokenDigest} {now : MonotonicMs} {h h' h₁ : SessionHost} {s t : SessionId}
  {a : AttachId} {r r' : SessionRecord} {st st' : SessionLeaseState} {outcome : TerminalOutcome} {actor : Actor}
  {target : LifecycleState} {revision : Nat}

theorem putRecord_same (record : h.registry.live[s]? = some r) : h.putRecord s r = h := by
  have same : h.registry.live.insert s r = h.registry.live := by
    refine ExtTreeMap.ext_getElem? fun t => ?_
    rw [TreeMap.find_insert]
    split_ifs with eq
    · rw [← eq, record]
    · rfl
  rw [putRecord, same]

@[simp] theorem putRecord_putRecord (h : SessionHost) (s : SessionId) (r r' : SessionRecord) :
    (h.putRecord s r).putRecord s r' = h.putRecord s r' := by
  have same : (h.registry.live.insert s r).insert s r' = h.registry.live.insert s r' := by
    refine ExtTreeMap.ext_getElem? fun t => ?_
    rw [TreeMap.find_insert, TreeMap.find_insert, TreeMap.find_insert]
    split_ifs <;> rfl
  simp only [putRecord, same]

theorem find_putRecord (h : SessionHost) (s : SessionId) (r : SessionRecord) :
    (h.putRecord s r).registry.live[s]? = some r := by
  have found : (h.registry.live.insert s r)[s]? = some r := by rw [TreeMap.find_insert, if_pos rfl]
  exact found

theorem releaseCounts_cases {ids : List AttachId} {answer : Except LeaseRefusal Unit} (record : h.registry.live[s]? = some r)
    (alive : r.state.isTerminal = false) (run : releaseCounts s now ids h = (answer, h')) :
    ∃ n r', Slot.Released now n r r' ∧ h' = h.putRecord s r' ∧
      (answer = .ok () ∧ n = ids.length ∨
        answer = .error .revisionOverflow ∧ U64_MAX ≤ r'.stateRevision ∧ n < ids.length) := by
  induction ids generalizing h r with
  | nil =>
    obtain ⟨rfl, rfl⟩ := Prod.mk.inj run
    exact ⟨0, r, .none r, (putRecord_same record).symm, .inl ⟨rfl, rfl⟩⟩
  | cons a rest ih =>
    unfold releaseCounts at run
    rcases bind_cases run with ⟨e, first, rfl⟩ | ⟨session, h₁, first, run⟩
    · rcases onRegistry_cases first with ⟨e', eq, rfl, refused⟩ | ⟨_, _, _, _, impossible, _⟩
      · obtain ⟨refusal, overflow, rfl⟩ := refused r record
        obtain ⟨-, full, rfl⟩ := SessionRecord.detach_error alive overflow
        obtain rfl := Except.error.inj eq
        exact ⟨0, r, .none r, (putRecord_same record).symm, .inr ⟨rfl, full, by simp⟩⟩
      · cases impossible
    · rcases onRegistry_cases first with ⟨_, impossible, _⟩ | ⟨r₀, r₁, record', detached, -, rfl⟩
      · cases impossible
      obtain rfl := Option.some.inj (record.symm.trans record')
      have alive₁ : r₁.state.isTerminal = false := by rw [(SessionRecord.aged_detach detached).state, alive]
      obtain ⟨n, r', released, rfl, done⟩ := ih (find_putRecord h s r₁) alive₁ run
      refine ⟨n + 1, r', .one detached released, putRecord_putRecord h s r₁ r', ?_⟩
      rcases done with ⟨rfl, rfl⟩ | ⟨rfl, full, fewer⟩
      · exact .inl ⟨rfl, rfl⟩
      · exact .inr ⟨rfl, full, by simpa using fewer⟩

def terminalised (h : SessionHost) (s : SessionId) (r : SessionRecord) (attached : List AttachId) (now : MonotonicMs) :
    SessionHost :=
  { h with
    registry := { h.registry with
      live := h.registry.live.erase s
      retained := h.registry.retained.insert s r
      retentionOrder := SessionRegistry.insertOrdered (now, s) h.registry.retentionOrder } }.settle s attached

theorem terminalised_moves (sound : h.Sound) (live : h.slot s = .live r st) (released : Slot.Released now st.leases.size r r')
    (checked : r'.checkTerminalTransition outcome = .ok (target, revision)) (caused : Slot.Caused st outcome.reason actor) :
    Moves digest (only s [.completed (r'.terminated outcome target revision now).snapshot outcome.reason actor]) h
      (h.terminalised s (r'.terminated outcome target revision now) st.leases.keys now) := by
  generalize ended : r'.terminated outcome target revision now = record
  have here : (h.terminalised s record st.leases.keys now).slot s = ⟨none, some record, some st.settled⟩ := by
    have unsettled : h.sessions[s]? = some st := congrArg Slot.state live
    simp only [slot, terminalised, settle, modifyState, TreeMap.find_modify, TreeMap.find_erase, TreeMap.find_insert, if_true,
      unsettled, Option.map_some]
    rfl
  have others (t : SessionId) (other : s ≠ t) : (h.terminalised s record st.leases.keys now).slot t = h.slot t := by
    simp only [slot, terminalised, settle, modifyState, TreeMap.find_modify, TreeMap.find_erase, TreeMap.find_insert,
      if_neg other]
  have unretained : h.registry.retained[s]? = none := congrArg Slot.retained live
  have fresh : s ∉ h.registry.retentionOrder.map Prod.snd := by
    intro inside
    have known := sound.ordered s inside
    rw [unretained] at known
    cases known
  have path : Slot.Path digest h.limits.maxAttachesPerSession (h.slot s)
      [.completed record.snapshot outcome.reason actor] ((h.terminalised s record st.leases.keys now).slot s) := by
    rw [here, live, ← ended]
    exact .one (.complete released checked caused)
  refine ⟨rfl, List.suffix_rfl, fun t => ?_, fun t => ?_, fun a t => ?_, ?_, fun t inside => ?_⟩
  · unfold only
    split_ifs with same
    · rw [← same]
      exact path
    · rw [others t same]
      exact .nil _
  · by_cases same : s = t
    · rw [← same]
      exact path.invariant Slot.Sound.move (sound.slots s)
    · rw [others t same]
      exact sound.slots t
  · have index : (h.terminalised s record st.leases.keys now).leaseSessions[a]? =
        if a ∈ st.leases.keys then none else h.leaseSessions[a]? := TreeMap.find_foldl_erase _ _ _
    have mine : h.leaseSessions[a]? = some s ↔ a ∈ st.leases.keys := by
      rw [ExtTreeMap.mem_keys, TreeMap.mem_iff, sound.owned a s, live, Slot.holds_live]
    rw [index]
    by_cases same : s = t
    · subst same
      rw [here]
      refine iff_of_false ?_ ?_
      · split_ifs with held
        · simp
        · exact fun owner => held (mine.mp owner)
      · rintro ⟨st', l, state, lease⟩
        obtain rfl := Option.some.inj state
        simp [SessionLeaseState.settled] at lease
    · rw [others t same]
      refine Iff.trans ?_ (sound.owned a t)
      split_ifs with held
      · rw [mine.mpr held]
        exact iff_of_false (by simp) fun eq => same (Option.some.inj eq)
      · exact Iff.rfl
  · exact SessionRegistry.nodup_insertOrdered sound.distinct fresh
  · have find : (h.terminalised s record st.leases.keys now).registry.retained[t]? =
        if s = t then some record else h.registry.retained[t]? := TreeMap.find_insert _ _ _ _
    rw [find]
    split_ifs with same
    · rfl
    · obtain ⟨entry, member, eq⟩ := List.mem_map.mp inside
      rcases SessionRegistry.mem_insertOrdered.mp member with rfl | old
      · exact absurd eq same
      · exact sound.ordered t (List.mem_map.mpr ⟨entry, old, eq⟩)

def Passes (h : SessionHost) (s : SessionId) (outcome : TerminalOutcome) : Prop :=
  ∃ r x, h.registry.live[s]? = some r ∧ r.checkTerminalTransition outcome = .ok x

def Overruns (h : SessionHost) (s : SessionId) (outcome : TerminalOutcome) : Prop :=
  ∃ r st x, h.slot s = .live r st ∧ r.checkTerminalTransition outcome = .ok x ∧ U64_MAX ≤ r.stateRevision + st.leases.size

/-- A passed check, then the revisions run out: some counts are given up, and no lease is. -/
def Stranded (now : MonotonicMs) (h : SessionHost) (s : SessionId) (h' : SessionHost) : Prop :=
  ∃ n r st r', h.slot s = .live r st ∧ r.stateRevision < U64_MAX ∧ Slot.Released now n r r' ∧ n ≤ st.leases.size ∧
    U64_MAX ≤ r'.stateRevision ∧ h' = h.putRecord s r'

theorem Stranded.moves (sound : h.Sound) (stranded : Stranded now h s h') : Moves digest silent h h' := by
  obtain ⟨n, r, st, r', live, -, released, within, full, rfl⟩ := stranded
  rw [← only_nil (s := s)]
  exact .record sound live (.release within released full)

theorem Stranded.not_whole {now' : MonotonicMs} (stranded : Stranded now h s h') : ¬ Whole now' h h' := by
  obtain ⟨n, r, st, r', live, room, released, -, full, rfl⟩ := stranded
  intro whole
  have kept := whole.live_of_sessions rfl
  have record : (h.putRecord s r').registry.live[s]? = some r := by
    rw [kept]
    exact congrArg Slot.record live
  rw [find_putRecord] at record
  obtain rfl := Option.some.inj record
  omega

variable (digest) in
theorem finishTerminal_cases {answer : Except LeaseRefusal Termination} (sound : h.Sound)
    (caused : ∀ r st x, h.slot s = .live r st → r.checkTerminalTransition outcome = .ok x →
      Slot.Caused st outcome.reason actor)
    (run : finishTerminal s outcome actor now h = (answer, h')) :
    (∃ e, answer = .error e ∧ h' = h ∧ ¬ h.Passes s outcome) ∨
      (answer = .error .revisionOverflow ∧ h.Overruns s outcome ∧ Stranded now h s h') ∨
      ∃ r st x, h.slot s = .live r st ∧ r.stateRevision + st.leases.size < U64_MAX ∧ answer = .ok x ∧
        Moves digest (only s x.told) h h' := by
  unfold finishTerminal at run
  rcases ask_bind_cases run with ⟨e, missing, rfl, rfl⟩ | ⟨st, found, run⟩
  · refine .inl ⟨e, rfl, rfl, ?_⟩
    rintro ⟨r, x, record, -⟩
    obtain ⟨st, live⟩ := sound.live_slot record
    rw [findState_ok.mpr (congrArg Slot.state live)] at missing
    cases missing
  have state := findState_ok.mp found
  rcases ask_bind_cases run with ⟨e, refused, rfl, rfl⟩ | ⟨x, checked, run⟩
  · refine .inl ⟨e, rfl, rfl, ?_⟩
    rintro ⟨r, x, record, passed⟩
    rw [SessionRegistry.checkTerminalTransition, record] at refused
    simp only [passed] at refused
    cases refused
  cases record : h.registry.live[s]? with
  | none =>
    rw [SessionRegistry.checkTerminalTransition, record] at checked
    cases checked
  | some r =>
    obtain ⟨st', live⟩ := sound.live_slot record
    obtain rfl := Option.some.inj (state.symm.trans (congrArg Slot.state live))
    have passed : ∃ x, r.checkTerminalTransition outcome = .ok x := by
      rw [SessionRegistry.checkTerminalTransition, record] at checked
      cases passed : r.checkTerminalTransition outcome with
      | ok x => exact ⟨x, rfl⟩
      | error e =>
        simp only [passed] at checked
        cases checked
    obtain ⟨x, passed⟩ := passed
    have room : r.stateRevision < U64_MAX := by
      have passed' : r.checkTerminalTransition outcome = .ok (x.1, x.2) := passed
      obtain ⟨-, -, -, room, -⟩ := SessionRecord.checkTerminalTransition_ok passed'
      exact room
    have alive := (sound.slots s).alive r record
    have counted := (((sound.slots s).counted r st record state).resolve_right (by omega))
    have count : (st.leases.keys).length = st.leases.size := ExtTreeMap.length_keys
    rcases bind_cases run with ⟨e, released, rfl⟩ | ⟨_, h₁, released, run⟩
    · obtain ⟨n, r', given, rfl, ⟨impossible, -⟩ | ⟨eq, full, fewer⟩⟩ := releaseCounts_cases record alive released
      · cases impossible
      · obtain rfl := Except.error.inj eq
        have upper := given.revision.1
        exact .inr (.inl ⟨rfl, ⟨r, st, x, live, passed, by omega⟩, n, r, st, r', live, room, given, by omega, full, rfl⟩)
    · obtain ⟨n, r', given, rfl, ⟨-, rfl⟩ | ⟨impossible, -⟩⟩ := releaseCounts_cases record alive released
      swap
      · cases impossible
      rw [count] at given
      have same := given.spec.2.1
      have spent := given.revision.2 (by omega)
      rw [bind_apply, onRegistry_apply, SessionRegistry.terminate, find_putRecord] at run
      rcases SessionRecord.checkTerminalTransition_same same passed with ⟨below, again⟩ | ⟨full, overflow⟩
      · have erased : (h.registry.live.insert s r').erase s = h.registry.live.erase s := by
          refine ExtTreeMap.ext_getElem? fun t => ?_
          rw [TreeMap.find_erase, TreeMap.find_erase, TreeMap.find_insert]
          split_ifs <;> rfl
        simp only [again, Except.mapError, putRecord, erased] at run
        rcases ask_bind_cases run with ⟨e, missing, -⟩ | ⟨_, -, run⟩
        · cases missing.symm.trans (findState_ok.mpr state)
        obtain ⟨rfl, rfl⟩ := Prod.mk.inj run
        have ended : Moves digest _ h _ := terminalised_moves sound live given again (caused r st x live passed)
        obtain ⟨gone, evicted⟩ := ((h.terminalised s (r'.terminated outcome x.1 (r'.stateRevision + 1) now) st.leases.keys
          now).registry).enforceRetentionCap_evicted
        exact .inr (.inr ⟨r, st, _, live, by omega, rfl, ended.silent_trans (evicted_moves ended.sound evicted)⟩)
      · simp only [overflow] at run
        obtain ⟨rfl, rfl⟩ := Prod.mk.inj run
        exact .inr (.inl ⟨rfl, ⟨r, st, x, live, passed, by omega⟩, _, r, st, r', live, room, given, Nat.le_refl _, full, rfl⟩)

theorem Overruns.refused (sound : h.Sound) (overruns : h.Overruns s outcome) (now : MonotonicMs)
    (caused : ∀ r st x, h.slot s = .live r st → r.checkTerminalTransition outcome = .ok x →
      Slot.Caused st outcome.reason actor) :
    ∃ h₁, finishTerminal s outcome actor now h = (.error .revisionOverflow, h₁) ∧ Stranded now h s h₁ := by
  obtain ⟨r, st, x, live, passed, short⟩ := overruns
  cases run : finishTerminal s outcome actor now h with
  | mk answer h' =>
  rcases finishTerminal_cases (fun token => ⟨token.bytes⟩) sound caused run with ⟨-, -, -, failed⟩ | ⟨rfl, -, stranded⟩ |
    ⟨r', st', -, live', room, -⟩
  · exact absurd ⟨r, x, congrArg Slot.record live, passed⟩ failed
  · exact ⟨h', rfl, stranded⟩
  · obtain rfl := Option.some.inj ((congrArg Slot.record live).symm.trans (congrArg Slot.record live'))
    obtain rfl := Option.some.inj ((congrArg Slot.state live).symm.trans (congrArg Slot.state live'))
    omega

def CancelOutcome (h : SessionHost) (s : SessionId) (cleanup : CleanupClass) (outcome : TerminalOutcome) (actor : Actor) : Prop :=
  ∃ r st intent, h.slot s = .live r st ∧ st.cancel = some intent ∧ actor = intent.actor ∧
    TerminalOutcome.new intent.reason .notApplicable cleanup = .ok outcome

def ExitOutcome (h : SessionHost) (s : SessionId) (observation : ExitObservation) (cleanup : CleanupClass)
    (outcome : TerminalOutcome) (actor : Actor) : Prop :=
  ∃ r st reason exit, h.slot s = .live r st ∧ classify r.snapshot st observation = .ok (reason, exit, actor) ∧
    observedOutcome observation reason exit cleanup = .ok outcome

variable (digest) in
theorem finishTerminal_ends {answer : Except LeaseRefusal Termination} (sound : h.Sound)
    (caused : ∀ r st x, h.slot s = .live r st → r.checkTerminalTransition outcome = .ok x →
      Slot.Caused st outcome.reason actor)
    (run : finishTerminal s outcome actor now h = (answer, h')) :
    Ends digest now (fun x : Termination => only s x.told) h answer h' ∨
      answer = .error .revisionOverflow ∧ h.Overruns s outcome ∧ Stranded now h s h' := by
  rcases finishTerminal_cases digest sound caused run with ⟨e, rfl, rfl, -⟩ | stranded | ⟨r, st, x, -, -, rfl, moves⟩
  · exact .inl (.refused (.refl _))
  · exact .inr stranded
  · exact .inl (.done moves)

theorem replayed_ends {snapshot : SessionSnapshot} (sound : h.Sound) :
    Ends digest now (fun x : Termination => only s x.told) h (.ok (.alreadyTerminal (h.composeSnapshot snapshot now))) h := by
  refine .done ?_
  simp only [Termination.told, only_nil]
  exact .refl sound

section Cancel

variable {cleanup : CleanupClass} {answer : Except LeaseRefusal Termination}

theorem CancelOutcome.caused (sound : h.Sound) (asked : h.CancelOutcome s cleanup outcome actor) (r : SessionRecord)
    (st : SessionLeaseState) (x : LifecycleState × Nat) (live : h.slot s = .live r st)
    (_ : r.checkTerminalTransition outcome = .ok x) : Slot.Caused st outcome.reason actor := by
  obtain ⟨r', st', intent, live', cancel, rfl, made⟩ := asked
  obtain rfl := Option.some.inj ((congrArg Slot.state live).symm.trans (congrArg Slot.state live'))
  have record : h.registry.live[s]? = some r := congrArg Slot.record live
  have state : h.sessions[s]? = some st := congrArg Slot.state live
  have created := (sound.slots s).cancelling r st record state (by rw [cancel]; rfl)
  have stopping := (sound.slots s).stopping r st record state
  refine ⟨fun stop accepted => ?_, fun other accepted => ?_⟩
  · rw [accepted, created] at stopping
    simp at stopping
  · obtain rfl := Option.some.inj (cancel.symm.trans accepted)
    exact ⟨TerminalOutcome.new_reason made, rfl⟩

theorem snapshot_live (live : h.slot s = .live r st) : h.registry.snapshot s = some r.snapshot := by
  have record : h.registry.live[s]? = some r := congrArg Slot.record live
  rw [SessionRegistry.snapshot, record]
  rfl

theorem CancelOutcome.finish (sound : h.Sound) (asked : h.CancelOutcome s cleanup outcome actor) :
    completePreBindCancel s cleanup now h = finishTerminal s outcome actor now h := by
  obtain ⟨r, st, intent, live, cancel, rfl, made⟩ := asked
  have record : h.registry.live[s]? = some r := congrArg Slot.record live
  have state : h.sessions[s]? = some st := congrArg Slot.state live
  have created := (sound.slots s).cancelling r st record state (by rw [cancel]; rfl)
  have created' : r.snapshot.state = .created := created
  have known : findSnapshot s h = .ok r.snapshot := findSnapshot_ok.mpr (snapshot_live live)
  unfold completePreBindCancel
  rw [bind_apply, ask_apply, known]
  simp only [created', LifecycleState.isTerminal, Bool.false_eq_true, if_false]
  rw [bind_apply, ask_apply, state]
  simp only [Option.bind_some, cancel]
  rw [bind_apply, refuseIf]
  simp only [ne_eq, not_true_eq_false, decide_false, Bool.false_eq_true, if_false]
  rw [bind_apply, ask_apply, made]
  rfl

variable (digest) in
theorem completePreBindCancel_cases (sound : h.Sound) (run : completePreBindCancel s cleanup now h = (answer, h')) :
    Ends digest now (fun x : Termination => only s x.told) h answer h' ∨
      ∃ outcome actor, h.CancelOutcome s cleanup outcome actor ∧ finishTerminal s outcome actor now h = (answer, h') := by
  unfold completePreBindCancel at run
  rcases ask_bind_cases run with ⟨e, -, rfl, rfl⟩ | ⟨snapshot, known, run⟩
  · exact .inl (.refused (.refl _))
  rw [findSnapshot_ok] at known
  by_cases terminal : snapshot.state.isTerminal = true
  · rw [if_pos terminal] at run
    obtain ⟨rfl, rfl⟩ := Prod.mk.inj run
    exact .inl (replayed_ends sound)
  rw [if_neg terminal] at run
  obtain ⟨r, st, live, rfl⟩ := sound.live_of_snapshot known (by simpa using terminal)
  have state : h.sessions[s]? = some st := congrArg Slot.state live
  rcases ask_bind_cases run with ⟨e, -, rfl, rfl⟩ | ⟨intent, pending, run⟩
  · exact .inl (.refused (.refl _))
  rcases refuseIf_bind_cases run with ⟨-, rfl, rfl⟩ | ⟨-, run⟩
  · exact .inl (.refused (.refl _))
  rcases ask_bind_cases run with ⟨e, -, rfl, rfl⟩ | ⟨outcome, accepted, run⟩
  · exact .inl (.refused (.refl _))
  refine .inr ⟨outcome, intent.actor, ⟨r, st, intent, live, ?_, rfl, ?_⟩, run⟩
  · rw [state, Option.bind_some] at pending
    cases cancel : st.cancel with
    | none =>
      rw [cancel] at pending
      cases pending
    | some intent' =>
      rw [cancel] at pending
      rw [Except.ok.inj pending]
  · cases made : TerminalOutcome.new intent.reason .notApplicable cleanup with
    | error e =>
      rw [made] at accepted
      cases accepted
    | ok outcome' =>
      rw [made] at accepted
      rw [Except.ok.inj accepted]

end Cancel

section Exit

variable {snapshot : SessionSnapshot} {observation : ExitObservation} {cleanup : CleanupClass}
  {answer : Except LeaseRefusal Termination}

theorem classify_stopping {stop : StopState} (stopping : snapshot.state = .stopping) (accepted : st.stop = some stop) :
    classify snapshot st observation = .ok (stop.reason, .notApplicable, stop.actor) := by
  unfold classify
  rw [stopping, accepted]

theorem classify_cancelled {intent : CancelIntent} (created : snapshot.state = .created) (pending : st.cancel = some intent) :
    classify snapshot st observation = .error .cancelPending := by
  unfold classify
  rw [created, pending]
  rfl

theorem ExitOutcome.caused (sound : h.Sound) (asked : h.ExitOutcome s observation cleanup outcome actor) (r : SessionRecord)
    (st : SessionLeaseState) (x : LifecycleState × Nat) (live : h.slot s = .live r st)
    (passed : r.checkTerminalTransition outcome = .ok x) : Slot.Caused st outcome.reason actor := by
  obtain ⟨r', st', reason, exit, live', classified, observed⟩ := asked
  obtain rfl := Option.some.inj ((congrArg Slot.record live).symm.trans (congrArg Slot.record live'))
  obtain rfl := Option.some.inj ((congrArg Slot.state live).symm.trans (congrArg Slot.state live'))
  have record : h.registry.live[s]? = some r := congrArg Slot.record live
  have state : h.sessions[s]? = some st := congrArg Slot.state live
  have stopping := (sound.slots s).stopping r st record state
  have cancelling := (sound.slots s).cancelling r st record state
  refine ⟨fun stop accepted => ?_, fun intent accepted => ?_⟩
  · have now : r.snapshot.state = .stopping := stopping.mp (by rw [accepted]; rfl)
    rw [classify_stopping now accepted] at classified
    simp only [Except.ok.injEq, Prod.mk.injEq] at classified
    obtain ⟨rfl, -, rfl⟩ := classified
    refine ⟨?_, rfl⟩
    unfold observedOutcome at observed
    split at observed
    · rename_i failure
      -- A spawn failure is no outcome of a session that is stopping.
      have spawn : outcome.reason = .spawnFailed := by
        unfold TerminalOutcome.spawnFailed at observed
        split_ifs at observed
        · cases observed
        · obtain rfl := Except.ok.inj observed
          rfl
      have passed' : r.checkTerminalTransition outcome = .ok (x.1, x.2) := passed
      obtain ⟨-, -, allowed, -⟩ := SessionRecord.checkTerminalTransition_ok passed'
      have stopping : r.state = .stopping := now
      simp [spawn, stopping, TerminalReason.canTerminateFrom] at allowed
    · cases made : TerminalOutcome.new stop.reason exit cleanup with
      | error e =>
        rw [made] at observed
        cases observed
      | ok outcome' =>
        rw [made] at observed
        obtain rfl := Except.ok.inj observed
        exact TerminalOutcome.new_reason made
  · have created : r.snapshot.state = .created := cancelling (by rw [accepted]; rfl)
    rw [classify_cancelled created accepted] at classified
    cases classified

theorem ExitOutcome.finish (sound : h.Sound) (asked : h.ExitOutcome s observation cleanup outcome actor) :
    recordTermination s observation cleanup now h = finishTerminal s outcome actor now h := by
  obtain ⟨r, st, reason, exit, live, classified, observed⟩ := asked
  have alive : r.snapshot.state.isTerminal = false := (sound.slots s).alive r (congrArg Slot.record live)
  have known : findSnapshot s h = .ok r.snapshot := findSnapshot_ok.mpr (snapshot_live live)
  have found : findState s h = .ok st := findState_ok.mpr (congrArg Slot.state live)
  unfold recordTermination
  rw [bind_apply, ask_apply, known]
  simp only [alive, Bool.false_eq_true, if_false]
  rw [bind_apply, ask_apply, found]
  simp only []
  rw [bind_apply, ask_apply, classified]
  simp only []
  rw [bind_apply, ask_apply, observed]

variable (digest) in
theorem recordTermination_cases (sound : h.Sound) (run : recordTermination s observation cleanup now h = (answer, h')) :
    Ends digest now (fun x : Termination => only s x.told) h answer h' ∨
      ∃ outcome actor, h.ExitOutcome s observation cleanup outcome actor ∧
        finishTerminal s outcome actor now h = (answer, h') := by
  unfold recordTermination at run
  rcases ask_bind_cases run with ⟨e, -, rfl, rfl⟩ | ⟨snapshot, known, run⟩
  · exact .inl (.refused (.refl _))
  rw [findSnapshot_ok] at known
  by_cases terminal : snapshot.state.isTerminal = true
  · rw [if_pos terminal] at run
    obtain ⟨rfl, rfl⟩ := Prod.mk.inj run
    exact .inl (replayed_ends sound)
  rw [if_neg terminal] at run
  obtain ⟨r, st, live, rfl⟩ := sound.live_of_snapshot known (by simpa using terminal)
  rcases ask_bind_cases run with ⟨e, -, rfl, rfl⟩ | ⟨st', found, run⟩
  · exact .inl (.refused (.refl _))
  obtain rfl := Option.some.inj ((congrArg Slot.state live).symm.trans (findState_ok.mp found))
  rcases ask_bind_cases run with ⟨e, -, rfl, rfl⟩ | ⟨⟨reason, exit, actor⟩, classified, run⟩
  · exact .inl (.refused (.refl _))
  rcases ask_bind_cases run with ⟨e, -, rfl, rfl⟩ | ⟨outcome, observed, run⟩
  · exact .inl (.refused (.refl _))
  exact .inr ⟨outcome, actor, ⟨r, st, reason, exit, live, classified, observed⟩, run⟩

end Exit

end SessionHost

end Bitty.Daemon
