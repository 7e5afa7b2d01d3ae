import Bitty.Daemon.Lease.Attach
import Bitty.Daemon.Lease.Stop

/-! The end of a session's retention: its terminal record is evicted, and then its lease state is forgotten. -/

namespace Bitty.Daemon

open Std (ExtTreeMap)

namespace SessionRegistry

def Evicted (g g' : SessionRegistry) (gone : List SessionId) : Prop :=
  ∃ entries order retained, g' = { g with retentionOrder := order, retained := retained } ∧
    g.retentionOrder = entries ++ order ∧ gone = entries.map Prod.snd ∧
    ∀ s : SessionId, retained[s]? = if s ∈ gone then none else g.retained[s]?

theorem mem_cons_ite (s first : SessionId) (rest : List SessionId) (found : Option SessionRecord) :
    (if s ∈ first :: rest then none else found) = if s ∈ rest then none else if first = s then none else found := by
  by_cases same : first = s
  · subst same
    simp
  · have other : s ≠ first := Ne.symm same
    simp [same, other]

theorem evict_spec (maximum : Nat) (order : List (MonotonicMs × SessionId)) (retained : ExtTreeMap SessionId SessionRecord) :
    ∃ entries, order = entries ++ (evict maximum order retained).1 ∧
      ∀ s : SessionId, (evict maximum order retained).2[s]? = if s ∈ entries.map Prod.snd then none else retained[s]? := by
  induction order generalizing retained with
  | nil => exact ⟨[], rfl, fun s => rfl⟩
  | cons first rest ih =>
    unfold evict
    split_ifs with full
    · obtain ⟨entries, split, find⟩ := ih (retained.erase first.2)
      refine ⟨first :: entries, by rw [List.cons_append, ← split], fun s => ?_⟩
      rw [find, TreeMap.find_erase, List.map_cons, mem_cons_ite]
    · exact ⟨[], rfl, fun s => rfl⟩

theorem collect_spec (retention : Nat) (now : MonotonicMs) (order : List (MonotonicMs × SessionId))
    (retained : ExtTreeMap SessionId SessionRecord) :
    ∃ entries, order = entries ++ (collect retention now order retained).2.1 ∧
      (collect retention now order retained).1 = entries.map Prod.snd ∧
      ∀ s : SessionId, (collect retention now order retained).2.2[s]? =
        if s ∈ entries.map Prod.snd then none else retained[s]? := by
  induction order generalizing retained with
  | nil => exact ⟨[], rfl, rfl, fun s => rfl⟩
  | cons first rest ih =>
    unfold collect
    split_ifs with young
    · exact ⟨[], rfl, rfl, fun s => rfl⟩
    · obtain ⟨entries, split, ids, find⟩ := ih (retained.erase first.2)
      refine ⟨first :: entries, ?_, ?_, fun s => ?_⟩
      · rw [List.cons_append]
        exact congrArg _ split
      · rw [List.map_cons]
        exact congrArg _ ids
      · rw [List.map_cons]
        refine (find s).trans ?_
        rw [TreeMap.find_erase, mem_cons_ite]

theorem enforceRetentionCap_evicted (g : SessionRegistry) : ∃ gone, g.Evicted g.enforceRetentionCap gone := by
  obtain ⟨entries, split, find⟩ := evict_spec g.limits.maxRetainedTerminalRecords g.retentionOrder g.retained
  exact ⟨_, entries, _, _, rfl, split, rfl, find⟩

theorem collectRetained_evicted (g : SessionRegistry) (now : MonotonicMs) :
    g.Evicted (g.collectRetained now).2 (g.collectRetained now).1 := by
  obtain ⟨entries, split, ids, find⟩ := collect_spec g.limits.terminalRetentionMs now g.retentionOrder g.retained
  refine ⟨entries, _, _, rfl, split, ids, fun s => ?_⟩
  have gone : (g.collectRetained now).1 = entries.map Prod.snd := ids
  rw [gone]
  exact find s

end SessionRegistry

namespace SessionHost

open Mutation

variable {digest : ControlToken → ControlTokenDigest} {now : MonotonicMs} {h h' : SessionHost} {s : SessionId}
  {g : SessionRegistry} {gone : List SessionId}

theorem Sound.unused_of_evicted (sound : h.Sound) (evicted : h.registry.Evicted g gone) (inside : s ∈ gone) :
    h.registry.live[s]? = none ∧ g.live[s]? = none ∧ g.retained[s]? = none := by
  obtain ⟨entries, order, retained, rfl, split, rfl, find⟩ := evicted
  have known := sound.ordered s (by rw [split, List.map_append]; exact List.mem_append_left _ inside)
  have unused : h.registry.live[s]? = none := by
    rw [← Option.not_isSome_iff_eq_none]
    intro live
    obtain ⟨r, record⟩ := Option.isSome_iff_exists.mp live
    have none : h.registry.retained[s]? = Option.none := ((sound.slots s).hosted r record).1
    rw [none] at known
    cases known
  refine ⟨unused, unused, ?_⟩
  rw [find, if_pos inside]

theorem evicted_moves (sound : h.Sound) (evicted : h.registry.Evicted g gone) :
    Moves digest silent h { h with registry := g } := by
  have unused := fun s inside => (sound.unused_of_evicted evicted (s := s) inside).1
  obtain ⟨entries, order, retained, rfl, split, rfl, find⟩ := evicted
  have slots (t : SessionId) : ({ h with registry := { h.registry with retentionOrder := order, retained := retained } } :
      SessionHost).slot t = { h.slot t with retained := if t ∈ entries.map Prod.snd then none else (h.slot t).retained } := by
    simp only [slot, find]
  have path (t : SessionId) : Slot.Path digest h.limits.maxAttachesPerSession (h.slot t) []
      { h.slot t with retained := if t ∈ entries.map Prod.snd then none else (h.slot t).retained } := by
    split_ifs with inside
    · have record : (h.slot t).record = none := unused t inside
      cases kept : (h.slot t).retained with
      | none =>
        have same : h.slot t = { h.slot t with retained := none } := by rw [← kept]
        rw [← same]
        exact .nil _
      | some r =>
        have before : h.slot t = ⟨none, some r, (h.slot t).state⟩ := by rw [← record, ← kept]
        rw [before]
        exact .one .evict
    · exact .nil _
  refine ⟨rfl, List.suffix_rfl, fun t => ?_, ?_⟩
  · rw [slots]
    exact path t
  · have nodup := sound.distinct
    rw [split, List.map_append, List.nodup_append] at nodup
    refine ⟨fun t => ?_, fun a t => ?_, nodup.2.1, fun t inside => ?_⟩
    · rw [slots]
      exact (path t).invariant Slot.Sound.move (sound.slots t)
    · rw [slots]
      exact sound.owned a t
    · have out : t ∉ entries.map Prod.snd := fun first => nodup.2.2 t first t inside rfl
      have known := sound.ordered t (by rw [split, List.map_append]; exact List.mem_append_right _ inside)
      rw [find, if_neg out]
      exact known

theorem forgetRetained_moves (sound : h.Sound) (unused : h.registry.live[s]? = none)
    (unretained : h.registry.retained[s]? = none) :
    Moves digest silent h (h.forgetRetained s) ∧ (h.forgetRetained s).registry = h.registry := by
  unfold forgetRetained
  cases state : h.sessions[s]? with
  | none => exact ⟨.refl sound, rfl⟩
  | some st =>
    have settled := (sound.slots s).settled st unused state
    have index : st.leases.keys.foldl (fun index attachId => index.erase attachId) h.leaseSessions = h.leaseSessions := by
      have none : st.leases.keys = [] := by
        rw [← List.length_eq_zero_iff, ExtTreeMap.length_keys, settled.leases]
        exact ExtTreeMap.size_empty
      rw [none]
      rfl
    dsimp only
    rw [index]
    refine ⟨?_, rfl⟩
    rw [← only_nil (s := s)]
    have before : h.slot s = ⟨none, none, some st⟩ := by rw [slot, unused, unretained, state]
    have free (a : AttachId) : ¬ (h.slot s).Holds a := by
      rintro ⟨st', l, state', lease⟩
      rw [before] at state'
      obtain rfl := Option.some.inj state'
      simp [settled.leases] at lease
    refine .kept sound ?_ (fun t other => ?_) (fun a => ?_) rfl rfl rfl rfl rfl
    · rw [before]
      simp only [slot, TreeMap.find_erase, if_true, unused, unretained]
      exact .one .forget
    · simp only [slot, TreeMap.find_erase, if_neg other]
    · refine iff_of_false ?_ (free a)
      rintro ⟨st', l, state', -⟩
      simp only [slot, TreeMap.find_erase, if_true] at state'
      cases state'

theorem forgetRetained_foldl (gone : List SessionId) (sound : h.Sound)
    (unused : ∀ s ∈ gone, h.registry.live[s]? = none ∧ h.registry.retained[s]? = none) :
    Moves digest silent h (gone.foldl forgetRetained h) ∧ (gone.foldl forgetRetained h).registry = h.registry := by
  induction gone generalizing h with
  | nil => exact ⟨.refl sound, rfl⟩
  | cons s rest ih =>
    obtain ⟨live, retained⟩ := unused s List.mem_cons_self
    obtain ⟨first, same⟩ : Moves digest silent h (h.forgetRetained s) ∧ (h.forgetRetained s).registry = h.registry :=
      forgetRetained_moves sound live retained
    obtain ⟨later, kept⟩ := ih first.sound fun t inside => by
      rw [same]
      exact unused t (List.mem_cons_of_mem _ inside)
    exact ⟨first.trans_silent later, kept.trans same⟩

theorem collectRetained_moves (sound : h.Sound) : Moves digest silent h (h.collectRetained now).2 := by
  have evicted := h.registry.collectRetained_evicted now
  have first : Moves digest silent h { h with registry := (h.registry.collectRetained now).2 } := evicted_moves sound evicted
  obtain ⟨second, -⟩ := forgetRetained_foldl (h.registry.collectRetained now).1 first.sound
    fun s inside => (sound.unused_of_evicted evicted inside).2
  refine first.trans_silent (second.trans_silent (forgetRetained_foldl _ second.sound fun s inside => ?_).1)
  have none := (List.mem_filter.mp inside).2
  simp only [SessionRegistry.snapshot, Option.isNone_iff_eq_none, Option.map_eq_none_iff, Option.or_eq_none_iff] at none
  exact none

end SessionHost

end Bitty.Daemon

/-! A session is asked to stop, and ends. -/

namespace Bitty.Daemon

open Std (ExtTreeMap)

def StopOutcome.told (reason : TerminalReason) : StopOutcome → List Label
  | .accepted stop => if stop.alreadyAccepted then [] else [.accepted reason stop.actor]
  | .preBindCancel cancel => if cancel.alreadyAccepted then [] else [.accepted cancel.reason cancel.actor]
  | .alreadyTerminal _ => []

def Termination.told : Termination → List Label
  | .completed notice => [.completed notice.session notice.reason notice.actor]
  | .alreadyTerminal _ => []

namespace SessionHost

open Mutation

variable {digest : ControlToken → ControlTokenDigest} {now : MonotonicMs} {h h' h₁ : SessionHost} {s t : SessionId}
  {a : AttachId} {r r' : SessionRecord} {st st' : SessionLeaseState} {reason : TerminalReason} {authorized : Authorized}

section Stop

variable {answer : Except LeaseRefusal StopOutcome} {snapshot : SessionSnapshot}

theorem renewAuthorized_moves (sound : h.Sound) (authorized : Authorized) (now : MonotonicMs) :
    Moves digest silent h (h.renewAuthorized authorized now) := by
  unfold renewAuthorized
  split
  · exact renewLease_moves sound _ now
  · exact .refl sound

theorem commitCancel_ends {actor : Actor} (sound : h.Sound) (live : h.slot s = .live r st) (created : r.state = .created)
    (first : st.cancel = none) (run : commitCancel s snapshot ⟨reason, actor⟩ now h = (answer, h')) :
    Ends digest now (fun x => only s (x.told reason)) h answer h' := by
  unfold commitCancel at run
  rcases ask_bind_cases run with ⟨e, -, rfl, rfl⟩ | ⟨_, -, run⟩
  · exact .refused (.refl _)
  obtain ⟨rfl, rfl⟩ := Prod.mk.inj run
  exact .done (.state (f := fun state => { state with cancel := some ⟨reason, actor⟩ }) sound live (.cancel created first)
    fun _ => Iff.rfl)

variable (digest) in
theorem beginStop_cases {stop : StopState} {answer : Except LeaseRefusal SessionSnapshot} (sound : h.Sound)
    (live : h.slot s = .live r st) (first : st.cancel = none) (run : beginStop s stop authorized now h = (answer, h')) :
    (∃ e, answer = .error e ∧ h' = h) ∨
      ∃ x, answer = .ok x ∧ Moves digest (only s [.accepted stop.reason stop.actor]) h h' := by
  unfold beginStop at run
  rcases bind_cases run with ⟨e, begun, rfl⟩ | ⟨session, h₁, begun, run⟩
  · rcases onRegistry_cases begun with ⟨-, -, rfl, -⟩ | ⟨_, _, _, _, impossible, _⟩
    · exact .inl ⟨e, rfl, rfl⟩
    · cases impossible
  rcases onRegistry_cases begun with ⟨_, impossible, _⟩ | ⟨r₀, r', record, stopping, -, rfl⟩
  · cases impossible
  obtain rfl := Option.some.inj (record.symm.trans (congrArg Slot.record live))
  rcases ask_bind_cases run with ⟨e, missing, -⟩ | ⟨_, -, run⟩
  · rw [(findState_ok (s := s) (h := h.putRecord s r')).mpr (congrArg Slot.state live)] at missing
    cases missing
  obtain ⟨rfl, rfl⟩ := Prod.mk.inj run
  have after : ((h.putRecord s r').modifyState s fun state => { state with stop := some stop }).slot s =
      .live r' { st with stop := some stop } := by
    rw [slot_modifyState, if_pos rfl, slot_putRecord, if_pos rfl, live]
    rfl
  have stopped : Moves digest (only s [.accepted stop.reason stop.actor]) h
      ((h.putRecord s r').modifyState s fun state => { state with stop := some stop }) := by
    refine .kept sound ?_ (fun t other => ?_) (fun a => ?_) rfl rfl rfl rfl rfl
    · rw [live, after]
      exact .one (.stop first stopping)
    · rw [slot_modifyState, if_neg other, slot_putRecord, if_neg other]
    · rw [live, after, Slot.holds_live, Slot.holds_live]
  exact .inr ⟨_, rfl, stopped.silent_trans (renewAuthorized_moves stopped.sound authorized now)⟩

theorem commitStop_ends {graceMs : Nat} (sound : h.Sound) (run : commitStop s authorized reason now graceMs h = (answer, h'))
    (alive : ∀ snapshot, h.registry.snapshot s = some snapshot → snapshot.state.isTerminal = false) :
    Ends digest now (fun x => only s (x.told reason)) h answer h' := by
  unfold commitStop at run
  rcases ask_bind_cases run with ⟨e, -, rfl, rfl⟩ | ⟨snapshot, known, run⟩
  · exact .refused (.refl _)
  rw [findSnapshot_ok] at known
  obtain ⟨r, st, live, rfl⟩ := sound.live_of_snapshot known (alive snapshot known)
  have state : h.sessions[s]? = some st := congrArg Slot.state live
  rw [read_bind, state] at run
  simp only [Option.bind_some] at run
  cases first : st.cancel with
  | some intent =>
    rw [first] at run
    obtain ⟨rfl, rfl⟩ := Prod.mk.inj run
    refine .done ?_
    simp only [preBindCancel, StopOutcome.told, if_true, only_nil]
    exact .refl sound
  | none =>
    rw [first] at run
    dsimp only at run
    split_ifs at run with stopping created
    · cases begun : st.stop with
      | none =>
        rw [begun] at run
        obtain ⟨rfl, rfl⟩ := Prod.mk.inj run
        exact .refused (.refl _)
      | some stop =>
        rw [begun] at run
        obtain ⟨rfl, rfl⟩ := Prod.mk.inj run
        refine .done ?_
        simp only [StopOutcome.told, if_true, only_nil]
        exact .refl sound
    · exact commitCancel_ends sound live created first run
    · rcases bind_cases run with ⟨e, begun, rfl⟩ | ⟨session, h₁, begun, run⟩
      · rcases beginStop_cases digest sound live first begun with ⟨-, -, rfl⟩ | ⟨_, impossible, _⟩
        · exact .refused (.refl _)
        · cases impossible
      · rcases beginStop_cases digest sound live first begun with ⟨_, impossible, _⟩ | ⟨_, -, moves⟩
        · cases impossible
        · obtain ⟨rfl, rfl⟩ := Prod.mk.inj run
          exact .done moves

theorem replay_ends {snapshot : SessionSnapshot} (sound : h.Sound) :
    Ends digest now (fun x : StopOutcome => only s (x.told reason)) h (.ok (.alreadyTerminal (h.composeSnapshot snapshot now))) h := by
  refine .done ?_
  simp only [StopOutcome.told, only_nil]
  exact .refl sound

theorem abort_ends {generation : Nat} {authority : ControlAuthority} {cause : ConsumerStopCause} (sound : h.Sound)
    (run : abort digest s generation authority cause now h = (answer, h')) :
    Ends digest now (fun x => only s (x.told cause.reason)) h answer h' := by
  unfold abort at run
  rcases refuseIf_bind_cases run with ⟨-, rfl, rfl⟩ | ⟨-, run⟩
  · exact .refused (.refl _)
  rcases ask_bind_cases run with ⟨e, -, rfl, rfl⟩ | ⟨snapshot, known, run⟩
  · exact .refused (.refl _)
  rw [findSnapshot_ok] at known
  split_ifs at run with terminal
  · obtain ⟨rfl, rfl⟩ := Prod.mk.inj run
    exact replay_ends sound
  · rcases ask_bind_cases run with ⟨e, -, rfl, rfl⟩ | ⟨authorized, -, run⟩
    · exact .refused (.refl _)
    rw [read_bind] at run
    refine commitStop_ends sound run fun snapshot' known' => ?_
    obtain rfl := Option.some.inj (known.symm.trans known')
    simpa using terminal

theorem operatorStop_ends {generation : Nat} {cause : DaemonStopCause} (sound : h.Sound)
    (run : operatorStop s generation cause now h = (answer, h')) :
    Ends digest now (fun x => only s (x.told cause.reason)) h answer h' := by
  unfold operatorStop at run
  rcases ask_bind_cases run with ⟨e, -, rfl, rfl⟩ | ⟨snapshot, known, run⟩
  · exact .refused (.refl _)
  rw [findSnapshot_ok] at known
  split_ifs at run with terminal
  · obtain ⟨rfl, rfl⟩ := Prod.mk.inj run
    exact replay_ends sound
  · rcases refuseIf_bind_cases run with ⟨-, rfl, rfl⟩ | ⟨-, run⟩
    · exact .refused (.refl _)
    rw [read_bind] at run
    refine commitStop_ends sound run fun snapshot' known' => ?_
    obtain rfl := Option.some.inj (known.symm.trans known')
    simpa using terminal

theorem escalate_moves (sound : h.Sound) (live : h.slot s = .live r st) : Moves digest silent h (h.escalate s now) := by
  rw [← only_nil (s := s)]
  exact .state (f := fun state =>
      { state with stop := state.stop.map fun stop => { stop with deadline := now, escalated := true } })
    sound live (.escalate fun _ => ⟨rfl, rfl⟩) fun _ => Iff.rfl

theorem kill_ends {generation : Nat} (sound : h.Sound) (run : kill s generation now h = (answer, h')) :
    Ends digest now (fun x => only s (x.told .operatorAbort)) h answer h' := by
  unfold kill at run
  rcases ask_bind_cases run with ⟨e, -, rfl, rfl⟩ | ⟨snapshot, known, run⟩
  · exact .refused (.refl _)
  rw [findSnapshot_ok] at known
  by_cases terminal : snapshot.state.isTerminal = true
  · rw [if_pos terminal] at run
    obtain ⟨rfl, rfl⟩ := Prod.mk.inj run
    exact replay_ends sound
  rw [if_neg terminal] at run
  obtain ⟨r, st, live, rfl⟩ := sound.live_of_snapshot known (by simpa using terminal)
  rcases refuseIf_bind_cases run with ⟨-, rfl, rfl⟩ | ⟨-, run⟩
  · exact .refused (.refl _)
  rcases ask_bind_cases run with ⟨e, -, rfl, rfl⟩ | ⟨st', found, run⟩
  · exact .refused (.refl _)
  obtain rfl := Option.some.inj ((congrArg Slot.state live).symm.trans (findState_ok.mp found))
  cases first : st.cancel with
  | some intent =>
    rw [first] at run
    obtain ⟨rfl, rfl⟩ := Prod.mk.inj run
    refine .done ?_
    simp only [preBindCancel, StopOutcome.told, if_true, only_nil]
    exact .refl sound
  | none =>
    rw [first] at run
    dsimp only at run
    split_ifs at run with stopping unstopped created
    · obtain ⟨rfl, rfl⟩ := Prod.mk.inj run
      exact .refused (.refl _)
    · obtain ⟨rfl, rfl⟩ := Prod.mk.inj run
      refine .done ?_
      simp only [StopOutcome.told, if_true, only_nil]
      exact escalate_moves sound live
    · exact commitCancel_ends sound live created first run
    · rcases bind_cases run with ⟨e, begun, rfl⟩ | ⟨session, h₁, begun, run⟩
      · rcases beginStop_cases digest sound live first begun with ⟨-, -, rfl⟩ | ⟨_, impossible, _⟩
        · exact .refused (.refl _)
        · cases impossible
      · rcases beginStop_cases digest sound live first begun with ⟨_, impossible, _⟩ | ⟨_, -, moves⟩
        · cases impossible
        · obtain ⟨rfl, rfl⟩ := Prod.mk.inj run
          exact .done moves

theorem escalateAbort_ends {answer : Except LeaseRefusal (Option AbortEscalation)} (sound : h.Sound)
    (run : escalateAbort s now h = (answer, h')) : Ends digest now (fun _ => silent) h answer h' := by
  unfold escalateAbort at run
  rcases ask_bind_cases run with ⟨e, -, rfl, rfl⟩ | ⟨st, found, run⟩
  · exact .refused (.refl _)
  have state := findState_ok.mp found
  cases accepted : st.stop with
  | none =>
    rw [accepted] at run
    obtain ⟨rfl, rfl⟩ := Prod.mk.inj run
    exact .done (.refl sound)
  | some stop =>
    rw [accepted] at run
    dsimp only at run
    split_ifs at run with early
    · obtain ⟨rfl, rfl⟩ := Prod.mk.inj run
      exact .done (.refl sound)
    · obtain ⟨rfl, rfl⟩ := Prod.mk.inj run
      refine .done ?_
      cases record : h.registry.live[s]? with
      | none =>
        have settled := (sound.slots s).settled st record state
        rw [settled.stop] at accepted
        cases accepted
      | some r =>
        obtain ⟨st', live⟩ := sound.live_slot record
        rw [← only_nil (s := s)]
        exact .state (f := fun state => { state with stop := state.stop.map fun stop => { stop with escalated := true } })
          sound live (.escalate fun _ => ⟨rfl, rfl⟩) fun _ => Iff.rfl

end Stop

end SessionHost

end Bitty.Daemon
