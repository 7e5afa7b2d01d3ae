import Bitty.Daemon.Lease.Life
import Bitty.Daemon.Lease.Kept

/-! A session ends once, for the first cause that was accepted, and its end is replayed. -/

namespace Bitty.Daemon

open Std (ExtTreeMap)

namespace Slot

variable {digest : ControlToken → ControlTokenDigest} {maxAttaches : Nat} {ls : List Label} {x y : Slot} {s : SessionId}

def Named (s : SessionId) (x : Slot) : Prop := ∀ r, x.record = some r ∨ x.retained = some r → r.sessionId = s

theorem Named.same {r r' : SessionRecord} {st st' : SessionLeaseState} (named : (live r st).Named s)
    (id : r'.sessionId = r.sessionId) : (live r' st').Named s := by
  rintro _ (⟨⟨⟩⟩ | ⟨⟨⟩⟩)
  exact id.trans (named r (.inl rfl))

theorem named_absent {st : Option SessionLeaseState} : Named s ⟨none, none, st⟩ := by
  rintro _ (⟨⟨⟩⟩ | ⟨⟨⟩⟩)

theorem Named.move (named : x.Named s) (move : Move digest maxAttaches x ls y) (same : ∀ token, .created token ∉ ls) :
    y.Named s := by
  cases move with
  | touch core | hand _ _ _ core | take _ _ _ _ core => exact named.same core.sessionId
  | renew | retire | cancel | escalate => exact named.same rfl
  | attach _ _ _ counted | claim _ _ _ _ counted =>
    obtain ⟨-, -, rfl⟩ := SessionRecord.attach_ok counted
    exact named.same rfl
  | drop _ counted =>
    refine named.same ?_
    rw [(SessionRecord.aged_detach counted).2]
  | stop _ stopping =>
    obtain ⟨-, -, rfl⟩ := SessionRecord.beginStopping_ok stopping
    exact named.same rfl
  | bind _ running =>
    obtain ⟨-, -, rfl⟩ := SessionRecord.bind_ok running
    exact named.same rfl
  | release _ released => exact named.same released.spec.1
  | complete released =>
    rintro _ (⟨⟨⟩⟩ | ⟨⟨⟩⟩)
    exact released.spec.1.trans (named _ (.inl rfl))
  | evict | forget | discard => exact named_absent
  | create => exact absurd List.mem_cons_self (same _)

theorem Named.path (named : x.Named s) (path : Path digest maxAttaches x ls y) (same : ∀ token, .created token ∉ ls) :
    y.Named s := by
  induction path with
  | nil => exact named
  | cons move rest ih =>
    exact ih (named.move move fun token inside => same token (List.mem_append_left _ inside)) fun token inside =>
      same token (List.mem_append_right _ inside)

end Slot

def Op.asks : Op → Option SessionId
  | .abort s _ authority _ => if authority.operator then none else some s
  | .operatorStop s _ _ | .kill s _ | .completePreBindCancel s _ | .recordTermination s _ _ => some s
  | _ => none

def Op.replay (snapshot : SessionSnapshot) : Op → Answer
  | .completePreBindCancel _ _ | .recordTermination _ _ _ => .termination (.alreadyTerminal snapshot)
  | _ => .stop (.alreadyTerminal snapshot)

def Op.stops : Op → Option SessionId
  | .abort s _ _ _ | .operatorStop s _ _ | .kill s _ => some s
  | _ => none

theorem told_length (op : Op) (x : Answer) (s : SessionId) : (op.told x s).length ≤ 1 := by
  have one (t : SessionId) (ls : List Label) (brief : ls.length ≤ 1) : (SessionHost.only t ls s).length ≤ 1 := by
    unfold SessionHost.only
    split_ifs
    · exact brief
    · exact Nat.zero_le _
  have stop (reason : TerminalReason) (x : StopOutcome) : (x.told reason).length ≤ 1 := by
    unfold StopOutcome.told
    split
    · split_ifs <;> simp
    · split_ifs <;> simp
    · simp
  have termination (x : Termination) : x.told.length ≤ 1 := by cases x <;> simp [Termination.told]
  unfold Op.told
  split
  · exact one _ _ (by simp)
  · exact one _ _ (by simp)
  · exact one _ _ (by simp)
  · exact one _ _ (by simp)
  · split_ifs
    · exact one _ _ (by simp)
    · exact Nat.zero_le _
  · exact one _ _ (stop _ _)
  · exact one _ _ (stop _ _)
  · exact one _ _ (stop _ _)
  · exact one _ _ (termination _)
  · exact one _ _ (termination _)
  · exact Nat.zero_le _

theorem created_told {op : Op} {x : Answer} {s : SessionId} {token : ControlToken} (inside : .created token ∈ op.told x s) :
    ∃ request kind c, op = .create request kind ∧ x = .created c := by
  have other (t : SessionId) (ls : List Label) (none : .created token ∉ ls) : .created token ∉ SessionHost.only t ls s := by
    unfold SessionHost.only
    split_ifs
    · exact none
    · simp
  have stop (reason : TerminalReason) (x : StopOutcome) : .created token ∉ x.told reason := by
    unfold StopOutcome.told
    split
    · split_ifs <;> simp
    · split_ifs <;> simp
    · simp
  have termination (x : Termination) : .created token ∉ x.told := by cases x <;> simp [Termination.told]
  unfold Op.told at inside
  split at inside
  · exact ⟨_, _, _, rfl, rfl⟩
  · exact absurd inside (other _ _ (by simp))
  · exact absurd inside (other _ _ (by simp))
  · exact absurd inside (other _ _ (by simp))
  · split_ifs at inside
    · exact absurd inside (other _ _ (by simp))
    · cases inside
  · exact absurd inside (other _ _ (stop _ _))
  · exact absurd inside (other _ _ (stop _ _))
  · exact absurd inside (other _ _ (stop _ _))
  · exact absurd inside (other _ _ (termination _))
  · exact absurd inside (other _ _ (termination _))
  · cases inside

namespace SessionHost

open Mutation

variable {digest : ControlToken → ControlTokenDigest} {now : MonotonicMs} {h h' : SessionHost} {s t : SessionId}
  {r : SessionRecord} {st : SessionLeaseState}

def Named (h : SessionHost) : Prop := ∀ s, (h.slot s).Named s

theorem createKind_named {request : CreateSession} {kind : SessionKind} {c : CreatedSession} (named : h.Named)
    (run : createKind digest request kind now h = (.ok c, h')) : h'.Named := by
  obtain ⟨token, h₁, mint, run⟩ := bind_ok run
  obtain ⟨e, -, same⟩ := mintToken_spec h
  rw [mint] at same
  simp only at same
  subst same
  cases made : SessionRegistry.createKind request kind now h.registry with
  | mk answered g =>
    rw [bind_apply, onRegistry_apply, made] at run
    rcases SessionRegistry.createKind_cases made with ⟨e, rfl, e', rfl⟩ |
      ⟨e, s, r, unused, unretained, rfl, created, unbound, unattached, rfl, rfl⟩
    · cases (Prod.mk.inj run).1
    · simp only [Except.mapError, change_bind, read_bind] at run
      obtain ⟨-, rfl⟩ := Prod.mk.inj run
      intro t r' here
      simp only [slot, TreeMap.find_insert] at here
      by_cases same : r.sessionId = t
      · rw [if_pos same] at here
        rcases here with ⟨⟨⟩⟩ | retained
        · exact same
        · exact named t r' (.inr retained)
      · rw [if_neg same] at here
        exact named t r' here

theorem perform_named {call : Call} {answer : Except LeaseRefusal Answer} (sound : h.Sound) (named : h.Named)
    (run : perform digest call h = (answer, h')) : h'.Named := by
  intro s
  by_cases same : ∀ token, .created token ∉ Event.told ⟨call, answer⟩ s
  · have moves : Moves digest _ h h' := perform_moves sound run
    exact (named s).path (moves.paths s) same
  · rw [not_forall] at same
    obtain ⟨token, inside⟩ := same
    cases answer with
    | error e => simp [Event.told] at inside
    | ok x =>
      obtain ⟨op, now⟩ := call
      obtain ⟨request, kind, c, rfl, rfl⟩ := created_told (not_not.mp inside)
      obtain ⟨c', h₁, made, done⟩ := bind_ok run
      obtain ⟨-, rfl⟩ := Prod.mk.inj done
      exact createKind_named named made s

theorem after_named (sound : h.Sound) (named : h.Named) (calls : List Call) : (after digest h calls).Named := by
  induction calls generalizing h with
  | nil => exact named
  | cons call calls ih =>
    have moves : Moves digest _ h (step digest h call).1 := step_moves sound call
    exact ih moves.sound (perform_named sound named rfl)

section Replay

variable {snapshot : SessionSnapshot}

theorem liveAttachCount_of_empty (free : st.leases = ∅) (now : MonotonicMs) : st.liveAttachCount now = 0 := by
  have none : st.liveLeases now = ∅ := by
    refine ExtTreeMap.ext_getElem? fun a => ?_
    rw [SessionLeaseState.liveLeases, TreeMap.find_filter, free]
    simp
  rw [SessionLeaseState.liveAttachCount, none, ExtTreeMap.size_empty]
  exact Nat.zero_min _

theorem composeSnapshot_retained (sound : h.Sound) (named : h.Named) (live : h.registry.live[s]? = none)
    (retained : h.registry.retained[s]? = some r) (now : MonotonicMs) : h.composeSnapshot r.snapshot now = r.snapshot := by
  have id : r.sessionId = s := named s r (.inr retained)
  obtain ⟨-, unattached⟩ := (sound.slots s).frozen r retained
  subst id
  have found : h.sessions[r.snapshot.sessionId]? = h.sessions[r.sessionId]? := rfl
  unfold composeSnapshot
  rw [found]
  cases state : h.sessions[r.sessionId]? with
  | none => simp [SessionRecord.snapshot, unattached]
  | some st =>
    have settled := (sound.slots r.sessionId).settled st live state
    have vacant : st.liveController now = none := by rw [SessionLeaseState.liveController, settled.controller]; rfl
    simp [SessionRecord.snapshot, unattached, vacant, liveAttachCount_of_empty settled.leases]

theorem perform_replay {call : Call} (sound : h.Sound) (named : h.Named) (live : h.registry.live[s]? = none)
    (retained : h.registry.retained[s]? = some r) (asks : call.op.asks = some s) :
    perform digest call h = (.ok (call.op.replay r.snapshot), h) := by
  obtain ⟨op, now⟩ := call
  have terminal : r.snapshot.state.isTerminal = true := ((sound.slots s).frozen r retained).1
  have composed := composeSnapshot_retained sound named live retained now
  have known : findSnapshot s h = .ok r.snapshot := by
    refine findSnapshot_ok.mpr ?_
    rw [SessionRegistry.snapshot, live, retained]
    rfl
  cases op with
  | abort t generation authority cause =>
    simp only [Op.asks] at asks
    split_ifs at asks with operator
    obtain rfl := Option.some.inj asks
    simp only [perform, abort, bind_apply, refuseIf, operator, Bool.false_eq_true, if_false, ask_apply, known, terminal, if_true,
      read_apply, composed]
    rfl
  | operatorStop t generation cause =>
    obtain rfl := Option.some.inj asks
    simp only [perform, operatorStop, bind_apply, ask_apply, known, terminal, if_true, read_apply, composed]
    rfl
  | kill t generation =>
    obtain rfl := Option.some.inj asks
    simp only [perform, kill, bind_apply, ask_apply, known, terminal, if_true, read_apply, composed]
    rfl
  | completePreBindCancel t cleanup =>
    obtain rfl := Option.some.inj asks
    simp only [perform, completePreBindCancel, bind_apply, ask_apply, known, terminal, if_true, read_apply, composed]
    rfl
  | recordTermination t observation cleanup =>
    obtain rfl := Option.some.inj asks
    simp only [perform, recordTermination, bind_apply, ask_apply, known, terminal, if_true, read_apply, composed]
    rfl
  | _ => cases asks

end Replay

section Stop

variable {snapshot : SessionSnapshot} {authorized : Authorized} {reason : TerminalReason} {x : StopOutcome}

def Asked (h : SessionHost) (s : SessionId) : Prop :=
  ∃ r st, h.slot s = .live r st ∧ (st.stop.isSome ∨ st.cancel.isSome)

def Cancelling (h : SessionHost) (s : SessionId) : Prop := ∃ r st, h.slot s = .live r st ∧ st.cancel.isSome

structure Answered (h : SessionHost) (s : SessionId) (reason : TerminalReason) (x : StopOutcome) (h' : SessionHost) : Prop where
  first : (∃ snapshot, x = .alreadyTerminal snapshot) ∨ h.Asked s ∨ ∃ actor, x.told reason = [.accepted reason actor]
  cancelling : ∀ cancel, x = .preBindCancel cancel → h'.Cancelling s

theorem commitCancel_answered {actor : Actor} (live : h.slot s = .live r st)
    (run : commitCancel s snapshot ⟨reason, actor⟩ now h = (.ok x, h')) : Answered h s reason x h' := by
  obtain ⟨_, -, run⟩ := ask_bind_ok run
  obtain ⟨answer, rfl⟩ := Prod.mk.inj run
  obtain rfl := Except.ok.inj answer
  refine ⟨.inr (.inr ⟨actor, rfl⟩), fun _ _ => ⟨r, { st with cancel := some ⟨reason, actor⟩ }, ?_, rfl⟩⟩
  rw [slot_modifyState, if_pos rfl, live]
  rfl

theorem commitStop_answered {graceMs : Nat} (sound : h.Sound)
    (alive : ∀ snapshot, h.registry.snapshot s = some snapshot → snapshot.state.isTerminal = false)
    (run : commitStop s authorized reason now graceMs h = (.ok x, h')) : Answered h s reason x h' := by
  unfold commitStop at run
  obtain ⟨snapshot, known, run⟩ := ask_bind_ok run
  rw [findSnapshot_ok] at known
  obtain ⟨r, st, live, rfl⟩ := sound.live_of_snapshot known (alive snapshot known)
  have state : h.sessions[s]? = some st := congrArg Slot.state live
  rw [read_bind, state] at run
  simp only [Option.bind_some] at run
  cases cancel : st.cancel with
  | some intent =>
    rw [cancel] at run
    obtain ⟨-, rfl⟩ := Prod.mk.inj run
    have pending : st.cancel.isSome := by rw [cancel]; rfl
    exact ⟨.inr (.inl ⟨r, st, live, .inr pending⟩), fun _ _ => ⟨r, st, live, pending⟩⟩
  | none =>
    rw [cancel] at run
    dsimp only at run
    split_ifs at run with stopping created
    · cases begun : st.stop with
      | none =>
        rw [begun] at run
        cases (Prod.mk.inj run).1
      | some stop =>
        rw [begun] at run
        obtain ⟨answer, rfl⟩ := Prod.mk.inj run
        obtain rfl := Except.ok.inj answer
        exact ⟨.inr (.inl ⟨r, st, live, .inl (by rw [begun]; rfl)⟩), by simp⟩
    · exact commitCancel_answered live run
    · obtain ⟨session, h₁, -, run⟩ := bind_ok run
      obtain ⟨answer, -⟩ := Prod.mk.inj run
      obtain rfl := Except.ok.inj answer
      exact ⟨.inr (.inr ⟨authorized.actor, rfl⟩), by simp⟩

theorem kill_answered {generation : Nat} (sound : h.Sound) (run : kill s generation now h = (.ok x, h')) :
    Answered h s .operatorAbort x h' := by
  unfold kill at run
  obtain ⟨snapshot, known, run⟩ := ask_bind_ok run
  rw [findSnapshot_ok] at known
  by_cases terminal : snapshot.state.isTerminal = true
  · rw [if_pos terminal] at run
    obtain ⟨answer, -⟩ := Prod.mk.inj run
    obtain rfl := Except.ok.inj answer
    exact ⟨.inl ⟨_, rfl⟩, by simp⟩
  rw [if_neg terminal] at run
  obtain ⟨r, st, live, rfl⟩ := sound.live_of_snapshot known (by simpa using terminal)
  obtain ⟨-, run⟩ := refuseIf_bind_ok run
  obtain ⟨st', found, run⟩ := ask_bind_ok run
  obtain rfl := Option.some.inj ((congrArg Slot.state live).symm.trans (findState_ok.mp found))
  cases cancel : st.cancel with
  | some intent =>
    rw [cancel] at run
    obtain ⟨-, rfl⟩ := Prod.mk.inj run
    have pending : st.cancel.isSome := by rw [cancel]; rfl
    exact ⟨.inr (.inl ⟨r, st, live, .inr pending⟩), fun _ _ => ⟨r, st, live, pending⟩⟩
  | none =>
    rw [cancel] at run
    dsimp only at run
    split_ifs at run with stopping unstopped created
    · cases (Prod.mk.inj run).1
    · obtain ⟨answer, -⟩ := Prod.mk.inj run
      obtain rfl := Except.ok.inj answer
      exact ⟨.inr (.inl ⟨r, st, live, .inl (by simpa using Option.isSome_iff_ne_none.mpr fun none => unstopped (by rw [none]; rfl))⟩),
        by simp⟩
    · exact commitCancel_answered live run
    · obtain ⟨session, h₁, -, run⟩ := bind_ok run
      obtain ⟨answer, -⟩ := Prod.mk.inj run
      obtain rfl := Except.ok.inj answer
      exact ⟨.inr (.inr ⟨.operator, rfl⟩), by simp⟩

theorem abort_answered {generation : Nat} {authority : ControlAuthority} {cause : ConsumerStopCause} (sound : h.Sound)
    (run : abort digest s generation authority cause now h = (.ok x, h')) : Answered h s cause.reason x h' := by
  unfold abort at run
  obtain ⟨-, run⟩ := refuseIf_bind_ok run
  obtain ⟨snapshot, known, run⟩ := ask_bind_ok run
  rw [findSnapshot_ok] at known
  split_ifs at run with terminal
  · obtain ⟨answer, -⟩ := Prod.mk.inj run
    obtain rfl := Except.ok.inj answer
    exact ⟨.inl ⟨_, rfl⟩, by simp⟩
  · obtain ⟨authorized, -, run⟩ := ask_bind_ok run
    rw [read_bind] at run
    refine commitStop_answered sound (fun snapshot' known' => ?_) run
    obtain rfl := Option.some.inj (known.symm.trans known')
    simpa using terminal

theorem operatorStop_answered {generation : Nat} {cause : DaemonStopCause} (sound : h.Sound)
    (run : operatorStop s generation cause now h = (.ok x, h')) : Answered h s cause.reason x h' := by
  unfold operatorStop at run
  obtain ⟨snapshot, known, run⟩ := ask_bind_ok run
  rw [findSnapshot_ok] at known
  split_ifs at run with terminal
  · obtain ⟨answer, -⟩ := Prod.mk.inj run
    obtain rfl := Except.ok.inj answer
    exact ⟨.inl ⟨_, rfl⟩, by simp⟩
  · obtain ⟨-, run⟩ := refuseIf_bind_ok run
    rw [read_bind] at run
    refine commitStop_answered sound (fun snapshot' known' => ?_) run
    obtain rfl := Option.some.inj (known.symm.trans known')
    simpa using terminal

theorem perform_answered {call : Call} (sound : h.Sound) (stops : call.op.stops = some s)
    (run : perform digest call h = (.ok (.stop x), h')) :
    ∃ reason, Answered h s reason x h' ∧ Event.told ⟨call, .ok (.stop x)⟩ s = x.told reason := by
  have mine (ls : List Label) : only s ls s = ls := if_pos rfl
  obtain ⟨op, now⟩ := call
  cases op with
  | abort t generation authority cause =>
    obtain rfl := Option.some.inj stops
    obtain ⟨x', h₁, stopped, done⟩ := bind_ok run
    obtain ⟨answer, rfl⟩ := Prod.mk.inj done
    obtain rfl : x' = x := by simpa using answer
    exact ⟨cause.reason, abort_answered sound stopped, mine _⟩
  | operatorStop t generation cause =>
    obtain rfl := Option.some.inj stops
    obtain ⟨x', h₁, stopped, done⟩ := bind_ok run
    obtain ⟨answer, rfl⟩ := Prod.mk.inj done
    obtain rfl : x' = x := by simpa using answer
    exact ⟨cause.reason, operatorStop_answered sound stopped, mine _⟩
  | kill t generation =>
    obtain rfl := Option.some.inj stops
    obtain ⟨x', h₁, stopped, done⟩ := bind_ok run
    obtain ⟨answer, rfl⟩ := Prod.mk.inj done
    obtain rfl : x' = x := by simpa using answer
    exact ⟨.operatorAbort, kill_answered sound stopped, mine _⟩
  | _ => cases stops

end Stop

section Run

variable {told : List Label}

theorem Asked.heard (sound : h.Sound) (lived : (h.slot s).Lived told) (asked : h.Asked s) :
    ∃ reason actor, .accepted reason actor ∈ life told := by
  obtain ⟨r, st, live, asked⟩ := asked
  obtain ⟨p, lives, inside | gone⟩ := lived
  swap
  · rw [live] at gone
    cases gone.1
  have sound' := sound.slots s
  have recalls := lives.recalls
  rw [live] at inside sound'
  have stopping := sound'.stopping r st rfl rfl
  have cancelling := sound'.cancelling r st rfl rfl
  cases p with
  | created =>
    obtain ⟨_, _, ⟨⟩, created, none⟩ := inside
    rw [created] at stopping
    simp [none, stopping] at asked
  | cancelling reason actor => exact ⟨reason, actor, (recalls.2.1 reason actor).mpr ⟨rfl, rfl⟩⟩
  | running =>
    obtain ⟨_, _, ⟨⟩, running⟩ := inside
    rw [running] at stopping cancelling
    rcases asked with stop | cancel
    · cases stopping.mp stop
    · cases cancelling cancel
  | stopping reason actor => exact ⟨reason, actor, (recalls.2.1 reason actor).mpr ⟨rfl, rfl⟩⟩
  | ended bound snapshot => exact absurd rfl (inside.alive bound snapshot)

theorem lived_empty (registryLimits : RegistryLimits) (sizeOfRecord : Nat) (registryEntropy : Entropy) (limits : LeaseLimits)
    (entropy : Entropy) : ((empty registryLimits sizeOfRecord registryEntropy limits entropy).slot s).Lived [] :=
  ⟨.created, .nil, .inr ⟨by simp [slot, empty], by simp [slot, empty]⟩⟩

theorem named_empty (registryLimits : RegistryLimits) (sizeOfRecord : Nat) (registryEntropy : Entropy) (limits : LeaseLimits)
    (entropy : Entropy) : (empty registryLimits sizeOfRecord registryEntropy limits entropy).Named := by
  intro s r here
  simp [slot, empty] at here

theorem after_lived (sound : h.Sound) (lived : (h.slot s).Lived told) (calls : List Call) :
    ((after digest h calls).slot s).Lived (told ++ (events digest h calls).flatMap (·.told s)) :=
  lived.path (sound.slots s) ((run_moves sound calls).paths s)

theorem generation_lived {snapshot : SessionSnapshot} (sound : h.Sound) (lived : (h.slot s).Lived told)
    (known : h.registry.snapshot s = some snapshot) : snapshot.generation = (life told).count .bound := by
  obtain ⟨p, lives, stands⟩ := lived
  have recalls := lives.recalls
  obtain ⟨r, held, rfl⟩ := Option.map_eq_some_iff.mp known
  rcases stands with inside | ⟨unrecorded, unretained⟩
  swap
  · have absent : (h.registry.live[s]?).or h.registry.retained[s]? = none := by
      simp only [slot] at unrecorded unretained
      rw [unrecorded, unretained]
      rfl
    rw [absent] at held
    cases held
  have generation (r' : SessionRecord) (st : SessionLeaseState) (live : h.slot s = .live r' st) :
      r = r' ∧ r'.generation = if r'.state = .created then 0 else 1 := by
    have record : h.registry.live[s]? = some r' := congrArg Slot.record live
    rw [record] at held
    exact ⟨(Option.some.inj held).symm, (sound.slots s).generation r' record⟩
  cases p with
  | created =>
    obtain ⟨r', st, live, created, -⟩ := inside
    obtain ⟨rfl, generation⟩ := generation r' st live
    rw [List.count_eq_zero.mpr recalls.1]
    exact generation.trans (if_pos created)
  | cancelling reason actor =>
    obtain ⟨r', st, live, pending⟩ := inside
    obtain ⟨rfl, generation⟩ := generation r' st live
    have created := (sound.slots s).cancelling r st (congrArg Slot.record live) (congrArg Slot.state live) (by rw [pending]; rfl)
    rw [List.count_eq_zero.mpr recalls.1]
    exact generation.trans (if_pos created)
  | running =>
    obtain ⟨r', st, live, running⟩ := inside
    obtain ⟨rfl, generation⟩ := generation r' st live
    rw [recalls.1]
    exact generation.trans (if_neg (by rw [running]; decide))
  | stopping reason actor =>
    obtain ⟨r', st, stop, live, begun, -⟩ := inside
    obtain ⟨rfl, generation⟩ := generation r' st live
    have stopping := ((sound.slots s).stopping r st (congrArg Slot.record live) (congrArg Slot.state live)).mp (by rw [begun]; rfl)
    rw [recalls.1]
    exact generation.trans (if_neg (by rw [stopping]; decide))
  | ended bound snapshot =>
    obtain ⟨r', unrecorded, retained, -, bounds⟩ := inside
    simp only [slot] at unrecorded retained
    rw [unrecorded, retained] at held
    obtain rfl : r' = r := Option.some.inj held
    rw [recalls.1]
    exact bounds

theorem snapshot_lived {earlier rest : List Label} {snapshot : SessionSnapshot} {reason : TerminalReason} {actor : Actor}
    (lived : (h.slot s).Lived told) (completed : life told = earlier ++ .completed snapshot reason actor :: rest) :
    rest = [] ∧ (∀ reason' actor', .accepted reason' actor' ∈ earlier → reason = reason' ∧ actor = actor') ∧
      h.registry.live[s]? = none ∧ ∀ r, h.registry.retained[s]? = some r → r.snapshot = snapshot := by
  obtain ⟨p, lives, stands⟩ := lived
  rw [completed] at lives
  obtain ⟨rfl, ⟨bound, rfl⟩, caused⟩ := lives.completed
  refine ⟨rfl, caused, ?_⟩
  rcases stands with ⟨r, unrecorded, retained, same, -⟩ | ⟨unrecorded, unretained⟩
  · refine ⟨unrecorded, fun r' retained' => ?_⟩
    obtain rfl := Option.some.inj (retained.symm.trans retained')
    exact same
  · refine ⟨unrecorded, fun r' retained' => ?_⟩
    cases retained'.symm.trans unretained

end Run

theorem snapshot_slot (h : SessionHost) (s : SessionId) :
    (h.registry.snapshot s).map (·.state) = (h.slot s).lifecycle := by
  rw [SessionRegistry.snapshot, Slot.lifecycle, Option.map_map]
  rfl

/-- An abort by the operator is refused, also where every stop is answered with the snapshot of the end. -/
theorem operator_abort_not_replayed :
    ((after sampleDigest sampleHost [⟨.create {} .terminal, 5⟩, ⟨.recordTermination ⟨2⟩ .supervisionFailed .swept, 6⟩]).registry.snapshot
        ⟨2⟩).any (·.state.isTerminal) = true ∧
      (perform sampleDigest ⟨.abort ⟨2⟩ 0 .ofOperator .cancel, 7⟩
        (after sampleDigest sampleHost
          [⟨.create {} .terminal, 5⟩, ⟨.recordTermination ⟨2⟩ .supervisionFailed .swept, 6⟩])).1 =
        .error .operatorPathRequired :=
  ⟨by decide, by decide⟩

/-- The life of a session in any run. Its completion is the last that is told of it, for the stop or cancel that was
accepted before, and is replayed from then on, until a collection or the limit of retention gives it up. An answered
stop has been accepted; after a cancel nothing is bound; the generation counts the one bind; the lifecycle goes from
step to step; and an abort by the operator is refused. -/
theorem after_ends_once (registryLimits : RegistryLimits) (sizeOfRecord : Nat) (registryEntropy : Entropy)
    (limits : LeaseLimits) (entropy : Entropy) (digest : ControlToken → ControlTokenDigest) (calls : List Call) (s : SessionId) :
    let h₀ := empty registryLimits sizeOfRecord registryEntropy limits entropy
    let h := after digest h₀ calls
    let told := life ((events digest h₀ calls).flatMap (·.told s))
    (∀ earlier rest snapshot reason actor, told = earlier ++ .completed snapshot reason actor :: rest →
      rest = [] ∧ (∀ reason' actor', .accepted reason' actor' ∈ earlier → reason = reason' ∧ actor = actor') ∧
        (h.registry.snapshot s = none ∨ h.registry.snapshot s = some snapshot ∧
          ∀ call, call.op.asks = some s → perform digest call h = (.ok (call.op.replay snapshot), h)) ∧
        ∀ call, (h.registry.snapshot s).isSome → (perform digest call h).2.registry.snapshot s = none →
          call.op = .collectRetained ∨ ∃ notice, (perform digest call h).1 = .ok (.termination (.completed notice))) ∧
      (∀ call x, call.op.stops = some s → (perform digest call h).1 = .ok (.stop x) →
        (∀ snapshot, x ≠ .alreadyTerminal snapshot) →
          ∃ reason actor, .accepted reason actor ∈ told ++ Event.told ⟨call, .ok (.stop x)⟩ s) ∧
      (∀ call cancel later, call.op.stops = some s → (perform digest call h).1 = .ok (.stop (.preBindCancel cancel)) →
        (∀ token, .created token ∉ (events digest (perform digest call h).2 later).flatMap (·.told s)) →
          .bound ∉ (events digest (perform digest call h).2 later).flatMap (·.told s)) ∧
      told.count .bound ≤ 1 ∧
      (∀ snapshot, h.registry.snapshot s = some snapshot → snapshot.generation = told.count .bound) ∧
      (∀ call before later, (∀ token, .created token ∉ Event.told ⟨call, (perform digest call h).1⟩ s) →
        h.registry.snapshot s = some before → (perform digest call h).2.registry.snapshot s = some later →
          before.state.Follows later.state) ∧
      ∀ s' generation authority cause now, authority.operator = true →
        perform digest ⟨.abort s' generation authority cause, now⟩ h = (.error .operatorPathRequired, h) := by
  intro h₀ h told
  have sound₀ : h₀.Sound := sound_empty registryLimits sizeOfRecord registryEntropy limits entropy
  have sound : h.Sound := after_sound sound₀ calls
  have named : h.Named := after_named sound₀ (named_empty registryLimits sizeOfRecord registryEntropy limits entropy) calls
  have lived : (h.slot s).Lived ((events digest h₀ calls).flatMap (·.told s)) :=
    after_lived sound₀ (lived_empty registryLimits sizeOfRecord registryEntropy limits entropy) calls
  refine ⟨?_, ?_, ?_, ?_, fun snapshot known => generation_lived sound lived known, ?_, ?_⟩
  · intro earlier rest snapshot reason actor completed
    obtain ⟨last, caused, live, frozen⟩ := snapshot_lived lived completed
    refine ⟨last, caused, ?_, fun call known gone => ?_⟩
    · cases retained : h.registry.retained[s]? with
      | none =>
        refine .inl ?_
        rw [SessionRegistry.snapshot, live, retained]
        rfl
      | some r =>
        obtain rfl := frozen r retained
        refine .inr ⟨?_, fun call asks => perform_replay sound named live retained asks⟩
        rw [SessionRegistry.snapshot, live, retained]
        rfl
    · by_contra stays
      rw [not_or, not_exists] at stays
      have run : perform digest call h = ((perform digest call h).1, (perform digest call h).2) := rfl
      have kept : (perform digest call h).2.registry.retained[s]? = h.registry.retained[s]? :=
        perform_kept sound run stays.1 stays.2 s
      rw [SessionRegistry.snapshot, Option.map_eq_none_iff, Option.or_eq_none_iff, kept] at gone
      rw [SessionRegistry.snapshot, live, gone.2] at known
      cases known
  · intro call x stops run fresh
    have performed : perform digest call h = (.ok (.stop x), (perform digest call h).2) := Prod.ext run rfl
    obtain ⟨reason, answered, tells⟩ := perform_answered sound stops performed
    rcases answered.first with ⟨snapshot, terminal⟩ | asked | ⟨actor, accepted⟩
    · exact absurd terminal (fresh snapshot)
    · obtain ⟨reason, actor, heard⟩ := asked.heard sound lived
      exact ⟨reason, actor, List.mem_append_left _ heard⟩
    · refine ⟨reason, actor, List.mem_append_right _ ?_⟩
      rw [tells, accepted]
      exact List.mem_singleton_self _
  · intro call cancel later stops run same
    have performed : perform digest call h = (.ok (.stop (.preBindCancel cancel)), (perform digest call h).2) := Prod.ext run rfl
    obtain ⟨reason, answered, -⟩ := perform_answered sound stops performed
    obtain ⟨r, st, live, pending⟩ := answered.cancelling cancel rfl
    have sound' : (perform digest call h).2.Sound := (perform_moves sound performed).sound
    have moves : Moves digest _ _ (after digest (perform digest call h).2 later) := run_moves sound' later
    have path := moves.paths s
    have slot := sound'.slots s
    rw [live] at path slot
    exact Slot.unbound_of_cancel slot pending path same
  · obtain ⟨p, lives, -⟩ := lived
    exact lives.count_bound
  · intro call before later same known known'
    have moves : Moves digest _ h (perform digest call h).2 := perform_moves sound rfl
    have brief : (Event.told ⟨call, (perform digest call h).1⟩ s).length ≤ 1 := by
      unfold Event.told
      split
      · exact told_length _ _ _
      · exact Nat.zero_le _
    have start : (h.slot s).lifecycle = some before.state := by rw [← snapshot_slot, known]; rfl
    have stop : ((perform digest call h).2.slot s).lifecycle = some later.state := by rw [← snapshot_slot, known']; rfl
    rcases Slot.lifecycle_path (sound.slots s) (moves.paths s) same brief with none | ⟨a, b, first, last, follows, -⟩
    · rw [none] at stop
      cases stop
    · obtain rfl := Option.some.inj (start.symm.trans first)
      obtain rfl := Option.some.inj (stop.symm.trans last)
      exact follows
  · intro s' generation authority cause now operator
    simp only [perform, abort, bind_apply, refuseIf, operator, if_true]

end SessionHost

end Bitty.Daemon
