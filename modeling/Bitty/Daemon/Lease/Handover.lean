import Bitty.Daemon.Lease.Control
import Bitty.Daemon.Lease.Attach

/-! Leases are detached and control moves from one to another. -/

namespace Bitty.Daemon

open Std (ExtTreeMap)

namespace SessionHost

open Mutation

variable {digest : ControlToken → ControlTokenDigest} {now : MonotonicMs} {h h' h₁ : SessionHost} {s t : SessionId}
  {a target : AttachId} {r r' : SessionRecord} {st st' : SessionLeaseState} {l : Lease} {authority : ControlAuthority}
  {authorized : Authorized}

section Authority

theorem actionableLease_ok (allowed : actionableLease s a now h = .ok l) :
    h.leaseSessions[a]? = some s ∧ (∃ st, h.sessions[s]? = some st ∧ st.leases[a]? = some l) ∧ l.isExpiredAt now = false := by
  unfold actionableLease at allowed
  split_ifs at allowed with foreign
  split at allowed
  · cases allowed
  · rename_i l' here
    split_ifs at allowed with expired
    obtain rfl := Except.ok.inj allowed
    obtain ⟨st, state, lease⟩ := Option.bind_eq_some_iff.mp here
    exact ⟨not_not.mp foreign, ⟨st, state, lease⟩, by simpa using expired⟩

theorem verifyToken_ok {token : ControlToken} :
    verifyToken digest s token h = .ok () ↔ ∃ st, h.sessions[s]? = some st ∧ st.tokenMatches digest token = true := by
  unfold verifyToken
  constructor
  · intro verified
    obtain ⟨st, found, check⟩ := Except.bind_ok verified
    split_ifs at check with matched
    exact ⟨st, findState_ok.mp found, matched⟩
  · rintro ⟨st, state, matched⟩
    rw [findState_ok.mpr state]
    simp [Bind.bind, Except.bind, matched]

theorem resolveRelation_ok {relation : Relation} (resolved : resolveRelation s authority now h = .ok relation) :
    (relation = .operator ∧ authority.operator = true) ∨
      authority.operator = false ∧
        ((∃ a l st, relation = .controller a ∧ authority.lease = some a ∧ h.sessions[s]? = some st ∧ st.leases[a]? = some l ∧
            l.isExpiredAt now = false ∧ l.role = .controller) ∨
          ∃ token st, relation = .vacantToken token ∧ authority.lease = none ∧ authority.token = some token ∧
            h.sessions[s]? = some st ∧ st.liveController now = none) := by
  unfold resolveRelation at resolved
  split_ifs at resolved with operator
  · obtain rfl := Except.ok.inj resolved
    exact .inl ⟨rfl, operator⟩
  · refine .inr ⟨by simpa using operator, ?_⟩
    split at resolved
    · rename_i leaseId carried
      obtain ⟨l, actionable, check⟩ := Except.bind_ok resolved
      split_ifs at check with control
      obtain rfl := Except.ok.inj check
      obtain ⟨-, ⟨st, state, lease⟩, live⟩ := actionableLease_ok actionable
      refine .inl ⟨leaseId, l, st, rfl, carried, state, lease, live, ?_⟩
      cases role : l.role with
      | controller => rfl
      | observer => simp [role, LeaseRole.canControl] at control
    · rename_i uncarried
      split at resolved
      · cases resolved
      · rename_i token carried
        obtain ⟨st, found, check⟩ := Except.bind_ok resolved
        split_ifs at check with held
        obtain rfl := Except.ok.inj check
        exact .inr ⟨token, st, rfl, uncarried, carried, findState_ok.mp found, by simpa using held⟩

theorem authorizeControl_ok {generation : Nat} (allowed : authorizeControl digest s generation authority now h = .ok authorized) :
    authority.operator = false ∧
      ((∃ a l st, authorized = .controller a ∧ authority.lease = some a ∧ h.sessions[s]? = some st ∧ st.leases[a]? = some l ∧
          l.isExpiredAt now = false ∧ l.role = .controller) ∨
        ∃ token st, authorized = .vacantToken ∧ authority.lease = none ∧ authority.token = some token ∧
          h.sessions[s]? = some st ∧ st.liveController now = none ∧ st.tokenMatches digest token = true) := by
  obtain ⟨snapshot, -, rest⟩ := Except.bind_ok allowed
  obtain ⟨relation, resolved, check⟩ := Except.bind_ok rest
  rcases resolveRelation_ok resolved with ⟨rfl, -⟩ | ⟨operator, ⟨a, l, st, rfl, controller⟩ | ⟨token, st, rfl, found⟩⟩
  · cases check
  · simp only at check
    split_ifs at check
    obtain rfl := Except.ok.inj check
    exact ⟨operator, .inl ⟨a, l, st, rfl, controller⟩⟩
  · simp only at check
    split_ifs at check
    obtain ⟨_, verified, same⟩ := Except.bind_ok check
    obtain rfl := Except.ok.inj same
    obtain ⟨st', state', matched⟩ := verifyToken_ok.mp verified
    obtain ⟨uncarried, carried, state, vacant⟩ := found
    obtain rfl := Option.some.inj (state.symm.trans state')
    exact ⟨operator, .inr ⟨token, st, rfl, uncarried, carried, state, vacant, matched⟩⟩

theorem vacant_of_liveController (sound : h.Sound) (state : h.sessions[s]? = some st) (vacant : st.liveController now = none) :
    (st.expiredController now).isSome ∨ st.controller = none := by
  cases controller : st.controller with
  | none => exact .inr rfl
  | some a =>
    obtain ⟨l, lease, -⟩ := (((sound.slots s).table st state).controls a).mp controller
    simp only [SessionLeaseState.liveController, controller, Option.filter_eq_none_iff, Option.some.injEq, forall_eq',
      lease, Option.any_some] at vacant
    simp only [Bool.not_eq_true', Bool.not_eq_false] at vacant
    simp [SessionLeaseState.expiredController, controller, lease, vacant]

end Authority

theorem retireToken_moves (sound : h.Sound) (live : h.slot s = .live r st) (vacant : st.controller = none) :
    Moves digest (only s [.retired]) h (h.retireToken s) :=
  .state sound live (.retire vacant) fun _ => Iff.rfl

theorem vacant_removeLease (r' : SessionRecord) (live : h.slot s = .live r st)
    (controller : st.controller = some a) : ∃ st', ((h.putRecord s r').forgetLease s a).slot s = .live r' st' ∧
      st'.controller = none := by
  refine ⟨st.removeLease a, ?_, by rw [SessionLeaseState.removeLease, if_pos controller]⟩
  rw [slot_forgetLease, if_pos rfl, slot_putRecord, if_pos rfl, live]
  rfl

theorem isController_state (state : h.sessions[s]? = some st) (controller : h.isController s a = true) :
    st.controller = some a := by
  unfold isController at controller
  rw [state] at controller
  simpa using controller

theorem renewActor_moves (sound : h.Sound) (actor : Option AttachId) (target : AttachId) (now : MonotonicMs) :
    Moves digest silent h (match actor with
      | some actorLease => if actorLease ≠ target then h.renewLease actorLease now else h
      | none => h) := by
  split
  · split_ifs
    · exact renewLease_moves sound _ now
    · exact .refl sound
  · exact .refl sound

theorem detachLive_ends {own : Bool} {answer : Except LeaseRefusal Detached} (sound : h.Sound)
    (run : detachLive s target authority own authorized now h = (answer, h')) :
    Ends digest now (fun d => if d.controlRetired then only s [.retired] else silent) h answer h' := by
  unfold detachLive at run
  rw [read_bind] at run
  rcases bind_cases run with ⟨e, first, rfl⟩ | ⟨⟨lease, session⟩, h₁, first, run⟩
  · rcases removeLease_cases first with ⟨-, -, rfl⟩ | ⟨_, _, _, _, _, _, _, _, impossible, _⟩
    · exact .refused (.refl _)
    · cases impossible
  have dropped : Moves digest silent h h₁ := removeLease_moves sound first
  rcases removeLease_cases first with ⟨_, impossible, _⟩ | ⟨st, l, r, r', state, here, record, detached, -, rfl⟩
  · cases impossible
  obtain ⟨rfl, rfl⟩ := Prod.mk.inj run
  refine .done ?_
  dsimp only
  cases retired : h.isController s target && !own && decide (authorized = .operator) with
  | false => exact dropped.trans_silent (renewActor_moves dropped.sound _ target now)
  | true =>
    have controller : h.isController s target = true := by
      simp only [Bool.and_eq_true] at retired
      exact retired.1.1
    obtain ⟨st₀, live⟩ := sound.live_slot record
    obtain rfl := Option.some.inj (state.symm.trans (congrArg Slot.state live))
    obtain ⟨st', live', vacant⟩ := vacant_removeLease r' live (isController_state state controller)
    have retire : Moves digest _ _ _ := retireToken_moves dropped.sound live' vacant
    exact (dropped.trans_silent retire).silent_trans (renewActor_moves retire.sound _ target now)

theorem revokeLapsed_ends {answer : Except LeaseRefusal Detached} (sound : h.Sound) (controller : h.isController s target = true)
    (run : revokeLapsed s target now h = (answer, h')) :
    Ends digest now (fun d => if d.controlRetired then only s [.retired] else silent) h answer h' := by
  unfold revokeLapsed at run
  rcases bind_cases run with ⟨e, first, rfl⟩ | ⟨⟨lease, session⟩, h₁, first, run⟩
  · rcases removeLease_cases first with ⟨-, -, rfl⟩ | ⟨_, _, _, _, _, _, _, _, impossible, _⟩
    · exact .refused (.refl _)
    · cases impossible
  have dropped : Moves digest silent h h₁ := removeLease_moves sound first
  rcases removeLease_cases first with ⟨_, impossible, _⟩ | ⟨st, l, r, r', state, here, record, detached, -, rfl⟩
  · cases impossible
  rw [change_bind] at run
  obtain ⟨st₀, live⟩ := sound.live_slot record
  obtain rfl := Option.some.inj (state.symm.trans (congrArg Slot.state live))
  obtain ⟨st', live', vacant⟩ := vacant_removeLease r' live (isController_state state controller)
  rcases ask_bind_cases run with ⟨e, missing, -⟩ | ⟨snapshot, -, run⟩
  · have known : (((h.putRecord s r').forgetLease s target).retireToken s).registry.snapshot s = some r'.snapshot := by
      have held : (h.registry.live.insert s r')[s]? = some r' := by rw [TreeMap.find_insert, if_pos rfl]
      simp only [SessionRegistry.snapshot, retireToken, modifyState, forgetLease, putRecord, held]
      rfl
    rw [findSnapshot_ok.mpr known] at missing
    cases missing
  obtain ⟨rfl, rfl⟩ := Prod.mk.inj run
  exact .done (dropped.trans_silent (retireToken_moves dropped.sound live' vacant))

theorem detachAuthorized_ends {own : Bool} {snapshot : SessionSnapshot} {answer : Except LeaseRefusal Detached} (sound : h.Sound)
    (run : detachAuthorized s target authority own snapshot authorized now h = (answer, h')) :
    Ends digest now (fun d => if d.controlRetired then only s [.retired] else silent) h answer h' := by
  unfold detachAuthorized at run
  split_ifs at run with live lapsed
  · exact detachLive_ends sound run
  · simp only [Bool.and_eq_true] at lapsed
    exact revokeLapsed_ends sound lapsed.1.1 run
  · obtain ⟨rfl, rfl⟩ := Prod.mk.inj run
    exact .done (.refl sound)

theorem detach_ends {answer : Except LeaseRefusal Detached} (sound : h.Sound)
    (run : detach digest s target authority now h = (answer, h')) :
    Ends digest now (fun d => if d.controlRetired then only s [.retired] else silent) h answer h' := by
  unfold detach at run
  rcases ask_bind_cases run with ⟨e, -, rfl, rfl⟩ | ⟨snapshot, known, run⟩
  · exact .refused (.refl _)
  split_ifs at run with terminal own
  · obtain ⟨rfl, rfl⟩ := Prod.mk.inj run
    exact .done (.refl sound)
  · rcases refuseIf_bind_cases run with ⟨-, rfl, rfl⟩ | ⟨-, run⟩
    · exact .refused (.refl _)
    unfold detachOwn at run
    split_ifs at run with expired
    · obtain ⟨rfl, rfl⟩ := Prod.mk.inj run
      exact .done (.refl sound)
    · rcases ask_bind_cases run with ⟨e, -, rfl, rfl⟩ | ⟨lease, -, run⟩
      · exact .refused (.refl _)
      · exact detachAuthorized_ends sound run
  · rcases refuseIf_bind_cases run with ⟨-, rfl, rfl⟩ | ⟨-, run⟩
    · exact .refused (.refl _)
    unfold detachOther at run
    rcases ask_bind_cases run with ⟨e, -, rfl, rfl⟩ | ⟨authorized, -, run⟩
    · exact .refused (.refl _)
    · exact detachAuthorized_ends sound run

theorem transferTarget_ok (allowed : transferTarget s target now h = .ok st) :
    h.sessions[s]? = some st ∧ ∃ l : Lease, st.leases[target]? = some l ∧ l.isExpiredAt now = false ∧ l.role = .observer := by
  unfold transferTarget at allowed
  obtain ⟨st', found, check⟩ := Except.bind_ok allowed
  split at check
  · cases check
  · rename_i l lease
    split_ifs at check with expired role
    obtain rfl := Except.ok.inj check
    exact ⟨findState_ok.mp found, l, lease, by simpa using expired, not_not.mp role⟩

theorem handles_moved {previous : Option AttachId} {newDigest : ControlTokenDigest} :
    (∃ l : Lease, (st.moved previous target newDigest).leases[a]? = some l) ↔ ∃ l : Lease, st.leases[a]? = some l := by
  cases previous with
  | none => exact handles_modifyLease
  | some previous =>
    exact Iff.trans (b := ∃ l : Lease, (st.modifyLease previous (·.setRole .observer)).leases[a]? = some l)
      handles_modifyLease handles_modifyLease

theorem recordLeaseMutation_moves (sound : h.Sound) (live : h.slot s = .live r st)
    (counted : r.recordLeaseMutation now = .ok r') :
    Moves digest silent h (h.putRecord s r') ∧ (h.putRecord s r').slot s = .live r' st := by
  have same : r.SameCore r' := .of_revise (SessionRecord.recordLeaseMutation_ok counted).2
  have moves : Moves digest (only s []) h (h.putRecord s r') := .record sound live (.touch same)
  rw [only_nil] at moves
  refine ⟨moves, ?_⟩
  rw [slot_putRecord, if_pos rfl, live]
  rfl

theorem moveControl_moves {previous : Option AttachId} {token : ControlToken} (sound : h.Sound) (live : h.slot s = .live r st)
    (move : Slot.Move digest h.limits.maxAttachesPerSession (.live r st) [.issued token]
      (.live r (st.moved previous target (digest token)))) :
    Moves digest (only s [.issued token]) h (h.moveControl s previous target (digest token) now) := by
  have moved := Moves.state (f := (·.moved previous target (digest token))) sound live move fun a => handles_moved
  unfold moveControl
  cases previous with
  | none => exact moved.silent_trans (renewLease_moves moved.sound target now)
  | some previous =>
    have renewed := moved.silent_trans (renewLease_moves moved.sound previous now)
    exact renewed.silent_trans (renewLease_moves renewed.sound target now)

theorem transferControl_ends {generation : Nat} {answer : Except LeaseRefusal Transferred} (sound : h.Sound)
    (run : transferControl digest s generation authority target now h = (answer, h')) :
    Ends digest now (fun t => only s [.issued t.delivery.token]) h answer h' := by
  unfold transferControl at run
  rcases ask_bind_cases run with ⟨e, -, rfl, rfl⟩ | ⟨session, -, run⟩
  · exact .refused (.refl _)
  rcases refuseIf_bind_cases run with ⟨-, rfl, rfl⟩ | ⟨-, run⟩
  · exact .refused (.refl _)
  rcases ask_bind_cases run with ⟨e, -, rfl, rfl⟩ | ⟨authorized, allowed, run⟩
  · exact .refused (.refl _)
  rcases ask_bind_cases run with ⟨e, -, rfl, rfl⟩ | ⟨st, targeted, run⟩
  · exact .refused (.refl _)
  rcases ask_bind_cases run with ⟨e, -, rfl, rfl⟩ | ⟨⟨previous, expired⟩, parties, run⟩
  · exact .refused (.refl _)
  obtain ⟨state, l, lease, live, role⟩ := transferTarget_ok targeted
  have rotated : Whole now h (mintRotatedToken digest s h).2 := mintRotatedToken_whole h s
  rcases bind_cases run with ⟨e, first, rfl⟩ | ⟨token, h₁, first, run⟩
  · rw [first] at rotated
    exact .refused rotated
  have same₁ : h₁.sessions = h.sessions := by
    obtain ⟨e, -, same⟩ := mintRotatedToken_spec digest h s
    rw [first] at same
    simp only at same
    rw [same]
  rw [first] at rotated
  refine .after sound rotated ?_
  have sound₁ : h₁.Sound := rotated.sound sound
  have state₁ : h₁.sessions[s]? = some st := by rw [same₁, state]
  -- Who hands over: the controller, or, with the token, nobody; in the second case an expired one leaves first.
  have parts : (∃ a l', previous = some a ∧ expired = none ∧ st.leases[a]? = some l' ∧ l'.role = .controller) ∨
      previous = none ∧ expired = st.expiredController now ∧ st.liveController now = none ∧
        ∃ presented, st.tokenMatches digest presented = true := by
    obtain ⟨-, ⟨a, l', st', rfl, -, state', lease', -, role'⟩ | ⟨presented, st', rfl, -, -, state', vacant, matched⟩⟩ :=
      authorizeControl_ok allowed
    · obtain rfl := Option.some.inj (state.symm.trans state')
      obtain ⟨rfl, rfl⟩ := Prod.mk.inj (Except.ok.inj parties)
      exact .inl ⟨a, l', rfl, rfl, lease', role'⟩
    · obtain rfl := Option.some.inj (state.symm.trans state')
      obtain ⟨rfl, rfl⟩ := Prod.mk.inj (Except.ok.inj parties)
      exact .inr ⟨rfl, rfl, vacant, presented, matched⟩
  rcases bind_cases run with ⟨e, second, rfl⟩ | ⟨vacated, h₂, second, run⟩
  · rcases parts with ⟨a, l', rfl, rfl, -⟩ | ⟨rfl, rfl, -⟩
    · cases second
    · rcases vacate_cases sound₁ state₁ second with ⟨-, -, rfl⟩ | ⟨_, _, impossible, _⟩
      · exact .refused (.refl _)
      · cases impossible
  have left : ∃ st₂, h₂.sessions[s]? = some st₂ ∧ Whole now h₁ h₂ ∧ ∀ r, Slot.Move digest h₂.limits.maxAttachesPerSession
      (.live r st₂) [.issued token] (.live r (st₂.moved previous target (digest token))) := by
    rcases parts with ⟨a, l', rfl, rfl, lease', role'⟩ | ⟨rfl, rfl, vacant, presented, matched⟩
    · obtain ⟨-, rfl⟩ := Prod.mk.inj second
      have holds := (((sound₁.slots s).table st state₁).controls a).mpr ⟨l', lease', role'⟩
      exact ⟨st, state₁, .refl _, fun r => .hand holds lease role (.refl r)⟩
    · rcases vacate_cases sound₁ state₁ second with ⟨_, impossible, _⟩ | ⟨_, st₂, -, whole, state₂, nobody⟩
      · cases impossible
      obtain ⟨st₀, state₀, lapsed⟩ := whole.state state₂
      obtain rfl := Option.some.inj (state₁.symm.trans state₀)
      have known : st₂.tokenMatches digest presented = true := by rw [lapsed.tokenMatches, matched]
      exact ⟨st₂, state₂, whole, fun r => .take (nobody (vacant_of_liveController sound state vacant)) known
        (lapsed.kept lease live) role (.refl r)⟩
  obtain ⟨st₂, state₂, whole, move⟩ := left
  refine .after sound₁ whole ?_
  have sound₂ : h₂.Sound := whole.sound sound₁
  rcases bind_cases run with ⟨e, counted, rfl⟩ | ⟨session, h₃, counted, run⟩
  · rcases onRegistry_cases counted with ⟨-, -, rfl, -⟩ | ⟨_, _, _, _, impossible, _⟩
    · exact .refused (.refl _)
    · cases impossible
  rcases onRegistry_cases counted with ⟨_, impossible, _⟩ | ⟨r, r', record, recorded, -, rfl⟩
  · cases impossible
  obtain ⟨st₃, live₂⟩ := sound₂.live_slot record
  obtain rfl := Option.some.inj (state₂.symm.trans (congrArg Slot.state live₂))
  rcases ask_bind_cases run with ⟨e, missing, -⟩ | ⟨_, -, run⟩
  · rw [(findState_ok (s := s) (h := h₂.putRecord s r')).mpr state₂] at missing
    cases missing
  obtain ⟨rfl, rfl⟩ := Prod.mk.inj run
  obtain ⟨recording, live₃⟩ : Moves digest silent h₂ (h₂.putRecord s r') ∧ (h₂.putRecord s r').slot s = .live r' st₂ :=
    recordLeaseMutation_moves sound₂ live₂ recorded
  exact .done (recording.trans_silent (moveControl_moves recording.sound live₃ (move r')))

theorem recordResize_ends {answer : Except LeaseRefusal SessionSnapshot} (sound : h.Sound)
    (run : recordResize a now h = (answer, h')) : Ends digest now (fun _ => silent) h answer h' := by
  unfold recordResize at run
  rcases ask_bind_cases run with ⟨e, -, rfl, rfl⟩ | ⟨lease, -, run⟩
  · exact .refused (.refl _)
  rcases ask_bind_cases run with ⟨e, -, rfl, rfl⟩ | ⟨s, owner, run⟩
  · exact .refused (.refl _)
  rcases bind_cases run with ⟨e, counted, rfl⟩ | ⟨session, h₁, counted, run⟩
  · rcases onRegistry_cases counted with ⟨-, -, rfl, -⟩ | ⟨_, _, _, _, impossible, _⟩
    · exact .refused (.refl _)
    · cases impossible
  rcases onRegistry_cases counted with ⟨_, impossible, _⟩ | ⟨r, r', record, recorded, -, rfl⟩
  · cases impossible
  obtain ⟨rfl, rfl⟩ := Prod.mk.inj run
  obtain ⟨st, live⟩ := sound.live_slot record
  have recording : Moves digest silent h (h.putRecord s r') := (recordLeaseMutation_moves sound live recorded).1
  exact .done (recording.trans_silent (renewLease_moves recording.sound a now))

theorem recordGrantMutation_ends {answer : Except LeaseRefusal SessionSnapshot} (sound : h.Sound)
    (run : recordGrantMutation s now h = (answer, h')) : Ends digest now (fun _ => silent) h answer h' := by
  unfold recordGrantMutation at run
  rcases bind_cases run with ⟨e, counted, rfl⟩ | ⟨session, h₁, counted, run⟩
  · rcases onRegistry_cases counted with ⟨-, -, rfl, -⟩ | ⟨_, _, _, _, impossible, _⟩
    · exact .refused (.refl _)
    · cases impossible
  rcases onRegistry_cases counted with ⟨_, impossible, _⟩ | ⟨r, r', record, recorded, -, rfl⟩
  · cases impossible
  obtain ⟨rfl, rfl⟩ := Prod.mk.inj run
  obtain ⟨st, live⟩ := sound.live_slot record
  exact .done (recordLeaseMutation_moves sound live recorded).1

section Notes

theorem note_moves {noted : SessionRecord → SessionRecord} (sound : h.Sound) (same : ∀ r : SessionRecord, r.SameCore (noted r)) :
    Moves digest silent h { h with registry := h.registry.note s noted } := by
  have slots (t : SessionId) : ({ h with registry := h.registry.note s noted } : SessionHost).slot t =
      if s = t then { h.slot t with record := (h.slot t).record.map fun r => if r.state.isTerminal then r else noted r }
      else h.slot t := by
    simp only [slot, SessionRegistry.note, TreeMap.find_modify]
    split_ifs <;> rfl
  rw [← only_nil (s := s)]
  refine .kept sound ?_ (fun t other => ?_) (fun a => ?_) rfl rfl rfl rfl rfl
  · rw [slots, if_pos rfl]
    cases record : (h.slot s).record with
    | none =>
      have before : h.slot s = { h.slot s with record := none } := by rw [← record]
      rw [Option.map_none, ← before]
      exact .nil _
    | some r =>
      obtain ⟨st, live⟩ := sound.live_slot record
      rw [live]
      refine .one (.touch ?_)
      dsimp only
      split_ifs
      · exact .refl r
      · exact same r
  · rw [slots, if_neg other]
  · rw [slots, if_pos rfl]
    rfl

theorem observeWorker_moves (sound : h.Sound) : Moves digest silent h (observeWorker s now h).2 := by
  cases run : onRegistry (SessionRegistry.observeWorker s now) h with
  | mk answer after =>
    have observed : (observeWorker s now h).2 = after := by
      have tried : attempt (onRegistry (SessionRegistry.observeWorker s now)) h = (.ok answer.toOption, after) := by
        unfold attempt
        rw [run]
      unfold observeWorker
      rw [bind_of_ok tried]
      rfl
    rw [observed]
    rcases onRegistry_cases run with ⟨-, -, rfl, -⟩ | ⟨r, r', record, seen, -, rfl⟩
    · exact .refl sound
    · obtain ⟨st, live⟩ := sound.live_slot record
      rw [← only_nil (s := s)]
      refine .record sound live (.touch ?_)
      rw [SessionRecord.observeWorker_ok seen]
      exact ⟨rfl, rfl, rfl, rfl, Nat.le_refl _⟩

theorem assignLeaseClient_moves (sound : h.Sound) (clientId : ClientId) :
    Moves digest silent h (h.assignLeaseClient a clientId) := by
  unfold assignLeaseClient
  cases owner : h.leaseSessions[a]? with
  | none => exact .refl sound
  | some s =>
    obtain ⟨st, l, state, lease⟩ := (sound.owned a s).mp owner
    obtain ⟨r, live⟩ := sound.live_of_lease state lease
    rw [← only_nil (s := s)]
    exact .state (f := (·.modifyLease a (·.setClientId clientId))) sound live (.renew fun _ => ⟨rfl, rfl⟩)
      fun b => handles_modifyLease

end Notes

end SessionHost

end Bitty.Daemon
