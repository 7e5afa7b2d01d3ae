import Bitty.Daemon.Lease.Birth

/-! Leases come to a session: as an observer's, by attaching, or as the controller's, by a claim. -/

namespace Bitty.Daemon

open Std (ExtTreeMap)

namespace SessionLeaseState

variable {s s' : SessionLeaseState} {now : MonotonicMs}

theorem Lapsed.tokenMatches (lapsed : s.Lapsed now s') (digest : ControlToken → ControlTokenDigest) (token : ControlToken) :
    s'.tokenMatches digest token = s.tokenMatches digest token := by
  unfold SessionLeaseState.tokenMatches
  rw [lapsed.token]

theorem Lapsed.observers_le (lapsed : s.Lapsed now s')
    (swept : ∀ (a : AttachId) l, s'.leases[a]? = some l → l.isExpiredAt now = false) : s'.observers ≤ s.liveObservers now := by
  refine TreeMap.size_le_of_sub fun a l here => ?_
  rw [TreeMap.find_filter, Option.filter_eq_some_iff] at here ⊢
  exact ⟨lapsed.sub here.1, by rw [here.2, swept a l here.1]; rfl⟩

theorem expiredController_some {l : Lease} (expired : s.expiredController now = some l) :
    ∃ a, s.controller = some a ∧ s.leases[a]? = some l ∧ l.isExpiredAt now = true := by
  obtain ⟨held, expired⟩ := Option.filter_eq_some_iff.mp expired
  obtain ⟨a, controller, lease⟩ := Option.bind_eq_some_iff.mp held
  exact ⟨a, controller, lease, expired⟩

end SessionLeaseState

namespace SessionHost

open Mutation

variable {digest : ControlToken → ControlTokenDigest} {now : MonotonicMs} {h h' h₁ : SessionHost} {s t : SessionId}
  {a : AttachId} {r r' : SessionRecord} {st st' : SessionLeaseState} {l : Lease}

theorem Whole.unheld (sound : h.Sound) (whole : Whole now h h') (fresh : h.leaseSessions[a]? = none) :
    h'.leaseSessions[a]? = none := by
  have sound' := whole.sound sound
  cases owner : h'.leaseSessions[a]? with
  | none => rfl
  | some t =>
    obtain ⟨st', l, state', lease⟩ := (sound'.owned a t).mp owner
    obtain ⟨st, state, lapsed⟩ := whole.state state'
    rw [(sound.owned a t).mpr ⟨st, l, state, lapsed.sub lease⟩] at fresh
    cases fresh

theorem unheld_state (sound : h.Sound) (fresh : h.leaseSessions[a]? = none) (state : h.sessions[s]? = some st) :
    st.leases[a]? = none := by
  cases lease : st.leases[a]? with
  | none => rfl
  | some l =>
    rw [(sound.owned a s).mpr ⟨st, l, state, lease⟩] at fresh
    cases fresh

theorem mintRotatedToken_whole (h : SessionHost) (s : SessionId) : Whole now h (mintRotatedToken digest s h).2 := by
  obtain ⟨e, less, same⟩ := mintRotatedToken_spec digest h s
  rw [same]
  exact whole_drew less

theorem mintAttachId_whole (h : SessionHost) : Whole now h (mintAttachId h).2 := by
  obtain ⟨e, kept, same⟩ := mintAttachIdWithin_spec ID_GENERATION_ATTEMPTS h
  unfold mintAttachId
  rw [same]
  exact whole_drew (by simp only [kept, List.suffix_rfl])

theorem enrolled_moves {f : SessionLeaseState → SessionLeaseState} {labels : List Label} (sound : h.Sound)
    (live : h.slot s = .live r st) (fresh : h.leaseSessions[a]? = none) (leases : (f st).leases = st.leases.insert a l)
    (move : Slot.Move digest h.limits.maxAttachesPerSession (.live r st) labels (.live r' (f st))) :
    Moves digest (only s labels) h
      { (h.putRecord s r').modifyState s f with leaseSessions := h.leaseSessions.insert a s } := by
  have slots (t : SessionId) : ({ (h.putRecord s r').modifyState s f with leaseSessions := h.leaseSessions.insert a s } :
      SessionHost).slot t = ((h.putRecord s r').modifyState s f).slot t := rfl
  have after : ((h.putRecord s r').modifyState s f).slot s = .live r' (f st) := by
    rw [slot_modifyState, if_pos rfl, slot_putRecord, if_pos rfl, live]
    rfl
  refine .single sound ?_ (fun t other => ?_) (fun b t => ?_) rfl rfl rfl rfl
  · rw [slots, after, live]
    exact .one move
  · rw [slots, slot_modifyState, if_neg other, slot_putRecord, if_neg other]
  · rw [slots, after]
    have owned := sound.owned b s
    rw [live] at owned
    have index : (h.leaseSessions.insert a s)[b]? = if a = b then some s else h.leaseSessions[b]? := TreeMap.find_insert _ _ _ _
    have table : (f st).leases[b]? = if a = b then some l else st.leases[b]? := by rw [leases, TreeMap.find_insert]
    by_cases same : a = b
    · subst same
      rw [if_pos rfl] at index table
      have holds : (Slot.live r' (f st)).Holds a := ⟨f st, l, rfl, table⟩
      refine Iff.trans (b := s = t) ?_ ?_
      · exact (Iff.of_eq (congrArg (· = some t) index)).trans ⟨Option.some.inj, congrArg some⟩
      · split_ifs with mine
        · exact iff_of_true mine holds
        · rw [fresh]
          exact iff_of_false mine (by simp)
    · rw [if_neg same] at index table
      refine (Iff.of_eq (congrArg (· = some t) index)).trans ?_
      split_ifs with mine
      · subst mine
        simp only [Slot.Holds, Slot.live, Option.some.injEq, exists_and_left, exists_eq_left', table] at owned ⊢
        exact owned
      · exact Iff.rfl

theorem attachObserver_ends {answer : Except LeaseRefusal Attached} (sound : h.Sound)
    (run : attachObserver s now h = (answer, h')) : Ends digest now (fun _ => silent) h answer h' := by
  unfold attachObserver at run
  rcases ask_bind_cases run with ⟨e, -, rfl, rfl⟩ | ⟨session, known, run⟩
  · exact .refused (.refl _)
  rcases ask_bind_cases run with ⟨e, -, rfl, rfl⟩ | ⟨st, found, run⟩
  · exact .refused (.refl _)
  rw [read_bind] at run
  rcases refuseIf_bind_cases run with ⟨-, rfl, rfl⟩ | ⟨room, run⟩
  · exact .refused (.refl _)
  have state := findState_ok.mp found
  have minted : Whole now h (mintAttachId h).2 := mintAttachId_whole h
  rcases bind_cases run with ⟨e, first, rfl⟩ | ⟨a, h₁, first, run⟩
  · rw [first] at minted
    exact .refused minted
  rw [first] at minted
  have fresh := minted.unheld sound (mintAttachIdWithin_fresh first)
  have sound₁ : h₁.Sound := minted.sound sound
  obtain ⟨⟨expired, answered⟩, whole, swept⟩ := sweepSession_spec sound₁ s now
  have sweep : sweepSession s now h₁ = (.ok expired, (sweepSession s now h₁).2) := Prod.ext answered rfl
  rw [bind_of_ok sweep] at run
  generalize (sweepSession s now h₁).2 = h₂ at run whole swept
  have gone := minted.trans whole
  have sound₂ : h₂.Sound := gone.sound sound
  refine .after sound gone ?_
  rcases refuseIf_bind_cases run with ⟨-, rfl, rfl⟩ | ⟨-, run⟩
  · exact .refused (.refl _)
  rcases bind_cases run with ⟨e, counted, rfl⟩ | ⟨session, h₃, counted, run⟩
  · rcases onRegistry_cases counted with ⟨-, -, rfl, -⟩ | ⟨_, _, _, _, impossible, _⟩
    · exact .refused (.refl _)
    · cases impossible
  rcases onRegistry_cases counted with ⟨_, impossible, _⟩ | ⟨r, r', record, attached, -, rfl⟩
  · cases impossible
  obtain ⟨st₂, live⟩ := sound₂.live_slot record
  have state₂ : h₂.sessions[s]? = some st₂ := congrArg Slot.state live
  rcases ask_bind_cases run with ⟨e, missing, -⟩ | ⟨_, -, run⟩
  · rw [(findState_ok (s := s) (h := h₂.putRecord s r')).mpr state₂] at missing
    cases missing
  obtain ⟨rfl, rfl⟩ := Prod.mk.inj run
  have below := (SessionRecord.attach_ok attached).2.1
  have clean : h₂.Swept s now := by
    refine swept.resolve_left ?_
    rintro ⟨r₀, record₀, full⟩
    obtain rfl := Option.some.inj (record.symm.trans record₀)
    omega
  obtain ⟨st₀, state₀, lapsed⟩ := gone.state state₂
  obtain rfl := Option.some.inj (state.symm.trans state₀)
  have few : st₂.observers < h₂.limits.maxAttachesPerSession := by
    have below := lapsed.observers_le (clean st₂ state₂)
    rw [gone.limits]
    simp only [decide_eq_false_iff_not] at room
    omega
  have unheld := whole.unheld sound₁ fresh
  have moves : Moves digest (only s []) h₂ _ := enrolled_moves (l := Lease.new a .observer now h.limits.attachLeaseTtlMs)
    (f := (·.attached (Lease.new a .observer now h.limits.attachLeaseTtlMs))) sound₂ live unheld rfl
    (.attach (unheld_state sound₂ unheld state₂) rfl few attached)
  rw [only_nil] at moves
  exact .done moves

/-- The due detach of an expired controller leaves the session without one. -/
theorem vacate_cases {answer : Except LeaseRefusal (Option LeaseExpiry)} (sound : h.Sound)
    (state : h.sessions[s]? = some st) (run : vacate s now (st.expiredController now) h = (answer, h')) :
    (∃ e, answer = .error e ∧ h' = h) ∨
      ∃ x st', answer = .ok x ∧ Whole now h h' ∧ h'.sessions[s]? = some st' ∧
        ((st.expiredController now).isSome ∨ st.controller = none → st'.controller = none) := by
  cases expired : st.expiredController now with
  | none =>
    rw [expired] at run
    obtain ⟨rfl, rfl⟩ := Prod.mk.inj run
    exact .inr ⟨none, st, rfl, .refl _, state, by simp⟩
  | some l =>
    obtain ⟨a, controller, lease, due⟩ := SessionLeaseState.expiredController_some expired
    have key := ((sound.slots s).table st state).keyed a l lease
    subst key
    rw [expired] at run
    unfold vacate at run
    rcases bind_cases run with ⟨e, first, rfl⟩ | ⟨⟨vacated, detached⟩, h₁, first, run⟩
    · rcases removeLease_cases first with ⟨-, -, rfl⟩ | ⟨_, _, _, _, _, _, _, _, impossible, _⟩
      · exact .inl ⟨e, rfl, rfl⟩
      · cases impossible
    · obtain ⟨rfl, rfl⟩ := Prod.mk.inj run
      rcases removeLease_cases first with ⟨_, impossible, _⟩ | ⟨st₀, l₀, r, r', state₀, lease₀, record, detach, -, rfl⟩
      · cases impossible
      obtain rfl := Option.some.inj (state.symm.trans state₀)
      obtain rfl := Option.some.inj (lease.symm.trans lease₀)
      have after : ((h.putRecord s r').forgetLease s l.attachId).sessions[s]? = some (st.removeLease l.attachId) := by
        have slot := slot_forgetLease (h := h.putRecord s r') (s := s) (a := l.attachId) (t := s)
        rw [if_pos rfl] at slot
        refine (congrArg Slot.state slot).trans ?_
        have before : ((h.putRecord s r').slot s).state = some st := state
        rw [before]
        rfl
      exact .inr ⟨_, _, rfl, .single (.due state lease due record detach), after,
        fun _ => by rw [SessionLeaseState.removeLease, if_pos controller]⟩

theorem claimController_ends {generation : Nat} {token : ControlToken} {answer : Except LeaseRefusal Claimed} (sound : h.Sound)
    (run : claimController digest s generation token now h = (answer, h')) :
    Ends digest now (fun c => only s [.issued c.controlToken]) h answer h' := by
  unfold claimController at run
  rcases ask_bind_cases run with ⟨e, -, rfl, rfl⟩ | ⟨session, known, run⟩
  · exact .refused (.refl _)
  rcases refuseIf_bind_cases run with ⟨-, rfl, rfl⟩ | ⟨-, run⟩
  · exact .refused (.refl _)
  rcases refuseIf_bind_cases run with ⟨-, rfl, rfl⟩ | ⟨-, run⟩
  · exact .refused (.refl _)
  rcases ask_bind_cases run with ⟨e, -, rfl, rfl⟩ | ⟨st, found, run⟩
  · exact .refused (.refl _)
  rcases refuseIf_bind_cases run with ⟨-, rfl, rfl⟩ | ⟨free, run⟩
  · exact .refused (.refl _)
  rcases refuseIf_bind_cases run with ⟨-, rfl, rfl⟩ | ⟨matched, run⟩
  · exact .refused (.refl _)
  have state := findState_ok.mp found
  have rotated : Whole now h (mintRotatedToken digest s h).2 := mintRotatedToken_whole h s
  rcases bind_cases run with ⟨e, first, rfl⟩ | ⟨controlToken, h₁, first, run⟩
  · rw [first] at rotated
    exact .refused rotated
  have same₁ : h₁.sessions = h.sessions := by
    obtain ⟨e, -, same⟩ := mintRotatedToken_spec digest h s
    rw [first] at same
    simp only at same
    rw [same]
  rw [first] at rotated
  refine .after sound rotated ?_
  have sound₁ : h₁.Sound := rotated.sound sound
  have minted : Whole now h₁ (mintAttachId h₁).2 := mintAttachId_whole h₁
  rcases bind_cases run with ⟨e, second, rfl⟩ | ⟨a, h₂, second, run⟩
  · rw [second] at minted
    exact .refused minted
  have same₂ : h₂.sessions = h₁.sessions := by
    obtain ⟨e, -, same⟩ := mintAttachIdWithin_spec ID_GENERATION_ATTEMPTS h₁
    unfold mintAttachId at second
    rw [second] at same
    simp only at same
    rw [same]
  rw [second] at minted
  refine .after sound₁ minted ?_
  have sound₂ : h₂.Sound := minted.sound sound₁
  have fresh := minted.unheld sound₁ (mintAttachIdWithin_fresh second)
  rw [read_bind] at run
  have state₂ : h₂.sessions[s]? = some st := by rw [same₂, same₁, state]
  rcases bind_cases run with ⟨e, third, rfl⟩ | ⟨vacated, h₃, third, run⟩
  · rcases vacate_cases sound₂ state₂ third with ⟨-, -, rfl⟩ | ⟨_, _, impossible, _⟩
    · exact .refused (.refl _)
    · cases impossible
  rcases vacate_cases sound₂ state₂ third with ⟨_, impossible, _⟩ | ⟨_, st₃, -, whole, state₃, vacant⟩
  · cases impossible
  refine .after sound₂ whole ?_
  have sound₃ : h₃.Sound := whole.sound sound₂
  have nobody : st₃.controller = none := by
    refine vacant ?_
    cases expired : st.expiredController now with
    | some l => exact .inl rfl
    | none =>
      rw [expired] at free
      exact .inr (by simpa using free)
  obtain ⟨st₀, state₀, lapsed⟩ := whole.state state₃
  obtain rfl := Option.some.inj (state₂.symm.trans state₀)
  have presented : st₃.tokenMatches digest token = true := by
    rw [lapsed.tokenMatches]
    simpa using matched
  rcases bind_cases run with ⟨e, counted, rfl⟩ | ⟨session, h₄, counted, run⟩
  · rcases onRegistry_cases counted with ⟨-, -, rfl, -⟩ | ⟨_, _, _, _, impossible, _⟩
    · exact .refused (.refl _)
    · cases impossible
  rcases onRegistry_cases counted with ⟨_, impossible, _⟩ | ⟨r, r', record, attached, -, rfl⟩
  · cases impossible
  obtain ⟨st₄, live⟩ := sound₃.live_slot record
  obtain rfl := Option.some.inj (state₃.symm.trans (congrArg Slot.state live))
  rcases ask_bind_cases run with ⟨e, missing, -⟩ | ⟨_, -, run⟩
  · rw [(findState_ok (s := s) (h := h₃.putRecord s r')).mpr state₃] at missing
    cases missing
  obtain ⟨rfl, rfl⟩ := Prod.mk.inj run
  have unheld := whole.unheld sound₂ fresh
  have claim : Slot.Move digest h₃.limits.maxAttachesPerSession (.live r st₃) [.issued controlToken]
      (.live r' (st₃.claimedBy (Lease.new a .controller now h₂.limits.attachLeaseTtlMs) (digest controlToken))) :=
    .claim (unheld_state sound₃ unheld state₃) rfl nobody presented attached
  exact .done (enrolled_moves sound₃ live unheld rfl claim)

theorem heartbeat_ends {answer : Except LeaseRefusal LeaseHeartbeat} (sound : h.Sound)
    (run : heartbeat a now h = (answer, h')) : Ends digest now (fun _ => silent) h answer h' := by
  unfold heartbeat at run
  rcases ask_bind_cases run with ⟨e, -, rfl, rfl⟩ | ⟨s, owner, run⟩
  · exact .refused (.refl _)
  rcases ask_bind_cases run with ⟨e, -, rfl, rfl⟩ | ⟨l, lease, run⟩
  · exact .refused (.refl _)
  rcases refuseIf_bind_cases run with ⟨-, rfl, rfl⟩ | ⟨-, run⟩
  · exact .refused (.refl _)
  rcases bind_cases run with ⟨e, beat, rfl⟩ | ⟨session, h₁, beat, run⟩
  · rcases onRegistry_cases beat with ⟨-, -, rfl, -⟩ | ⟨_, _, _, _, impossible, _⟩
    · exact .refused (.refl _)
    · cases impossible
  rcases onRegistry_cases beat with ⟨_, impossible, _⟩ | ⟨r, r', record, heard, -, rfl⟩
  · cases impossible
  obtain ⟨rfl, rfl⟩ := Prod.mk.inj run
  obtain ⟨st, live⟩ := sound.live_slot record
  have same : r.SameCore r' := by
    rw [SessionRecord.heartbeat_ok heard]
    exact ⟨rfl, rfl, rfl, rfl, Nat.le_refl _⟩
  have touched : Moves digest (only s []) h (h.putRecord s r') := .record sound live (.touch same)
  rw [only_nil] at touched
  have live' : (h.putRecord s r').slot s = .live r' st := by
    rw [slot_putRecord, if_pos rfl, live]
    rfl
  have renewed : Moves digest (only s []) (h.putRecord s r')
      ((h.putRecord s r').modifyState s (·.modifyLease a (·.renew now h.limits.attachLeaseTtlMs))) :=
    .state touched.sound live' (.renew fun _ => ⟨rfl, rfl⟩) fun b => handles_modifyLease
  rw [only_nil] at renewed
  exact .done (touched.trans_silent renewed)

end SessionHost

end Bitty.Daemon
