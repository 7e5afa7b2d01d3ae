import Bitty.Daemon.Lease.Sweep

/-! How the operations end: refused and whole, or with moves of the sessions. The creation of a session, its
discard, its bind and the end of its retention. -/

namespace Bitty.Daemon

open Std (ExtTreeMap)

namespace SessionRegistry

open Mutation

variable {g g' : SessionRegistry} {s : SessionId}

theorem fill_spec (g : SessionRegistry) : ∃ e, (fill g).2 = { g with entropy := e } := by
  unfold fill
  split <;> exact ⟨_, rfl⟩

def Drawn (g g' : SessionRegistry) : Prop := ∃ e, g' = { g with entropy := e }

theorem Drawn.refl (g : SessionRegistry) : g.Drawn g := ⟨g.entropy, rfl⟩

theorem Drawn.trans {g'' : SessionRegistry} (first : g.Drawn g') (second : g'.Drawn g'') : g.Drawn g'' := by
  obtain ⟨e, rfl⟩ := first
  obtain ⟨e', rfl⟩ := second
  exact ⟨e', rfl⟩

theorem drawn_trans (a b c : SessionRegistry) (first : a.Drawn b) (second : b.Drawn c) : a.Drawn c := first.trans second

theorem relates_fill : fill.Relates Drawn := fill_spec

theorem relates_generateSessionId (attempts : Nat) : (generateSessionId attempts).Relates Drawn := by
  induction attempts with
  | zero => exact Drawn.refl
  | succ attempts ih =>
    refine Relates.bind drawn_trans relates_fill fun value => Relates.bind drawn_trans Drawn.refl fun taken => ?_
    split_ifs
    · exact ih
    · exact Drawn.refl

theorem relates_generateTerminalId (attempts : Nat) : (generateTerminalId attempts).Relates Drawn := by
  induction attempts with
  | zero => exact Drawn.refl
  | succ attempts ih =>
    refine Relates.bind drawn_trans relates_fill fun value => Relates.bind drawn_trans Drawn.refl fun taken => ?_
    split_ifs
    · exact ih
    · exact Drawn.refl

theorem relates_chooseTerminalId (request : CreateSession) : (chooseTerminalId request).Relates Drawn := by
  unfold chooseTerminalId
  split
  · exact Relates.bind drawn_trans (Relates.of_refuseIf Drawn.refl _ _) fun _ => Drawn.refl
  · exact relates_generateTerminalId _

theorem generateSessionId_fresh {attempts : Nat} (run : generateSessionId attempts g = (.ok s, g')) :
    g'.live[s]? = none ∧ g'.retained[s]? = none := by
  induction attempts generalizing g with
  | zero => cases run
  | succ attempts ih =>
    obtain ⟨value, g₁, filled, rest⟩ := bind_ok run
    rw [read_bind] at rest
    split_ifs at rest with taken
    · exact ih rest
    · obtain ⟨answer, rfl⟩ := Prod.mk.inj rest
      obtain rfl := Except.ok.inj answer
      simp only [Bool.or_eq_true, not_or, Bool.not_eq_true] at taken
      refine ⟨?_, ?_⟩
      · rw [← Option.not_isSome_iff_eq_none, ← ExtTreeMap.contains_eq_isSome_getElem?, taken.1]
        simp
      · rw [← Option.not_isSome_iff_eq_none, ← ExtTreeMap.contains_eq_isSome_getElem?, taken.2]
        simp

/-- A creation is refused after some draws, or it puts a new record under an identifier that is not in use. -/
theorem createKind_cases {request : CreateSession} {kind : SessionKind} {now : MonotonicMs}
    {answer : Except RegistryRefusal SessionSnapshot} (run : createKind request kind now g = (answer, g')) :
    (∃ e, answer = .error e ∧ g.Drawn g') ∨
      ∃ e s r, g.live[s]? = none ∧ g.retained[s]? = none ∧ r.sessionId = s ∧ r.state = .created ∧ r.generation = 0 ∧
        r.attachCount = 0 ∧ answer = .ok r.snapshot ∧
        g' = { g with entropy := e, live := g.live.insert s r } := by
  unfold createKind at run
  rcases ask_bind_cases run with ⟨e, -, rfl, rfl⟩ | ⟨_, -, run⟩
  · exact .inl ⟨e, rfl, .refl _⟩
  have chosen := relates_chooseTerminalId request g
  rcases bind_cases run with ⟨e, first, rfl⟩ | ⟨terminalId, g₁, first, run⟩
  · rw [first] at chosen
    exact .inl ⟨e, rfl, chosen⟩
  rw [first] at chosen
  have generated := relates_generateSessionId ID_GENERATION_ATTEMPTS g₁
  rcases bind_cases run with ⟨e, second, rfl⟩ | ⟨sessionId, g₂, second, run⟩
  · rw [second] at generated
    exact .inl ⟨e, rfl, chosen.trans generated⟩
  rw [second] at generated
  have fresh := generateSessionId_fresh second
  have filled := relates_fill g₂
  rcases bind_cases run with ⟨e, third, rfl⟩ | ⟨handle, g₃, third, run⟩
  · rw [third] at filled
    exact .inl ⟨e, rfl, (chosen.trans generated).trans filled⟩
  rw [third] at filled
  rcases ask_bind_cases run with ⟨e, -, rfl, rfl⟩ | ⟨_, -, run⟩
  · exact .inl ⟨e, rfl, (chosen.trans generated).trans filled⟩
  · rw [change_bind] at run
    obtain ⟨rfl, rfl⟩ := Prod.mk.inj run
    obtain ⟨e₂, same₂⟩ := chosen.trans generated
    obtain ⟨e, rfl⟩ := (chosen.trans generated).trans filled
    simp only at same₂
    rw [same₂] at fresh
    exact .inr ⟨e, sessionId, _, fresh.1, fresh.2, rfl, rfl, rfl, rfl, rfl, rfl⟩

theorem discardCreated_cases {answer : Except RegistryRefusal Unit} (run : discardCreated s g = (answer, g')) :
    (∃ e, answer = .error e ∧ g' = g) ∨
      ∃ r, g.live[s]? = some r ∧ r.state = .created ∧ r.generation = 0 ∧ answer = .ok () ∧
        g' = { g with live := g.live.erase s } := by
  unfold discardCreated at run
  cases record : g.live[s]? with
  | none =>
    rw [record] at run
    obtain ⟨rfl, rfl⟩ := Prod.mk.inj run
    exact .inl ⟨_, rfl, rfl⟩
  | some r =>
    simp only [record] at run
    split_ifs at run with used
    · obtain ⟨rfl, rfl⟩ := Prod.mk.inj run
      exact .inl ⟨_, rfl, rfl⟩
    · obtain ⟨rfl, rfl⟩ := Prod.mk.inj run
      simp only [not_or, not_not] at used
      exact .inr ⟨r, rfl, used.1, used.2, rfl, rfl⟩

end SessionRegistry

namespace SessionHost

open Mutation

variable {α : Type} {digest : ControlToken → ControlTokenDigest} {now : MonotonicMs} {h h' h₁ : SessionHost} {s : SessionId}

inductive Ends (digest : ControlToken → ControlTokenDigest) (now : MonotonicMs) (told : α → SessionId → List Label)
    (h : SessionHost) : Except LeaseRefusal α → SessionHost → Prop
  | refused {e : LeaseRefusal} {h' : SessionHost} (whole : Whole now h h') : Ends digest now told h (.error e) h'
  | done {x : α} {h' : SessionHost} (moves : Moves digest (told x) h h') : Ends digest now told h (.ok x) h'

variable {told : α → SessionId → List Label} {answer : Except LeaseRefusal α}

theorem Ends.after (sound : h.Sound) (whole : Whole now h h₁) (ends : Ends digest now told h₁ answer h') :
    Ends digest now told h answer h' := by
  cases ends with
  | refused rest => exact .refused (whole.trans rest)
  | done moves => exact .done ((whole.moves sound).trans_silent moves)

theorem mintToken_whole (h : SessionHost) : Whole now h (mintToken h).2 := by
  obtain ⟨e, less, same⟩ := mintToken_spec h
  rw [same]
  exact whole_drew less

theorem born_moves {r : SessionRecord} {token : ControlToken} {e : Entropy} (sound : h.Sound)
    (unused : h.registry.live[s]? = none) (unretained : h.registry.retained[s]? = none) (created : r.state = .created)
    (unbound : r.generation = 0) (unattached : r.attachCount = 0) :
    Moves digest (only s [.created token]) h
      { h with
        registry := { h.registry with entropy := e, live := h.registry.live.insert s r }
        sessions := h.sessions.insert s (.new (digest token)) } := by
  have before : h.slot s = ⟨none, none, h.sessions[s]?⟩ := by rw [slot, unused, unretained]
  have free (a : AttachId) : ¬ (h.slot s).Holds a := by
    rintro ⟨st, l, state, lease⟩
    have settled := (sound.slots s).settled st unused state
    simp [settled.leases] at lease
  refine .single sound ?_ (fun t other => ?_) (fun a t => ?_) rfl rfl rfl rfl
  · simp only [slot, TreeMap.find_insert, if_true, unused, unretained]
    exact .one (.create created unbound unattached)
  · simp only [slot, TreeMap.find_insert, if_neg other]
  · split_ifs with same
    · subst same
      refine (sound.owned a s).trans ⟨fun holds => absurd holds (free a), ?_⟩
      rintro ⟨st, l, state, lease⟩
      simp only [slot, TreeMap.find_insert, if_true] at state
      obtain rfl := Option.some.inj state
      simp [SessionLeaseState.new] at lease
    · exact Iff.rfl

theorem createKind_ends {request : CreateSession} {kind : SessionKind} {answer : Except LeaseRefusal CreatedSession}
    (sound : h.Sound) (run : createKind digest request kind now h = (answer, h')) :
    Ends digest now (fun c => only c.session.sessionId [.created c.controlToken]) h answer h' := by
  unfold createKind at run
  have minted : Whole now h (mintToken h).2 := mintToken_whole h
  rcases bind_cases run with ⟨e, first, rfl⟩ | ⟨token, h₁, first, run⟩
  · rw [first] at minted
    exact .refused minted
  rw [first] at minted
  refine .after sound minted ?_
  have sound : h₁.Sound := minted.sound sound
  cases made : SessionRegistry.createKind request kind now h₁.registry with
  | mk answered g =>
    rw [bind_apply, onRegistry_apply, made] at run
    rcases SessionRegistry.createKind_cases made with ⟨e, rfl, e', rfl⟩ |
      ⟨e, s, r, unused, unretained, rfl, created, unbound, unattached, rfl, rfl⟩
    · obtain ⟨rfl, rfl⟩ := Prod.mk.inj run
      exact .refused (whole_drewRegistry e')
    · simp only [Except.mapError, change_bind, read_bind] at run
      obtain ⟨rfl, rfl⟩ := Prod.mk.inj run
      exact .done (born_moves sound unused unretained created unbound unattached)

theorem discarded_moves {r : SessionRecord} {st : SessionLeaseState} (sound : h.Sound) (here : h.slot s = .live r st)
    (created : r.state = .created) (unbound : r.generation = 0) (free : st.leases = ∅) :
    Moves digest silent h
      { h with
        registry := { h.registry with live := h.registry.live.erase s }
        sessions := h.sessions.erase s } := by
  have unretained : h.registry.retained[s]? = none := congrArg Slot.retained here
  rw [← only_nil (s := s)]
  refine .single sound ?_ (fun t other => ?_) (fun a t => ?_) rfl rfl rfl rfl
  · rw [here]
    simp only [slot, TreeMap.find_erase, if_true, unretained]
    exact .one (.discard created unbound free)
  · simp only [slot, TreeMap.find_erase, if_neg other]
  · split_ifs with same
    · subst same
      refine (sound.owned a s).trans ⟨?_, ?_⟩
      · rintro ⟨st', l, state, lease⟩
        rw [here] at state
        obtain rfl := Option.some.inj state
        simp [free] at lease
      · rintro ⟨st', l, state, lease⟩
        simp [slot] at state
    · exact Iff.rfl

theorem discardCreated_ends {answer : Except LeaseRefusal Unit} (sound : h.Sound)
    (run : discardCreated s h = (answer, h')) : Ends digest now (fun _ => silent) h answer h' := by
  unfold discardCreated at run
  rcases ask_bind_cases run with ⟨e, -, rfl, rfl⟩ | ⟨st, found, run⟩
  · exact .refused (.refl _)
  rcases refuseIf_bind_cases run with ⟨-, rfl, rfl⟩ | ⟨free, run⟩
  · exact .refused (.refl _)
  have leases : st.leases = ∅ := by simpa [ExtTreeMap.isEmpty_iff] using free
  cases discarded : SessionRegistry.discardCreated s h.registry with
  | mk answered g =>
    rw [bind_apply, onRegistry_apply, discarded] at run
    rcases SessionRegistry.discardCreated_cases discarded with ⟨e, rfl, rfl⟩ | ⟨r, record, created, unbound, rfl, rfl⟩
    · obtain ⟨rfl, rfl⟩ := Prod.mk.inj run
      exact .refused (.refl _)
    · obtain ⟨rfl, rfl⟩ := Prod.mk.inj run
      obtain ⟨st', live⟩ := sound.live_slot record
      obtain rfl := Option.some.inj ((findState_ok.mp found).symm.trans (congrArg Slot.state live))
      exact .done (discarded_moves sound live created unbound leases)

theorem bind_ends {answer : Except LeaseRefusal SessionSnapshot} (sound : h.Sound) (run : bind s now h = (answer, h')) :
    Ends digest now (fun _ => only s [.bound]) h answer h' := by
  unfold bind at run
  rcases refuseIf_bind_cases run with ⟨-, rfl, rfl⟩ | ⟨uncancelled, run⟩
  · exact .refused (.refl _)
  rcases bind_cases run with ⟨e, first, rfl⟩ | ⟨session, h₁, first, run⟩
  · rcases onRegistry_cases first with ⟨-, -, rfl, -⟩ | ⟨_, _, _, _, impossible, _⟩
    · exact .refused (.refl _)
    · cases impossible
  · rcases onRegistry_cases first with ⟨_, impossible, _⟩ | ⟨r, r', record, running, -, rfl⟩
    · cases impossible
    · obtain ⟨rfl, rfl⟩ := Prod.mk.inj run
      obtain ⟨st, live⟩ := sound.live_slot record
      have state : h.sessions[s]? = some st := congrArg Slot.state live
      rw [state] at uncancelled
      have first : st.cancel = none := by simpa using uncancelled
      exact .done (.record sound live (.bind first running))

end SessionHost

end Bitty.Daemon
