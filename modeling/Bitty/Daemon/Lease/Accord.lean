import Bitty.Daemon.Lease.Unison

/-! Transfers, stops and detaches on two hosts of which one has swept. -/

namespace Bitty.Daemon

open Std (ExtTreeMap)
open Mutation

def ControlAuthority.Built (authority : ControlAuthority) : Prop := authority.operator = true → authority.lease = none

namespace SessionHost

variable {digest : ControlToken → ControlTokenDigest} {now : MonotonicMs} {h h' g g' : SessionHost} {s t : SessionId}
  {a target : AttachId} {r r' : SessionRecord} {st st' : SessionLeaseState} {l : Lease} {authority : ControlAuthority}

section Authority

theorem Trails.verifyToken (trails : Trails now h g) (s : SessionId) (token : ControlToken) :
    verifyToken digest s token g = verifyToken digest s token h := by
  unfold SessionHost.verifyToken SessionHost.findState
  cases here : h.sessions[s]? with
  | none => rw [trails.state_none here]
  | some st =>
    obtain ⟨st', there, lapsed⟩ := trails.state here
    rw [there]
    show (if st'.tokenMatches digest token then _ else _) = if st.tokenMatches digest token then _ else _
    rw [lapsed.tokenMatches]

theorem Trails.authorizeControl {generation : Nat} (trails : Trails now h g) (sound : h.Sound) (sound' : g.Sound) :
    Agree Eq SameRefusal (authorizeControl digest s generation authority now h)
      (authorizeControl digest s generation authority now g) := by
  unfold SessionHost.authorizeControl
  refine (trails.liveSession s).bind fun x y _ _ same => ?_
  rw [trails.resolveRelation sound sound']
  refine Agree.bind (.of_eq (V := Eq) SameRefusal.refl (fun _ => rfl) rfl) fun relation _ _ _ equal => ?_
  subst equal
  have stale := sameRefusal_stale same
  cases relation with
  | operator => exact .error rfl
  | controller controller =>
    simp only [same.2]
    split_ifs
    · exact .error stale
    · exact .ok rfl
  | vacantToken token =>
    simp only [same.2, trails.verifyToken s token]
    split_ifs
    · exact .error stale
    · exact .of_eq SameRefusal.refl (fun _ => rfl) rfl

theorem Trails.authorizeDetach (trails : Trails now h g) (sound : h.Sound) (sound' : g.Sound) (s : SessionId)
    (authority : ControlAuthority) : authorizeDetach digest s authority now g = authorizeDetach digest s authority now h := by
  unfold SessionHost.authorizeDetach
  rw [trails.resolveRelation sound sound']
  cases SessionHost.resolveRelation s authority now h with
  | error e => rfl
  | ok relation =>
    cases relation with
    | operator => rfl
    | controller controller => rfl
    | vacantToken token =>
      show (SessionHost.verifyToken digest s token g >>= _) = SessionHost.verifyToken digest s token h >>= _
      rw [trails.verifyToken]

theorem liveLease_of_resolve {relation : Relation} (built : authority.Built) (lease : authority.lease = some a)
    (resolved : resolveRelation s authority now h = .ok relation) : ∃ l, h.liveLease s a now = some l := by
  rcases resolveRelation_ok resolved with ⟨-, operator⟩ | ⟨-, ⟨b, l, st, -, asked, state, here, live, -⟩ | ⟨_, _, -, none, -⟩⟩
  · rw [built operator] at lease
    cases lease
  · obtain rfl := Option.some.inj (lease.symm.trans asked)
    exact ⟨l, liveLease_some.mpr ⟨st, state, here, live⟩⟩
  · rw [none] at lease
    cases lease

theorem liveLease_of_authorized {generation : Nat} (allowed : authorizeControl digest s generation authority now h = .ok (.controller a)) :
    ∃ l, h.liveLease s a now = some l := by
  obtain ⟨-, ⟨b, l, st, same, -, state, lease, live, -⟩ | ⟨_, _, impossible, -⟩⟩ := authorizeControl_ok allowed
  · cases same
    exact ⟨l, liveLease_some.mpr ⟨st, state, lease, live⟩⟩
  · cases impossible

end Authority

section Transfer

def Targets (h g : SessionHost) (s : SessionId) (target : AttachId) (now : MonotonicMs) (st st' : SessionLeaseState) : Prop :=
  h.sessions[s]? = some st ∧ g.sessions[s]? = some st' ∧ ∃ l, h.liveLease s target now = some l

theorem Trails.transferTarget (trails : Trails now h g) (s : SessionId) (target : AttachId) :
    Agree (Targets h g s target now) SameRefusal (transferTarget s target now h) (transferTarget s target now g) := by
  unfold SessionHost.transferTarget
  refine (trails.findState s).bind fun st st' found found' lapsed => ?_
  have state := findState_ok.mp found
  have state' := findState_ok.mp found'
  cases lease : st.leases[target]? with
  | none =>
    cases lease' : st'.leases[target]? with
    | none => exact .error rfl
    | some l =>
      rw [lapsed.sub lease'] at lease
      cases lease
  | some l =>
    cases expired : l.isExpiredAt now with
    | true =>
      rcases lapsed.leases target with same | ⟨gone, -⟩
      · rw [same, lease]
        simp only [expired, if_true]
        exact .error rfl
      · rw [gone]
        simp only [expired, if_true]
        exact .error rfl
    | false =>
      rw [lapsed.kept lease expired]
      simp only [expired, Bool.false_eq_true, if_false]
      split_ifs
      · exact .error rfl
      · exact .ok ⟨state, state', l, liveLease_some.mpr ⟨st, state, lease, expired⟩⟩

theorem SameLease.renewLease {b : AttachId} (same : SameLease s b h g) (trails : Trails now h g)
    (owner : h.leaseSessions[a]? = some s) (owner' : g.leaseSessions[a]? = some s) :
    SameLease s b (h.renewLease a now) (g.renewLease a now) := by
  unfold SessionHost.renewLease
  rw [owner, owner', trails.limits]
  exact same.modifyLease trails

theorem Trails.moveControl {previous : Option AttachId} {newDigest : ControlTokenDigest} (trails : Trails now h g)
    (held : ∀ p, previous = some p → SameLease s p h g ∧ h.leaseSessions[p]? = some s ∧ g.leaseSessions[p]? = some s)
    (same : SameLease s target h g) (owner : h.leaseSessions[target]? = some s) (owner' : g.leaseSessions[target]? = some s) :
    Trails now (h.moveControl s previous target newDigest now) (g.moveControl s previous target newDigest now) := by
  unfold SessionHost.moveControl
  cases previous with
  | none =>
    have moved := trails.modifyState (s := s)
      (f := fun state => { state.modifyLease target (·.setRole .controller) with
        controller := some target, token := .current newDigest, claimed := true })
      (k := fun state => { state.modifyLease target (·.setRole .controller) with
        controller := some target, token := .current newDigest, claimed := true })
      fun st st' state state' lapsed => by
        have here : st'.leases[target]? = st.leases[target]? := by
          unfold SameLease at same
          rwa [state, state'] at same
        exact ⟨rfl, rfl, lapsed.stop, lapsed.cancel, (lapsed.modifyLease here).leases⟩
    refine moved.renewLease (same.modifyState trails fun st st' eq => ?_) owner owner'
    simp only [SessionLeaseState.find_modifyLease, eq]
  | some p =>
    obtain ⟨samep, ownerp, ownerp'⟩ := held p rfl
    have moved := trails.modifyState (s := s)
      (f := fun state => { (state.modifyLease p (·.setRole .observer)).modifyLease target (·.setRole .controller) with
        controller := some target, token := .current newDigest, claimed := true })
      (k := fun state => { (state.modifyLease p (·.setRole .observer)).modifyLease target (·.setRole .controller) with
        controller := some target, token := .current newDigest, claimed := true })
      fun st st' state state' lapsed => by
        have here : st'.leases[target]? = st.leases[target]? := by
          unfold SameLease at same
          rwa [state, state'] at same
        have herep : st'.leases[p]? = st.leases[p]? := by
          unfold SameLease at samep
          rwa [state, state'] at samep
        have demoted := lapsed.modifyLease (f := (·.setRole .observer)) herep
        refine ⟨rfl, rfl, lapsed.stop, lapsed.cancel, (demoted.modifyLease ?_).leases⟩
        rw [SessionLeaseState.find_modifyLease, SessionLeaseState.find_modifyLease, here]
    have kept {b : AttachId} (same : SameLease s b h g) := same.modifyState trails
      (f := fun state => { (state.modifyLease p (·.setRole .observer)).modifyLease target (·.setRole .controller) with
        controller := some target, token := .current newDigest, claimed := true })
      fun st st' eq => by simp only [SessionLeaseState.find_modifyLease, eq]
    have renewed := moved.renewLease (kept samep) ownerp ownerp'
    refine renewed.renewLease ((kept same).renewLease moved ownerp ownerp') ?_ ?_
    · rw [renewLease_index]
      exact owner
    · rw [renewLease_index]
      exact owner'

theorem liveLease_congr (same : h'.sessions = h.sessions) : h'.liveLease s a now = h.liveLease s a now := by
  unfold liveLease
  rw [same]

theorem Trails.handed {previous : Option AttachId} {newDigest : ControlTokenDigest} (trails : Trails now h g) (sound : h.Sound)
    (sound' : g.Sound) (held : ∀ p, previous = some p → ∃ l, h.liveLease s p now = some l) (live : h.liveLease s target now = some l)
    (counted : Trails now h' g') (rest : h'.sessions = h.sessions ∧ h'.leaseSessions = h.leaseSessions)
    (rest' : g'.sessions = g.sessions ∧ g'.leaseSessions = g.leaseSessions) :
    Trails now (h'.moveControl s previous target newDigest now) (g'.moveControl s previous target newDigest now) := by
  have owners {a : AttachId} {l : Lease} (live : h.liveLease s a now = some l) :
      SameLease s a h' g' ∧ h'.leaseSessions[a]? = some s ∧ g'.leaseSessions[a]? = some s := by
    refine ⟨counted.sameLease ((liveLease_congr rest.1).trans live), ?_, ?_⟩
    · rw [rest.2, owner_of_liveLease sound live]
    · rw [rest'.2, owner_of_liveLease sound' ((trails.liveLease s a).trans live)]
  obtain ⟨same, owner, owner'⟩ := owners live
  refine counted.moveControl (fun p equal => ?_) same owner owner'
  obtain ⟨l, live⟩ := held p equal
  exact owners live

theorem Trails.transferControl {generation : Nat} (trails : Trails now h g) (sound : h.Sound) (sound' : g.Sound)
    (level : Level now s h g) :
    Tandem now Any (transferControl digest s generation authority target now h)
      (transferControl digest s generation authority target now g) := by
  unfold SessionHost.transferControl
  refine Lockstep.ask (trails.liveSession s) trails fun _ _ _ _ _ => ?_
  refine Lockstep.refuseIf rfl rfl trails fun _ => ?_
  refine Lockstep.ask (trails.authorizeControl sound sound') trails fun authorized _ allowed _ equal => ?_
  subst equal
  refine Lockstep.ask (trails.transferTarget s target) trails fun st st' _ _ targets => ?_
  obtain ⟨state, state', l, live⟩ := targets
  cases authorized with
  | operator => exact .error rfl trails
  | controller c =>
    refine Lockstep.passed (a := (some c, none)) (b := (some c, none)) rfl rfl ?_
    refine Lockstep.bind (trails.mintRotatedToken s) fun controlToken _ h₁ g₁ run run' equal trails₁ => ?_
    subst equal
    obtain ⟨e, -, rfl⟩ := mintRotatedToken_drew run
    obtain ⟨e', -, rfl⟩ := mintRotatedToken_drew run'
    refine Lockstep.bind_ok rfl rfl ?_
    refine Lockstep.bind (trails₁.recordLeaseMutation (level.paced sound sound')) fun _ _ h₂ g₂ counted counted' _ trails₂ => ?_
    refine Lockstep.ask (trails₂.findState s) trails₂ fun _ _ _ _ _ => ?_
    refine .ok trivial (trails₁.handed (sound_drew sound) (sound_drew sound') (fun p equal => ?_) live trails₂
      (onRegistry_rest counted) (onRegistry_rest counted'))
    obtain rfl := Option.some.inj equal
    exact liveLease_of_authorized allowed
  | vacantToken =>
    refine Lockstep.passed (a := (none, st.expiredController now)) (b := (none, st'.expiredController now)) rfl rfl ?_
    refine Lockstep.bind (trails.mintRotatedToken s) fun controlToken _ h₁ g₁ run run' equal trails₁ => ?_
    subst equal
    obtain ⟨e, -, rfl⟩ := mintRotatedToken_drew run
    obtain ⟨e', -, rfl⟩ := mintRotatedToken_drew run'
    obtain ⟨x, h₂, vacated, vacant, trails₂, paced, sound₂⟩ :=
      trails₁.vacate (sound_drew sound) (sound_drew sound') ⟨level.swept, level.room⟩ state state'
    refine Lockstep.bind_ok vacated vacant ?_
    have live₂ : h₂.liveLease s target now = some l :=
      (trails₂.liveLease s target).symm.trans ((trails₁.liveLease s target).trans live)
    refine Lockstep.bind (trails₂.recordLeaseMutation paced) fun _ _ h₃ g₃ counted counted' _ trails₃ => ?_
    refine Lockstep.ask (trails₃.findState s) trails₃ fun _ _ _ _ _ => ?_
    refine .ok trivial (trails₂.handed sound₂ (sound_drew sound') (fun p equal => ?_) live₂ trails₃
      (onRegistry_rest counted) (onRegistry_rest counted'))
    cases equal

end Transfer

section Stop

theorem Trails.field {β : Type} {p : SessionLeaseState → Option β} (trails : Trails now h g) (s : SessionId)
    (same : ∀ st st', st.Lapsed now st' → p st' = p st) : g.sessions[s]?.bind p = h.sessions[s]?.bind p := by
  cases here : h.sessions[s]? with
  | none => rw [trails.state_none here]
  | some st =>
    obtain ⟨st', there, lapsed⟩ := trails.state here
    rw [there, Option.bind_some, Option.bind_some, same st st' lapsed]

theorem Trails.commitCancel {snapshot snapshot' : SessionSnapshot} {intent : CancelIntent} (trails : Trails now h g) :
    Tandem now Any (commitCancel s snapshot intent now h) (commitCancel s snapshot' intent now g) := by
  unfold SessionHost.commitCancel
  refine Lockstep.ask (trails.findState s) trails fun _ _ _ _ _ => ?_
  have put := trails.modifyState (s := s) (f := fun state => { state with cancel := some intent })
    (k := fun state => { state with cancel := some intent })
    fun _ _ _ _ lapsed => ⟨lapsed.token, lapsed.claimed, lapsed.stop, rfl, lapsed.leases⟩
  exact .ok trivial put

theorem Trails.beginStop {begun : StopState} {authorized : Authorized} (trails : Trails now h g) (sound : h.Sound)
    (sound' : g.Sound) (paced : Paced s h g) (held : ∀ c, authorized = .controller c → ∃ l, h.liveLease s c now = some l) :
    Tandem now Any (beginStop s begun authorized now h) (beginStop s begun authorized now g) := by
  unfold SessionHost.beginStop
  refine Lockstep.bind (trails.beginStopping paced) fun _ _ h₁ g₁ run run' _ trails₁ => ?_
  refine Lockstep.ask (trails₁.findState s) trails₁ fun _ _ _ _ _ => ?_
  obtain ⟨sessions, index⟩ := onRegistry_rest run
  obtain ⟨-, index'⟩ := onRegistry_rest run'
  have put := trails₁.modifyState (s := s) (f := fun state => { state with stop := some begun })
    (k := fun state => { state with stop := some begun })
    fun _ _ _ _ lapsed => ⟨lapsed.token, lapsed.claimed, rfl, lapsed.cancel, lapsed.leases⟩
  cases authorized with
  | operator => exact .ok trivial put
  | vacantToken => exact .ok trivial put
  | controller c =>
    obtain ⟨l, live⟩ := held c rfl
    have same := trails₁.sameLease ((liveLease_congr sessions).trans live)
    have kept := same.modifyState trails₁ (f := fun state => { state with stop := some begun }) fun _ _ eq => eq
    refine .ok trivial (put.renewLease kept ?_ ?_)
    · exact (congrArg (fun i => i[c]?) index).trans (owner_of_liveLease sound live)
    · exact (congrArg (fun i => i[c]?) index').trans (owner_of_liveLease sound' ((trails.liveLease s c).trans live))

theorem Trails.commitStop {authorized : Authorized} {reason : TerminalReason} {graceMs : Nat} (trails : Trails now h g)
    (sound : h.Sound) (sound' : g.Sound) (paced : Paced s h g)
    (held : ∀ c, authorized = .controller c → ∃ l, h.liveLease s c now = some l) :
    Tandem now Any (commitStop s authorized reason now graceMs h) (commitStop s authorized reason now graceMs g) := by
  unfold SessionHost.commitStop
  refine Lockstep.ask (trails.findSnapshot s) trails fun x y _ _ same => ?_
  rw [read_bind, read_bind, trails.field s fun _ _ lapsed => lapsed.cancel, trails.field s fun _ _ lapsed => lapsed.stop, same.1]
  cases h.sessions[s]?.bind (·.cancel) with
  | some intent => exact .ok trivial trails
  | none =>
    dsimp only
    split_ifs
    · cases h.sessions[s]?.bind (·.stop) with
      | none => exact .error rfl trails
      | some stop => exact .ok trivial trails
    · exact trails.commitCancel
    · refine Lockstep.bind (trails.beginStop sound sound' paced held) fun _ _ h₁ g₁ _ _ _ trails₁ => ?_
      exact .ok trivial trails₁

theorem Trails.abort {generation : Nat} {cause : ConsumerStopCause} (trails : Trails now h g) (sound : h.Sound)
    (sound' : g.Sound) (paced : Paced s h g) :
    Tandem now Any (abort digest s generation authority cause now h) (abort digest s generation authority cause now g) := by
  unfold SessionHost.abort
  refine Lockstep.refuseIf rfl rfl trails fun _ => ?_
  refine Lockstep.ask (trails.findSnapshot s) trails fun x y _ _ same => ?_
  rw [same.1]
  split_ifs
  · exact .ok trivial trails
  · refine Lockstep.ask (trails.authorizeControl sound sound') trails fun authorized _ allowed _ equal => ?_
    subst equal
    rw [read_bind, read_bind, trails.limits]
    refine trails.commitStop sound sound' paced fun c equal => ?_
    subst equal
    exact liveLease_of_authorized allowed

end Stop


section Detach

theorem Trails.removeLease (trails : Trails now h g) (paced : Paced s h g) (same : SameLease s a h g) :
    Tandem now Any (removeLease s a now h) (removeLease s a now g) := by
  unfold SessionHost.removeLease
  refine Lockstep.askSame SameRefusal.refl ?_ trails fun _ _ => ?_
  · unfold SameLease at same
    simp only [same]
  · refine Lockstep.bind (trails.detachRecord paced) fun _ _ _ _ _ _ _ trails₁ => ?_
    exact .ok trivial (trails₁.forgetLease s a)

theorem isLiveLease_eq (h : SessionHost) (s : SessionId) (a : AttachId) (now : MonotonicMs) :
    h.isLiveLease s a now = (h.liveLease s a now).isSome := by
  unfold isLiveLease liveLease
  cases h.sessions[s]?.bind fun state => state.leases[a]? with
  | none => rfl
  | some l => cases expired : l.isExpiredAt now <;> simp [expired]

theorem isController_iff (sound : h.Sound) :
    h.isController s a = true ↔ ∃ st l, h.sessions[s]? = some st ∧ st.leases[a]? = some l ∧ l.role = .controller := by
  unfold isController
  rw [Option.any_eq_true]
  constructor
  · rintro ⟨st, state, controller⟩
    obtain ⟨l, lease, role⟩ := (((sound.slots s).table st state).controls a).mp (by simpa using controller)
    exact ⟨st, l, state, lease, role⟩
  · rintro ⟨st, l, state, lease, role⟩
    exact ⟨st, state, by simpa using (((sound.slots s).table st state).controls a).mpr ⟨l, lease, role⟩⟩

theorem Trails.lease_sub (trails : Trails now h g) (state' : g.sessions[s]? = some st') (lease : st'.leases[a]? = some l) :
    ∃ st, h.sessions[s]? = some st ∧ st.leases[a]? = some l := by
  cases state : h.sessions[s]? with
  | none =>
    rw [trails.state_none state] at state'
    cases state'
  | some st =>
    obtain ⟨st'', state'', lapsed⟩ := trails.state state
    obtain rfl := Option.some.inj (state'.symm.trans state'')
    exact ⟨st, rfl, lapsed.sub lease⟩

theorem Trails.isController_sub (trails : Trails now h g) (sound : h.Sound) (sound' : g.Sound)
    (controller : g.isController s a = true) : h.isController s a = true := by
  obtain ⟨st', l, state', lease, role⟩ := (isController_iff sound').mp controller
  obtain ⟨st, state, before⟩ := trails.lease_sub state' lease
  exact (isController_iff sound).mpr ⟨st, l, state, before, role⟩

theorem Trails.isController (trails : Trails now h g) (sound : h.Sound) (sound' : g.Sound) (live : h.liveLease s a now = some l) :
    g.isController s a = h.isController s a := by
  refine Bool.eq_iff_iff.mpr ⟨trails.isController_sub sound sound', fun controller => ?_⟩
  obtain ⟨st, l', state, lease, role⟩ := (isController_iff sound).mp controller
  obtain ⟨st₀, state₀, lease₀, -⟩ := liveLease_some.mp live
  obtain rfl := Option.some.inj (state.symm.trans state₀)
  obtain rfl := Option.some.inj (lease.symm.trans lease₀)
  obtain ⟨st', state', lease', -⟩ := liveLease_some.mp ((trails.liveLease s a).trans live)
  exact (isController_iff sound').mpr ⟨st', l', state', lease', role⟩

theorem Trails.detachLive {own : Bool} {authorized : Authorized} (trails : Trails now h g) (sound : h.Sound) (sound' : g.Sound)
    (paced : Paced s h g) (live : h.liveLease s target now = some l)
    (others : ∀ b, authority.lease = some b → b ≠ target → ∃ l, h.liveLease s b now = some l) :
    Tandem now Any (detachLive s target authority own authorized now h) (detachLive s target authority own authorized now g) := by
  unfold SessionHost.detachLive
  rw [read_bind, read_bind, trails.isController sound sound' live]
  generalize (h.isController s target && !own && decide (authorized = .operator)) = controlRetired
  refine Lockstep.bind (trails.removeLease paced (trails.sameLease live)) fun x y h₁ g₁ run run' _ trails₁ => ?_
  obtain ⟨lease, session⟩ := x
  obtain ⟨lease', session'⟩ := y
  rcases removeLease_cases run with ⟨_, impossible, _⟩ | ⟨_, _, _, q, _, _, _, _, -, rfl⟩
  · cases impossible
  rcases removeLease_cases run' with ⟨_, impossible, _⟩ | ⟨_, _, _, q', _, _, _, _, -, rfl⟩
  · cases impossible
  have kept {b : AttachId} (same : SameLease s b h g) :
      SameLease s b ((h.putRecord s q).forgetLease s target) ((g.putRecord s q').forgetLease s target) := by
    refine same.modifyState trails fun st st' eq => ?_
    simp only [SessionLeaseState.removeLease, TreeMap.find_erase, eq]
  have retired : Trails now (if controlRetired then ((h.putRecord s q).forgetLease s target).retireToken s
        else (h.putRecord s q).forgetLease s target)
      (if controlRetired then ((g.putRecord s q').forgetLease s target).retireToken s
        else (g.putRecord s q').forgetLease s target) := by
    split_ifs
    · exact trails₁.modifyState fun _ _ _ _ lapsed => ⟨rfl, lapsed.claimed, lapsed.stop, lapsed.cancel, lapsed.leases⟩
    · exact trails₁
  cases acts : authority.lease with
  | none => exact .ok trivial retired
  | some b =>
    by_cases mine : b ≠ target
    · obtain ⟨lb, liveb⟩ := others b acts mine
      have owner := owner_of_liveLease sound liveb
      have owner' := owner_of_liveLease sound' ((trails.liveLease s b).trans liveb)
      have index (k : SessionHost) (q : SessionRecord) (owner : k.leaseSessions[b]? = some s) :
          ((k.putRecord s q).forgetLease s target).leaseSessions[b]? = some s := by
        rw [forgetLease_index, if_neg (Ne.symm mine)]
        exact owner
      have same := kept (trails.sameLease liveb)
      have renewed : Trails now
          ((if controlRetired then ((h.putRecord s q).forgetLease s target).retireToken s
            else (h.putRecord s q).forgetLease s target).renewLease b now)
          ((if controlRetired then ((g.putRecord s q').forgetLease s target).retireToken s
            else (g.putRecord s q').forgetLease s target).renewLease b now) := by
        refine retired.renewLease (s := s) ?_ ?_ ?_
        · split_ifs
          · exact same.modifyState trails₁ fun _ _ eq => eq
          · exact same
        · split_ifs <;> exact index h q owner
        · split_ifs <;> exact index g q' owner'
      refine .ok trivial ?_
      dsimp only
      rw [if_pos mine, if_pos mine]
      exact renewed
    · refine .ok trivial ?_
      dsimp only
      rw [if_neg mine, if_neg mine]
      exact retired

theorem Trails.detachAuthorized {own : Bool} {authorized : Authorized} {x y : SessionSnapshot} (trails : Trails now h g)
    (sound : h.Sound) (sound' : g.Sound) (paced : Paced s h g)
    (others : ∀ b, authority.lease = some b → b ≠ target → ∃ l, h.liveLease s b now = some l)
    (unlapsed : h.liveLease s target now = none → h.isController s target = true → own = false → authorized ≠ .operator) :
    Tandem now Any (detachAuthorized s target authority own x authorized now h)
      (detachAuthorized s target authority own y authorized now g) := by
  unfold SessionHost.detachAuthorized
  rw [isLiveLease_eq, isLiveLease_eq, trails.liveLease]
  cases live : h.liveLease s target now with
  | some l =>
    simp only [Option.isSome_some, if_true]
    exact trails.detachLive sound sound' paced live others
  | none =>
    have stays (k : SessionHost) (sub : k.isController s target = true → h.isController s target = true) :
        ¬ (k.isController s target && !own && decide (authorized = .operator)) = true := by
      intro lapses
      simp only [Bool.and_eq_true, Bool.not_eq_true', decide_eq_true_eq] at lapses
      exact unlapsed live (sub lapses.1.1) lapses.1.2 lapses.2
    simp only [Option.isSome_none, Bool.false_eq_true, if_false]
    rw [if_neg (stays h id), if_neg (stays g (trails.isController_sub sound sound'))]
    exact .ok trivial trails

end Detach

end SessionHost

end Bitty.Daemon
