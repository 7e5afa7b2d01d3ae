import Bitty.Daemon.Lease.Pace

/-! The operations on two hosts of which one has swept: refused alike, or done alike. -/

namespace Bitty.Daemon

open Std (ExtTreeMap)
open Mutation

namespace SessionLeaseState

variable {now : MonotonicMs} {s s' : SessionLeaseState} {a : AttachId} {l : Lease} {f : Lease → Lease}

theorem find_modifyLease {b : AttachId} :
    (s.modifyLease a f).leases[b]? = if a = b then s.leases[b]?.map f else s.leases[b]? := TreeMap.find_modify _ _ _ _

theorem Lapsed.modifyLease (lapsed : s.Lapsed now s') (here : s'.leases[a]? = s.leases[a]?) :
    (s.modifyLease a f).Lapsed now (s'.modifyLease a f) where
  token := lapsed.token
  claimed := lapsed.claimed
  stop := lapsed.stop
  cancel := lapsed.cancel
  leases b := by
    rw [find_modifyLease, find_modifyLease]
    split_ifs with same
    · subst same
      rw [here]
      exact .inl rfl
    · exact lapsed.leases b

theorem Lapsed.removeLease (lapsed : s.Lapsed now s') (a : AttachId) : (s.removeLease a).Lapsed now (s'.removeLease a) where
  token := lapsed.token
  claimed := lapsed.claimed
  stop := lapsed.stop
  cancel := lapsed.cancel
  leases b := by
    rw [SessionLeaseState.removeLease, SessionLeaseState.removeLease, TreeMap.find_erase, TreeMap.find_erase]
    split_ifs with same
    · exact .inl rfl
    · exact lapsed.leases b

theorem Lapsed.attached (lapsed : s.Lapsed now s') (l : Lease) : (s.attached l).Lapsed now (s'.attached l) where
  token := lapsed.token
  claimed := lapsed.claimed
  stop := lapsed.stop
  cancel := lapsed.cancel
  leases b := by
    rw [SessionLeaseState.attached, SessionLeaseState.attached, TreeMap.find_insert, TreeMap.find_insert]
    split_ifs with same
    · exact .inl rfl
    · exact lapsed.leases b

def unexpired (s : SessionLeaseState) (now : MonotonicMs) : ExtTreeMap AttachId Lease := s.leases.filter fun _ l => !l.isExpiredAt now

theorem Lapsed.unexpired (lapsed : s.Lapsed now s') : s'.unexpired now = s.unexpired now := by
  refine ExtTreeMap.ext_getElem? fun a => ?_
  rw [SessionLeaseState.unexpired, SessionLeaseState.unexpired, TreeMap.find_filter, TreeMap.find_filter]
  refine Option.ext fun l => ?_
  rw [Option.filter_eq_some_iff, Option.filter_eq_some_iff]
  constructor
  · rintro ⟨here, live⟩
    exact ⟨lapsed.sub here, live⟩
  · rintro ⟨here, live⟩
    exact ⟨lapsed.kept here (by simpa using live), live⟩

theorem Lapsed.liveObservers (lapsed : s.Lapsed now s') : s'.liveObservers now = s.liveObservers now := by
  have split (s : SessionLeaseState) : s.liveObservers now = ((s.unexpired now).filter fun _ l => l.isObserver).size := by
    unfold SessionLeaseState.liveObservers SessionLeaseState.unexpired
    congr 1
    refine ExtTreeMap.ext_getElem? fun a => ?_
    rw [TreeMap.find_filter, TreeMap.find_filter, TreeMap.find_filter, Option.filter_filter]
    simp only [Bool.and_comm]
  rw [split, split, lapsed.unexpired]

theorem Lapsed.size (lapsed : s.Lapsed now s') (swept : ∀ (a : AttachId) l, s.leases[a]? = some l → l.isExpiredAt now = false) :
    s'.leases.size = s.leases.size := by
  have same : s'.leases = s.leases := by
    refine ExtTreeMap.ext_getElem? fun a => Option.ext fun l => ?_
    exact ⟨fun here => lapsed.sub here, fun here => lapsed.kept here (swept a l here)⟩
  rw [same]

end SessionLeaseState

namespace SessionHost

variable {digest : ControlToken → ControlTokenDigest} {now : MonotonicMs} {h h' g g' : SessionHost} {s t : SessionId}
  {a : AttachId} {r r' : SessionRecord} {st st' : SessionLeaseState} {l : Lease} {α β : Type}

/-- Two runs that are refused alike or answered alike, and leave hosts of which the second trails the first. -/
abbrev Tandem (now : MonotonicMs) (V : α → β → Prop) :
    Except LeaseRefusal α × SessionHost → Except LeaseRefusal β × SessionHost → Prop :=
  Lockstep V SameRefusal (Trails now)

def Any (_ : α) (_ : β) : Prop := True

section Changes

theorem Trails.putRecord {q q' : SessionRecord} (trails : Trails now h g) (same : q.unrevised = q'.unrevised) :
    Trails now (h.putRecord s q) (g.putRecord s q') where
  slots t := by
    rw [slot_putRecord, slot_putRecord]
    obtain ⟨retained, record, state⟩ := trails.slots t
    split_ifs
    · exact ⟨retained, congrArg some same, state⟩
    · exact ⟨retained, record, state⟩
  entropy := trails.entropy
  limits := trails.limits

theorem Trails.modifyState {f k : SessionLeaseState → SessionLeaseState} (trails : Trails now h g)
    (keeps : ∀ st st', h.sessions[s]? = some st → g.sessions[s]? = some st' → st.Lapsed now st' → (f st).Lapsed now (k st')) :
    Trails now (h.modifyState s f) (g.modifyState s k) where
  slots t := by
    rw [slot_modifyState, slot_modifyState]
    obtain ⟨retained, record, state⟩ := trails.slots t
    by_cases same : s = t
    · subst same
      rw [if_pos rfl, if_pos rfl]
      refine ⟨retained, record, ?_⟩
      have keep (st st' : SessionLeaseState) (here : (h.slot s).state = some st) (there : (g.slot s).state = some st') := keeps st st' here there
      generalize (h.slot s).state = x, (g.slot s).state = y at state keep
      cases state with
      | none => exact .none
      | some lapsed => exact .some (keep _ _ rfl rfl lapsed)
    · rw [if_neg same, if_neg same]
      exact ⟨retained, record, state⟩
  entropy := trails.entropy
  limits := trails.limits

theorem Trails.forgetLease (trails : Trails now h g) (s : SessionId) (a : AttachId) :
    Trails now (h.forgetLease s a) (g.forgetLease s a) := by
  have modified : Trails now (h.modifyState s (·.removeLease a)) (g.modifyState s (·.removeLease a)) :=
    trails.modifyState fun st st' _ _ lapsed => lapsed.removeLease a
  exact ⟨modified.slots, modified.entropy, modified.limits⟩

def SameLease (s : SessionId) (a : AttachId) (h g : SessionHost) : Prop :=
  (g.sessions[s]?.bind fun state => state.leases[a]?) = h.sessions[s]?.bind fun state => state.leases[a]?

theorem Trails.sameLease (trails : Trails now h g) (live : h.liveLease s a now = some l) : SameLease s a h g := by
  have live' := (trails.liveLease s a).trans live
  obtain ⟨st, state, lease, -⟩ := liveLease_some.mp live
  obtain ⟨st', state', lease', -⟩ := liveLease_some.mp live'
  unfold SameLease
  rw [state, state', Option.bind_some, Option.bind_some, lease, lease']

theorem Trails.modifyLease {f : Lease → Lease} (trails : Trails now h g) (same : SameLease s a h g) :
    Trails now (h.modifyState s (·.modifyLease a f)) (g.modifyState s (·.modifyLease a f)) := by
  refine trails.modifyState fun st st' state state' lapsed => lapsed.modifyLease ?_
  unfold SameLease at same
  rw [state, state'] at same
  exact same

theorem SameLease.modifyState {b : AttachId} {f : SessionLeaseState → SessionLeaseState} (same : SameLease s b h g)
    (trails : Trails now h g)
    (keeps : ∀ st st' : SessionLeaseState, st'.leases[b]? = st.leases[b]? → (f st').leases[b]? = (f st).leases[b]?) :
    SameLease s b (h.modifyState s f) (g.modifyState s f) := by
  unfold SameLease SessionHost.modifyState at *
  simp only [TreeMap.find_modify, if_true]
  cases state : h.sessions[s]? with
  | none =>
    rw [trails.state_none state]
  | some st =>
    obtain ⟨st', state', -⟩ := trails.state state
    rw [state, state'] at same
    rw [state']
    exact keeps st st' same

theorem SameLease.modifyLease {b : AttachId} {f : Lease → Lease} (same : SameLease s b h g) (trails : Trails now h g) :
    SameLease s b (h.modifyState s (·.modifyLease a f)) (g.modifyState s (·.modifyLease a f)) := by
  refine same.modifyState trails fun st st' eq => ?_
  rw [SessionLeaseState.find_modifyLease, SessionLeaseState.find_modifyLease, eq]

theorem Trails.renewLease (trails : Trails now h g) (same : SameLease s a h g) (owner : h.leaseSessions[a]? = some s)
    (owner' : g.leaseSessions[a]? = some s) : Trails now (h.renewLease a now) (g.renewLease a now) := by
  unfold SessionHost.renewLease
  rw [owner, owner', trails.limits]
  exact trails.modifyLease same

theorem renewLease_index (h : SessionHost) (a : AttachId) (now : MonotonicMs) :
    (h.renewLease a now).leaseSessions = h.leaseSessions := by
  unfold SessionHost.renewLease
  split <;> rfl

end Changes

section Registry

theorem Trails.lookupRefusal (trails : Trails now h g) (s : SessionId) :
    g.registry.lookupRefusal s = h.registry.lookupRefusal s := by
  have retained : g.registry.retained[s]? = h.registry.retained[s]? := (trails.slots s).retained
  unfold SessionRegistry.lookupRefusal
  rw [retained]

theorem Trails.mutate {change : SessionRecord → Except RegistryRefusal SessionRecord} (trails : Trails now h g)
    (alike : ∀ r r', h.registry.live[s]? = some r → g.registry.live[s]? = some r' → Alike (change r) (change r')) :
    Tandem now Any (onRegistry (SessionRegistry.mutate s change) h) (onRegistry (SessionRegistry.mutate s change) g) := by
  have records := (trails.slots s).record
  unfold onRegistry zoom SessionRegistry.mutate
  cases here : h.registry.live[s]? with
  | none =>
    cases there : g.registry.live[s]? with
    | none =>
      simp only [trails.lookupRefusal]
      exact .error rfl trails
    | some r' =>
      simp only [slot, here, there, Option.map_none, Option.map_some] at records
      cases records
  | some r =>
    cases there : g.registry.live[s]? with
    | none =>
      simp only [slot, here, there, Option.map_none, Option.map_some] at records
      cases records
    | some r' =>
      have changed := alike r r' here there
      simp only
      generalize change r = x, change r' = y at changed
      cases changed with
      | ok same => exact .ok trivial (trails.putRecord same)
      | error same =>
        subst same
        exact .error rfl trails

theorem Trails.attachRecord (trails : Trails now h g) (paced : Paced s h g) :
    Tandem now Any (onRegistry (SessionRegistry.attach s now) h) (onRegistry (SessionRegistry.attach s now) g) := by
  refine trails.mutate fun r r' here there => ?_
  rcases paced r r' here there with rfl | ⟨⟨room, free⟩, room', free'⟩
  · exact .refl _
  · exact attach_alike (trails.record here there) room room' free free'

theorem Trails.detachRecord (trails : Trails now h g) (paced : Paced s h g) :
    Tandem now Any (onRegistry (SessionRegistry.detach s now) h) (onRegistry (SessionRegistry.detach s now) g) := by
  refine trails.mutate fun r r' here there => ?_
  rcases paced r r' here there with rfl | ⟨⟨room, -⟩, room', -⟩
  · exact .refl _
  · exact detach_alike (trails.record here there) room room'

theorem Trails.recordLeaseMutation (trails : Trails now h g) (paced : Paced s h g) :
    Tandem now Any (onRegistry (SessionRegistry.recordLeaseMutation s now) h)
      (onRegistry (SessionRegistry.recordLeaseMutation s now) g) := by
  refine trails.mutate fun r r' here there => ?_
  rcases paced r r' here there with rfl | ⟨⟨room, -⟩, room', -⟩
  · exact .refl _
  · exact recordLeaseMutation_alike (trails.record here there) room room'

theorem Trails.beginStopping (trails : Trails now h g) (paced : Paced s h g) :
    Tandem now Any (onRegistry (SessionRegistry.beginStopping s now) h) (onRegistry (SessionRegistry.beginStopping s now) g) := by
  refine trails.mutate fun r r' here there => ?_
  rcases paced r r' here there with rfl | ⟨⟨room, -⟩, room', -⟩
  · exact .refl _
  · exact beginStopping_alike (trails.record here there) room room'

theorem onRegistry_rest {change : SessionRecord → Except RegistryRefusal SessionRecord} {snapshot : SessionSnapshot}
    (run : onRegistry (SessionRegistry.mutate s change) h = (.ok snapshot, h')) :
    h'.sessions = h.sessions ∧ h'.leaseSessions = h.leaseSessions := by
  rcases onRegistry_cases run with ⟨_, impossible, _⟩ | ⟨r, r', -, -, -, rfl⟩
  · cases impossible
  · exact ⟨rfl, rfl⟩

end Registry

end SessionHost

end Bitty.Daemon
