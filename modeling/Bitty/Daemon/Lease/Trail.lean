import Bitty.Daemon.Lease.Run

/-! Two hosts of which one has swept: the checks of the operations find the same in both. -/

namespace Bitty.Daemon

open Std (ExtTreeMap)
open Mutation

def LeaseRefusal.unrevised : LeaseRefusal → LeaseRefusal
  | .staleGeneration generation _ => .staleGeneration generation 0
  | e => e

def SessionRecord.unrevised (r : SessionRecord) : SessionRecord :=
  { r with stateRevision := 0, attachCount := 0, stateChangedAt := 0, lastSeen := 0 }

def SameRefusal (e f : LeaseRefusal) : Prop := e.unrevised = f.unrevised

theorem SameRefusal.refl (e : LeaseRefusal) : SameRefusal e e := rfl

section Records

variable {r r' : SessionRecord} {now : MonotonicMs}

theorem SessionRecord.Aged.unrevised (aged : r.Aged r') : r.unrevised = r'.unrevised := by
  rw [aged.2]
  rfl

theorem state_of_unrevised (same : r.unrevised = r'.unrevised) : r'.state = r.state :=
  (congrArg SessionRecord.state same).symm

theorem generation_of_unrevised (same : r.unrevised = r'.unrevised) : r'.generation = r.generation :=
  (congrArg SessionRecord.generation same).symm

def Alike (x y : Except RegistryRefusal SessionRecord) : Prop :=
  Agree (fun q q' : SessionRecord => q.unrevised = q'.unrevised) (fun e f => e = f) x y

theorem Alike.refl (x : Except RegistryRefusal SessionRecord) : Alike x x := by
  cases x with
  | error e => exact Agree.error rfl
  | ok r => exact Agree.ok rfl

theorem Alike.ok {q q' : SessionRecord} (same : q.unrevised = q'.unrevised) : Alike (.ok q) (.ok q') := Agree.ok same

theorem refuseTerminal_same (same : r.unrevised = r'.unrevised) : r'.refuseTerminal = r.refuseTerminal := by
  unfold SessionRecord.refuseTerminal
  rw [state_of_unrevised same]

theorem revise_of_room (room : r.stateRevision < U64_MAX) :
    r.revise now = .ok { r with stateRevision := r.stateRevision + 1, stateChangedAt := now, lastSeen := now } := by
  unfold SessionRecord.revise checkedAdd
  rw [if_pos (by omega)]
  rfl

theorem heartbeat_alike (same : r.unrevised = r'.unrevised) : Alike (r.heartbeat now) (r'.heartbeat now) := by
  unfold SessionRecord.heartbeat
  rw [refuseTerminal_same same]
  cases r.refuseTerminal with
  | error e => exact Agree.error rfl
  | ok _ => exact .ok same

theorem recordLeaseMutation_alike (same : r.unrevised = r'.unrevised) (room : r.stateRevision < U64_MAX)
    (room' : r'.stateRevision < U64_MAX) : Alike (r.recordLeaseMutation now) (r'.recordLeaseMutation now) := by
  unfold SessionRecord.recordLeaseMutation
  rw [refuseTerminal_same same, revise_of_room room, revise_of_room room']
  cases r.refuseTerminal with
  | error e => exact Agree.error rfl
  | ok _ => exact .ok same

theorem attach_alike (same : r.unrevised = r'.unrevised) (room : r.stateRevision < U64_MAX)
    (room' : r'.stateRevision < U64_MAX) (free : r.attachCount < U16_MAX) (free' : r'.attachCount < U16_MAX) :
    Alike (r.attach now) (r'.attach now) := by
  unfold SessionRecord.attach
  simp only [checkedAdd]
  rw [refuseTerminal_same same, revise_of_room room, revise_of_room room', if_pos (by omega), if_pos (by omega)]
  cases r.refuseTerminal with
  | error e => exact Agree.error rfl
  | ok _ => exact .ok same

theorem detach_alike (same : r.unrevised = r'.unrevised) (room : r.stateRevision < U64_MAX)
    (room' : r'.stateRevision < U64_MAX) : Alike (r.detach now) (r'.detach now) := by
  unfold SessionRecord.detach
  rw [refuseTerminal_same same, revise_of_room room, revise_of_room room']
  cases r.refuseTerminal with
  | error e => exact Agree.error rfl
  | ok _ =>
    by_cases zero : r.attachCount = 0 <;> by_cases zero' : r'.attachCount = 0
    · rw [if_pos zero, if_pos zero']
      exact .ok same
    · rw [if_pos zero, if_neg zero']
      exact .ok same
    · rw [if_neg zero, if_pos zero']
      exact .ok same
    · rw [if_neg zero, if_neg zero']
      exact .ok same

theorem beginStopping_alike (same : r.unrevised = r'.unrevised) (room : r.stateRevision < U64_MAX)
    (room' : r'.stateRevision < U64_MAX) : Alike (r.beginStopping now) (r'.beginStopping now) := by
  unfold SessionRecord.beginStopping
  rw [state_of_unrevised same, revise_of_room room, revise_of_room room']
  split_ifs
  · exact Agree.error rfl
  · refine .ok ?_
    have core := congrArg (fun q : SessionRecord => { q.unrevised with state := .stopping }) same
    exact core

end Records

namespace Slot

/-- The first slot may have expired leases that are gone from the second; the records are the same up to revisions. -/
structure Trails (now : MonotonicMs) (x y : Slot) : Prop where
  retained : y.retained = x.retained
  record : x.record.map SessionRecord.unrevised = y.record.map SessionRecord.unrevised
  state : Option.Rel (SessionLeaseState.Lapsed now) x.state y.state

theorem Lapsed.trails {now : MonotonicMs} {x y : Slot} (lapsed : x.Lapsed now y) : x.Trails now y := by
  refine ⟨lapsed.retained, ?_, lapsed.state⟩
  obtain ⟨xr, xt, xs⟩ := x
  obtain ⟨yr, yt, ys⟩ := y
  obtain ⟨-, record, -⟩ := lapsed
  cases record with
  | none => rfl
  | some aged => exact congrArg some aged.unrevised

end Slot

namespace SessionHost

variable {digest : ControlToken → ControlTokenDigest} {now : MonotonicMs} {h h' g g' : SessionHost} {s t : SessionId}
  {a : AttachId} {r r' : SessionRecord} {st st' : SessionLeaseState} {l : Lease}

/-- The second host is the first one, less some expired leases and up to revisions. -/
structure Trails (now : MonotonicMs) (h g : SessionHost) : Prop where
  slots : ∀ s, (h.slot s).Trails now (g.slot s)
  entropy : g.entropy = h.entropy
  limits : g.limits = h.limits

theorem Trails.record (trails : Trails now h g) (here : h.registry.live[s]? = some r) (there : g.registry.live[s]? = some r') :
    r.unrevised = r'.unrevised := by
  have record := (trails.slots s).record
  simp only [slot, here, there, Option.map_some, Option.some.injEq] at record
  exact record

theorem Trails.state (trails : Trails now h g) (here : h.sessions[s]? = some st) :
    ∃ st', g.sessions[s]? = some st' ∧ st.Lapsed now st' := by
  have state := (trails.slots s).state
  simp only [slot, here] at state
  generalize g.sessions[s]? = after at state
  cases state with
  | some lapsed => exact ⟨_, rfl, lapsed⟩

theorem Trails.state_none (trails : Trails now h g) (here : h.sessions[s]? = none) : g.sessions[s]? = none := by
  have state := (trails.slots s).state
  simp only [slot, here] at state
  generalize g.sessions[s]? = after at state
  cases state with
  | none => rfl

theorem Trails.found (trails : Trails now h g) (s : SessionId) :
    ((h.registry.live[s]?).or h.registry.retained[s]?).map SessionRecord.unrevised =
      ((g.registry.live[s]?).or g.registry.retained[s]?).map SessionRecord.unrevised := by
  obtain ⟨retained, record, -⟩ := trails.slots s
  simp only [slot] at retained record
  rw [retained]
  generalize h.registry.live[s]? = x, g.registry.live[s]? = y at record
  cases x <;> cases y
  · rfl
  · cases record
  · cases record
  · exact record

section Checks

theorem Trails.findState (trails : Trails now h g) (s : SessionId) :
    Agree (SessionLeaseState.Lapsed now) SameRefusal (findState s h) (findState s g) := by
  unfold SessionHost.findState
  cases here : h.sessions[s]? with
  | none =>
    rw [trails.state_none here]
    exact .error rfl
  | some st =>
    obtain ⟨st', there, lapsed⟩ := trails.state here
    rw [there]
    exact .ok lapsed

def SameSnapshot (x y : SessionSnapshot) : Prop := x.state = y.state ∧ x.generation = y.generation

theorem Trails.findSnapshot (trails : Trails now h g) (s : SessionId) :
    Agree SameSnapshot SameRefusal (findSnapshot s h) (findSnapshot s g) := by
  have found := trails.found s
  unfold SessionHost.findSnapshot SessionRegistry.snapshot
  generalize (h.registry.live[s]?).or h.registry.retained[s]? = x, (g.registry.live[s]?).or g.registry.retained[s]? = y at found
  cases x <;> cases y
  · exact .error rfl
  · cases found
  · cases found
  · have same := Option.some.inj found
    exact .ok ⟨(state_of_unrevised same).symm, (generation_of_unrevised same).symm⟩

theorem Trails.liveSession (trails : Trails now h g) (s : SessionId) :
    Agree SameSnapshot SameRefusal (liveSession s h) (liveSession s g) := by
  have found := trails.found s
  unfold SessionHost.liveSession SessionRegistry.snapshot
  generalize (h.registry.live[s]?).or h.registry.retained[s]? = x, (g.registry.live[s]?).or g.registry.retained[s]? = y at found
  cases x with
  | none =>
    cases y with
    | none => exact .error rfl
    | some r' => cases found
  | some r =>
    cases y with
    | none => cases found
    | some r' =>
      have same := Option.some.inj found
      have state : r'.snapshot.state = r.snapshot.state := state_of_unrevised same
      simp only [Option.map_some, state]
      split_ifs
      · exact .error rfl
      · exact .ok ⟨state.symm, (generation_of_unrevised same).symm⟩

theorem sameRefusal_stale {x y : SessionSnapshot} (same : SameSnapshot x y) :
    SameRefusal (staleGeneration x) (staleGeneration y) := by
  unfold SameRefusal staleGeneration LeaseRefusal.unrevised
  rw [same.2]

def liveLease (h : SessionHost) (s : SessionId) (a : AttachId) (now : MonotonicMs) : Option Lease :=
  (h.sessions[s]?.bind fun state => state.leases[a]?).filter fun lease => !lease.isExpiredAt now

theorem liveLease_some : h.liveLease s a now = some l ↔
    ∃ st, h.sessions[s]? = some st ∧ st.leases[a]? = some l ∧ l.isExpiredAt now = false := by
  simp only [liveLease, Option.filter_eq_some_iff, Option.bind_eq_some_iff, Bool.not_eq_true']
  constructor
  · rintro ⟨⟨st, state, lease⟩, live⟩
    exact ⟨st, state, lease, live⟩
  · rintro ⟨st, state, lease, live⟩
    exact ⟨⟨st, state, lease⟩, live⟩

theorem Trails.liveLease (trails : Trails now h g) (s : SessionId) (a : AttachId) :
    g.liveLease s a now = h.liveLease s a now := by
  refine Option.ext fun l => ?_
  rw [liveLease_some, liveLease_some]
  constructor
  · rintro ⟨st', state', lease, live⟩
    cases state : h.sessions[s]? with
    | none =>
      rw [trails.state_none state] at state'
      cases state'
    | some st =>
      obtain ⟨st'', state'', lapsed⟩ := trails.state state
      obtain rfl := Option.some.inj (state'.symm.trans state'')
      exact ⟨st, rfl, lapsed.sub lease, live⟩
  · rintro ⟨st, state, lease, live⟩
    obtain ⟨st', state', lapsed⟩ := trails.state state
    exact ⟨st', state', lapsed.kept lease live, live⟩

theorem actionableLease_eq (sound : h.Sound) (s : SessionId) (a : AttachId) (now : MonotonicMs) :
    actionableLease s a now h = (h.liveLease s a now).elim (.error .notAttached) .ok := by
  unfold actionableLease SessionHost.liveLease
  cases found : h.sessions[s]?.bind fun state => state.leases[a]? with
  | none =>
    simp only [Option.filter_none, Option.elim_none, ite_self]
  | some l =>
    obtain ⟨st, state, lease⟩ := Option.bind_eq_some_iff.mp found
    have owner : h.leaseSessions[a]? = some s := (sound.owned a s).mpr ⟨st, l, state, lease⟩
    rw [if_neg (by rw [owner]; simp)]
    cases expired : l.isExpiredAt now with
    | true =>
      rw [Option.filter_some_neg (by rw [expired]; decide)]
      simp [expired]
    | false =>
      rw [Option.filter_some_pos (by rw [expired]; rfl)]
      simp [expired]

theorem Trails.actionableLease (trails : Trails now h g) (sound : h.Sound) (sound' : g.Sound) (s : SessionId) (a : AttachId) :
    actionableLease s a now g = actionableLease s a now h := by
  rw [actionableLease_eq sound, actionableLease_eq sound', trails.liveLease]

def liveHandle (h : SessionHost) (a : AttachId) (now : MonotonicMs) : Option (SessionId × Lease) :=
  h.leaseSessions[a]?.bind fun s => (h.liveLease s a now).map fun l => (s, l)

theorem liveHandle_some (sound : h.Sound) : h.liveHandle a now = some (s, l) ↔ h.liveLease s a now = some l := by
  unfold liveHandle
  constructor
  · intro found
    obtain ⟨t, -, held⟩ := Option.bind_eq_some_iff.mp found
    obtain ⟨l', live, same⟩ := Option.map_eq_some_iff.mp held
    obtain ⟨rfl, rfl⟩ := Prod.mk.inj same
    exact live
  · intro live
    obtain ⟨st, state, lease, -⟩ := liveLease_some.mp live
    have owner : h.leaseSessions[a]? = some s := (sound.owned a s).mpr ⟨st, l, state, lease⟩
    rw [owner, Option.bind_some, live]
    rfl

theorem Trails.liveHandle (trails : Trails now h g) (sound : h.Sound) (sound' : g.Sound) (a : AttachId) :
    g.liveHandle a now = h.liveHandle a now := by
  refine Option.ext fun ⟨s, l⟩ => ?_
  rw [liveHandle_some sound, liveHandle_some sound', trails.liveLease]

theorem owner_of_liveLease (sound : h.Sound) (live : h.liveLease s a now = some l) : h.leaseSessions[a]? = some s := by
  obtain ⟨st, state, lease, -⟩ := liveLease_some.mp live
  exact (sound.owned a s).mpr ⟨st, l, state, lease⟩

theorem authorizeContentRead_eq (sound : h.Sound) (a : AttachId) (now : MonotonicMs) :
    authorizeContentRead a now h = (h.liveHandle a now).elim (.error .notAttached) fun x => .ok x.2 := by
  unfold authorizeContentRead SessionHost.liveHandle
  cases h.leaseSessions[a]? with
  | none => rfl
  | some s =>
    simp only [actionableLease_eq sound, Option.bind_some]
    cases h.liveLease s a now <;> rfl

theorem authorizeController_eq (sound : h.Sound) (a : AttachId) (now : MonotonicMs) :
    authorizeController a now h = (h.liveHandle a now).elim (.error .notAttached) fun x =>
      if x.2.role.canControl then .ok x.2 else .error .controllerRequired := by
  unfold authorizeController SessionHost.liveHandle
  cases h.leaseSessions[a]? with
  | none => rfl
  | some s =>
    simp only [actionableLease_eq sound, Option.bind_some]
    cases h.liveLease s a now <;> rfl

theorem liveController_some (sound : h.Sound) (state : h.sessions[s]? = some st) :
    st.liveController now = some a ↔ ∃ l, h.liveLease s a now = some l ∧ l.role = .controller := by
  have controls := ((sound.slots s).table st state).controls a
  simp only [SessionLeaseState.liveController, Option.filter_eq_some_iff, liveLease_some, state, Option.some.injEq,
    exists_eq_left']
  constructor
  · rintro ⟨controller, live⟩
    obtain ⟨l, lease, role⟩ := controls.mp controller
    rw [lease] at live
    exact ⟨l, ⟨lease, by simpa using live⟩, role⟩
  · rintro ⟨l, ⟨lease, live⟩, role⟩
    refine ⟨controls.mpr ⟨l, lease, role⟩, ?_⟩
    rw [lease]
    simpa using live

theorem Trails.liveController (trails : Trails now h g) (sound : h.Sound) (sound' : g.Sound) (state : h.sessions[s]? = some st)
    (state' : g.sessions[s]? = some st') : st'.liveController now = st.liveController now := by
  refine Option.ext fun a => ?_
  rw [liveController_some sound state, liveController_some sound' state', trails.liveLease]

theorem Trails.resolveRelation (trails : Trails now h g) (sound : h.Sound) (sound' : g.Sound) (s : SessionId)
    (authority : ControlAuthority) : resolveRelation s authority now g = resolveRelation s authority now h := by
  unfold SessionHost.resolveRelation
  split_ifs with operator
  · rfl
  · cases authority.lease with
    | some leaseId =>
      dsimp only
      rw [trails.actionableLease sound sound']
    | none =>
      cases authority.token with
      | none => rfl
      | some token =>
        dsimp only
        unfold SessionHost.findState
        cases here : h.sessions[s]? with
        | none =>
          rw [trails.state_none here]
        | some st =>
          obtain ⟨st', there, -⟩ := trails.state here
          have same := trails.liveController sound sound' here there
          rw [there]
          show (if (st'.liveController now).isSome then _ else _) = if (st.liveController now).isSome then _ else _
          rw [same]

end Checks

end SessionHost

end Bitty.Daemon
