import Bitty.Daemon.Lease.Tandem

/-! What an operation that checks liveness leaves behind does not depend on an earlier sweep. -/

namespace Bitty.Daemon

open Std (ExtTreeMap)
open Mutation

namespace SessionHost

variable {digest : ControlToken → ControlTokenDigest} {now : MonotonicMs} {h h' g g' : SessionHost} {s t : SessionId}
  {a : AttachId} {r r' : SessionRecord} {st st' : SessionLeaseState} {l : Lease}

section Minting

theorem Trails.drew {e : Entropy} (trails : Trails now h g) : Trails now { h with entropy := e } { g with entropy := e } :=
  ⟨trails.slots, rfl, trails.limits⟩

theorem Trails.mintToken (trails : Trails now h g) : Tandem now Eq (mintToken h) (mintToken g) := by
  unfold SessionHost.mintToken
  rw [trails.entropy]
  cases h.entropy.fill32 with
  | mk drawn entropy =>
    cases drawn with
    | none => exact .error rfl trails.drew
    | some value => exact .ok rfl trails.drew

theorem Trails.tokenMatches (trails : Trails now h g) (s : SessionId) (token : ControlToken) :
    (g.sessions[s]?.any fun state => state.tokenMatches digest token) =
      h.sessions[s]?.any fun state => state.tokenMatches digest token := by
  cases here : h.sessions[s]? with
  | none => rw [trails.state_none here]
  | some st =>
    obtain ⟨st', there, lapsed⟩ := trails.state here
    rw [there, Option.any_some, Option.any_some, lapsed.tokenMatches]

theorem Trails.mintRotatedToken (trails : Trails now h g) (s : SessionId) :
    Tandem now Eq (mintRotatedToken digest s h) (mintRotatedToken digest s g) := by
  unfold SessionHost.mintRotatedToken
  refine Lockstep.bind trails.mintToken fun token token' h₁ g₁ _ _ same trails₁ => ?_
  subst same
  exact Lockstep.refuseIf rfl (trails₁.tokenMatches s token).symm trails₁ fun _ => .ok rfl trails₁

def redrawn (taken lapsed : AttachId → Bool) : (attempts : Nat) → List (Option (BitVec 128)) → Bool
  | attempts + 1, some value :: rest => taken ⟨value⟩ && (lapsed ⟨value⟩ || redrawn taken lapsed attempts rest)
  | _, _ => false

/-- The handle of an expired lease is drawn, and so drawn again. -/
def Redraws (h : SessionHost) (now : MonotonicMs) : Prop :=
  redrawn (fun a => h.leaseSessions.contains a) (fun a => (h.liveHandle a now).isNone) ID_GENERATION_ATTEMPTS
    h.entropy.fills16 = true

theorem Trails.unheld (trails : Trails now h g) (sound : h.Sound) (sound' : g.Sound) (free : h.leaseSessions[a]? = none) :
    g.leaseSessions[a]? = none := by
  cases owner : g.leaseSessions[a]? with
  | none => rfl
  | some t =>
    obtain ⟨st', l, state', lease⟩ := (sound'.owned a t).mp owner
    cases state : h.sessions[t]? with
    | none =>
      have missing := trails.state_none state
      rw [show g.sessions[t]? = some st' from state'] at missing
      cases missing
    | some st =>
      obtain ⟨st'', there, lapsed⟩ := trails.state state
      obtain rfl := Option.some.inj (there.symm.trans state')
      rw [(sound.owned a t).mpr ⟨st, l, state, lapsed.sub lease⟩] at free
      cases free

theorem Trails.contains (trails : Trails now h g) (sound : h.Sound) (sound' : g.Sound)
    (live : h.leaseSessions.contains a = true → (h.liveHandle a now).isSome) :
    g.leaseSessions.contains a = h.leaseSessions.contains a := by
  cases held : h.leaseSessions.contains a with
  | false =>
    have free : h.leaseSessions[a]? = none := by
      refine ExtTreeMap.getElem?_eq_none fun inside => ?_
      rw [ExtTreeMap.mem_iff_contains, held] at inside
      cases inside
    have free' := trails.unheld sound sound' free
    rw [← Bool.not_eq_true, ← ExtTreeMap.mem_iff_contains, TreeMap.mem_iff, free']
    rintro ⟨t, owner⟩
    cases owner
  | true =>
    obtain ⟨⟨s, l⟩, handle⟩ := Option.isSome_iff_exists.mp (live held)
    rw [← trails.liveHandle sound sound', liveHandle_some sound'] at handle
    have owner := owner_of_liveLease sound' handle
    rw [← ExtTreeMap.mem_iff_contains, TreeMap.mem_iff]
    exact ⟨s, owner⟩

theorem Trails.mintAttachIdWithin (trails : Trails now h g) (sound : h.Sound) (sound' : g.Sound) (attempts : Nat) (e : Entropy)
    (fresh : redrawn (fun a => h.leaseSessions.contains a) (fun a => (h.liveHandle a now).isNone) attempts e.fills16 = false) :
    Tandem now Eq (mintAttachIdWithin attempts { h with entropy := e }) (mintAttachIdWithin attempts { g with entropy := e }) := by
  induction attempts generalizing e with
  | zero => exact .error rfl trails.drew
  | succ attempts ih =>
    unfold SessionHost.mintAttachIdWithin
    obtain ⟨fills16, fills32⟩ := e
    cases fills16 with
    | nil => exact .error rfl trails.drew
    | cons drawn rest =>
      cases drawn with
      | none => exact .error rfl trails.drew
      | some value =>
        have filled (h : SessionHost) : fill { h with entropy := ⟨some value :: rest, fills32⟩ } =
            (.ok value, { h with entropy := ⟨rest, fills32⟩ }) := rfl
        refine Lockstep.bind_ok (filled h) (filled g) ?_
        rw [read_bind, read_bind]
        rw [redrawn, Bool.and_eq_false_iff] at fresh
        by_cases taken : h.leaseSessions.contains ⟨value⟩ = true
        · have later := fresh.resolve_left (by rw [taken]; decide)
          obtain ⟨live, fresh'⟩ := Bool.or_eq_false_iff.mp later
          have held : g.leaseSessions.contains ⟨value⟩ = true := by
            rw [trails.contains sound sound' fun _ => by simpa using live, taken]
          simp only [taken, held, if_true]
          exact ih ⟨rest, fills32⟩ fresh'
        · have held : g.leaseSessions.contains ⟨value⟩ = h.leaseSessions.contains ⟨value⟩ :=
            trails.contains sound sound' fun inside => absurd inside taken
          simp only [held, taken]
          exact .ok rfl trails.drew

theorem Trails.mintAttachId (trails : Trails now h g) (sound : h.Sound) (sound' : g.Sound) (fresh : ¬ h.Redraws now) :
    Tandem now Eq (mintAttachId h) (mintAttachId g) := by
  have drawn := trails.mintAttachIdWithin sound sound' ID_GENERATION_ATTEMPTS h.entropy (by simpa [Redraws] using fresh)
  have same : { g with entropy := h.entropy } = g := by rw [← trails.entropy]
  rw [same] at drawn
  exact drawn

theorem mintRotatedToken_drew {answer : Except LeaseRefusal ControlToken} (run : mintRotatedToken digest s h = (answer, h')) :
    ∃ e : Entropy, e.fills16 = h.entropy.fills16 ∧ h' = { h with entropy := e } := by
  have drew : ∃ e : Entropy, e.fills16 = h.entropy.fills16 ∧ (SessionHost.mintToken h).2 = { h with entropy := e } := by
    have same : h.entropy.fill32.2.fills16 = h.entropy.fills16 := rfl
    unfold SessionHost.mintToken
    split <;> rename_i drawn <;> rw [drawn] at same <;> exact ⟨_, same, rfl⟩
  obtain ⟨e, same, minted⟩ := drew
  refine ⟨e, same, ?_⟩
  unfold SessionHost.mintRotatedToken at run
  rcases bind_cases run with ⟨refusal, first, -⟩ | ⟨token, h₁, first, rest⟩
  · rw [first] at minted
    exact minted
  · rw [first] at minted
    rcases bind_cases rest with ⟨refusal, check, -⟩ | ⟨_, h₂, check, done⟩
    · obtain ⟨rfl, -⟩ := refuseIf_cases check
      exact minted
    · obtain ⟨rfl, -⟩ := refuseIf_cases check
      obtain ⟨-, rfl⟩ := Prod.mk.inj done
      exact minted

end Minting

section Renewal

theorem heartbeat_refused (dead : h.liveHandle a now = none) : heartbeat a now h = (.error .notAttached, h) := by
  unfold heartbeat
  unfold liveHandle liveLease at dead
  cases owner : h.leaseSessions[a]? with
  | none => exact bind_of_error (by rw [ask_apply, owner]) _
  | some s =>
    rw [ask_bind_of_ok (a := s) (by rw [owner])]
    rw [owner, Option.bind_some, Option.map_eq_none_iff, Option.filter_eq_none_iff] at dead
    cases lease : h.sessions[s]?.bind fun state => state.leases[a]? with
    | none => exact bind_of_error (by rw [ask_apply, lease]) _
    | some l =>
      have expired := dead l lease
      rw [ask_bind_of_ok (a := l) (by rw [lease])]
      refine bind_of_error ?_ _
      rw [refuseIf, if_pos (by simpa using expired)]

theorem Trails.heartbeat (trails : Trails now h g) (sound : h.Sound) (sound' : g.Sound) (a : AttachId) :
    Tandem now Any (heartbeat a now h) (heartbeat a now g) := by
  have same := trails.liveHandle sound sound' a
  cases handle : h.liveHandle a now with
  | none =>
    rw [heartbeat_refused handle, heartbeat_refused (same.trans handle)]
    exact .error rfl trails
  | some found =>
    obtain ⟨s, l⟩ := found
    have live := (liveHandle_some sound).mp handle
    have live' := (liveHandle_some sound').mp (same.trans handle)
    obtain ⟨st, state, lease, unexpired⟩ := liveLease_some.mp live
    obtain ⟨st', state', lease', -⟩ := liveLease_some.mp live'
    unfold SessionHost.heartbeat
    refine Lockstep.passed (a := s) (b := s) ?_ ?_ ?_
    · rw [owner_of_liveLease sound live]
    · rw [owner_of_liveLease sound' live']
    refine Lockstep.passed (a := l) (b := l) ?_ ?_ ?_
    · rw [state, Option.bind_some, lease]
    · rw [state', Option.bind_some, lease']
    refine Lockstep.refuseIf rfl rfl trails fun _ => ?_
    have beat : Tandem now Any (onRegistry (SessionRegistry.heartbeat s now) h) (onRegistry (SessionRegistry.heartbeat s now) g) :=
      trails.mutate fun r r' here there => heartbeat_alike (trails.record here there)
    refine Lockstep.bind beat fun _ _ h₁ g₁ run _ _ trails₁ => ?_
    rw [read_bind, read_bind, trails₁.limits]
    have live₁ : h₁.liveLease s a now = some l := by
      unfold SessionHost.liveLease
      rw [(onRegistry_rest run).1]
      exact live
    exact .ok trivial (trails₁.modifyLease (trails₁.sameLease live₁))

theorem Trails.recordResize (trails : Trails now h g) (sound : h.Sound) (sound' : g.Sound) (a : AttachId)
    (paced : ∀ s, h.leaseSessions[a]? = some s → Paced s h g) : Tandem now Any (recordResize a now h) (recordResize a now g) := by
  have same := trails.liveHandle sound sound' a
  unfold SessionHost.recordResize
  refine Lockstep.askSame SameRefusal.refl ?_ trails fun _ allowed => ?_
  · rw [authorizeController_eq sound, authorizeController_eq sound', same]
  · rw [authorizeController_eq sound] at allowed
    cases handle : h.liveHandle a now with
    | none =>
      rw [handle] at allowed
      cases allowed
    | some found =>
      obtain ⟨s, l⟩ := found
      have live := (liveHandle_some sound).mp handle
      have live' := (liveHandle_some sound').mp (same.trans handle)
      have owner := owner_of_liveLease sound live
      have owner' := owner_of_liveLease sound' live'
      refine Lockstep.passed (a := s) (b := s) ?_ ?_ ?_
      · rw [owner]
      · rw [owner']
      refine Lockstep.bind (trails.recordLeaseMutation (paced s owner)) fun _ _ h₁ g₁ run run' _ trails₁ => ?_
      obtain ⟨sessions, index⟩ := onRegistry_rest run
      obtain ⟨-, index'⟩ := onRegistry_rest run'
      have live₁ : h₁.liveLease s a now = some l := by
        unfold SessionHost.liveLease
        rw [sessions]
        exact live
      exact .ok trivial (trails₁.renewLease (trails₁.sameLease live₁) (by rw [index, owner]) (by rw [index', owner']))

end Renewal

section Grants

theorem Trails.any {p : SessionLeaseState → Bool} (trails : Trails now h g) (s : SessionId)
    (same : ∀ st st', st.Lapsed now st' → p st' = p st) : g.sessions[s]?.any p = h.sessions[s]?.any p := by
  cases here : h.sessions[s]? with
  | none => rw [trails.state_none here]
  | some st =>
    obtain ⟨st', there, lapsed⟩ := trails.state here
    rw [there, Option.any_some, Option.any_some, same st st' lapsed]

theorem sound_drew {e : Entropy} (sound : h.Sound) : ({ h with entropy := e } : SessionHost).Sound :=
  ⟨sound.slots, sound.owned, sound.distinct, sound.ordered⟩

theorem mintAttachId_drew {answer : Except LeaseRefusal AttachId} (run : mintAttachId h = (answer, h')) :
    ∃ e : Entropy, h' = { h with entropy := e } := by
  obtain ⟨e, -, same⟩ := mintAttachIdWithin_spec ID_GENERATION_ATTEMPTS h
  unfold mintAttachId at run
  rw [run] at same
  exact ⟨e, same⟩

theorem trails_of_lapsed {x y z : Slot} (lapsed : x.Lapsed now y) (trails : x.Trails now z)
    (swept : ∀ st, y.state = some st → ∀ (a : AttachId) l, st.leases[a]? = some l → l.isExpiredAt now = false)
    (swept' : ∀ st, z.state = some st → ∀ (a : AttachId) l, st.leases[a]? = some l → l.isExpiredAt now = false) :
    y.Trails now z := by
  obtain ⟨retained, record, state⟩ := lapsed.trails
  obtain ⟨retained', record', state'⟩ := trails
  refine ⟨retained'.trans retained.symm, record.symm.trans record', ?_⟩
  obtain ⟨xr, xt, xs⟩ := x
  obtain ⟨yr, yt, ys⟩ := y
  obtain ⟨zr, zt, zs⟩ := z
  simp only at state state' swept swept'
  cases state with
  | none => exact state'
  | some first =>
    cases state' with
    | some second => exact .some (first.meet second (swept _ rfl) (swept' _ rfl))

theorem Trails.sweepSession (trails : Trails now h g) (sound : h.Sound) (sound' : g.Sound) (enough : ¬ h.Short s now)
    (level : Level now s h g) :
    ∃ x x' h₁ g₁, SessionHost.sweepSession s now h = (.ok x, h₁) ∧ SessionHost.sweepSession s now g = (.ok x', g₁) ∧
      Trails now h₁ g₁ ∧ h₁.Swept s now ∧ Paced s h₁ g₁ := by
  obtain ⟨⟨x, answer⟩, whole, done⟩ := sweepSession_spec sound s now
  obtain ⟨⟨x', answer'⟩, whole', -⟩ := sweepSession_spec sound' s now
  have same := whole'.untouched level.swept
  have frame := framed_sweepSession s now h
  have frame' := framed_sweepSession s now g
  have again := level_of_whole sound enough whole done
  refine ⟨x, x', _, _, Prod.ext answer rfl, Prod.ext answer' rfl, ⟨fun t => ?_, ?_, ?_⟩, again.swept, ?_⟩
  · by_cases mine : s = t
    · subst mine
      rw [same]
      exact trails_of_lapsed (whole.lapsed s) (trails.slots s) again.swept level.swept
    · rw [frame.2 t mine, frame'.2 t mine]
      exact trails.slots t
  · rw [frame.1, frame'.1, trails.entropy]
  · rw [whole.limits, whole'.limits, trails.limits]
  · have records : (SessionHost.sweepSession s now g).2.registry.live[s]? = g.registry.live[s]? := congrArg Slot.record same
    rcases level.room with equal | ⟨room, room'⟩
    · have swept : h.Swept s now := by
        intro st state
        exact level.swept st ((congrArg Slot.state equal).trans state)
      refine paced_of_slot ?_
      rw [same, equal, whole.untouched swept]
    · intro r r' record record'
      refine .inr ⟨free_of_room (whole.sound sound) record ?_, free_of_room (whole'.sound sound') record' ?_⟩
      · rcases again.room with equal | ⟨-, room''⟩
        · have before := room r ((congrArg Slot.record equal).symm.trans record)
          omega
        · exact room'' r record
      · rw [records] at record'
        exact room' r' record'

theorem Trails.attachObserver (trails : Trails now h g) (sound : h.Sound) (sound' : g.Sound) (enough : ¬ h.Short s now)
    (level : Level now s h g) (fresh : ¬ h.Redraws now) : Tandem now Any (attachObserver s now h) (attachObserver s now g) := by
  unfold SessionHost.attachObserver
  refine Lockstep.ask (trails.liveSession s) trails fun _ _ _ _ _ => ?_
  refine Lockstep.ask (trails.findState s) trails fun st st' _ _ lapsed => ?_
  rw [read_bind, read_bind, trails.limits]
  refine Lockstep.refuseIf rfl (by rw [lapsed.liveObservers]) trails fun _ => ?_
  refine Lockstep.bind (trails.mintAttachId sound sound' fresh) fun a a' h₁ g₁ run run' same trails₁ => ?_
  subst same
  obtain ⟨e, rfl⟩ := mintAttachId_drew run
  obtain ⟨e', rfl⟩ := mintAttachId_drew run'
  obtain ⟨x, x', h₂, g₂, swept, swept', trails₂, clean, paced⟩ :=
    trails₁.sweepSession (sound_drew sound) (sound_drew sound') enough ⟨level.swept, level.room⟩
  refine Lockstep.bind_ok swept swept' ?_
  refine Lockstep.refuseIf rfl ?_ trails₂ fun _ => ?_
  · cases here : h₂.sessions[s]? with
    | none => rw [trails₂.state_none here]
    | some st₂ =>
      obtain ⟨st₂', there, lapsed₂⟩ := trails₂.state here
      rw [there, Option.map_some, Option.map_some, Option.getD_some, Option.getD_some, lapsed₂.size (clean st₂ here)]
  refine Lockstep.bind (trails₂.attachRecord paced) fun _ _ h₃ g₃ _ _ _ trails₃ => ?_
  refine Lockstep.ask (trails₃.findState s) trails₃ fun _ _ _ _ _ => ?_
  have put := trails₃.modifyState (s := s) (f := (·.attached (Lease.new a .observer now h.limits.attachLeaseTtlMs)))
    (k := (·.attached (Lease.new a .observer now h.limits.attachLeaseTtlMs))) fun _ _ _ _ lapsed => lapsed.attached _
  exact .ok trivial ⟨put.slots, put.entropy, put.limits⟩

end Grants

section Control

theorem removeLease_of_ok (state : h.sessions[s]? = some st) (lease : st.leases[a]? = some l)
    (record : h.registry.live[s]? = some r) (detached : r.detach now = .ok r') :
    removeLease s a now h = (.ok (l, r'.snapshot), (h.putRecord s r').forgetLease s a) := by
  unfold removeLease
  have first : onRegistry (SessionRegistry.detach s now) h = (.ok r'.snapshot, h.putRecord s r') :=
    onRegistry_of_ok record detached
  rw [ask_bind_of_ok (a := l) (by rw [state, Option.bind_some, lease]), bind_of_ok first]
  rfl

theorem detach_of_room (alive : r.state.isTerminal = false) (room : r.stateRevision < U64_MAX) :
    ∃ r', r.detach now = .ok r' := by
  cases detached : r.detach now with
  | ok r' => exact ⟨r', rfl⟩
  | error e =>
    have full := (SessionRecord.detach_error alive detached).2.1
    omega

theorem Trails.vacate (trails : Trails now h g) (sound : h.Sound) (sound' : g.Sound) (level : Level now s h g)
    (state : h.sessions[s]? = some st) (state' : g.sessions[s]? = some st') :
    ∃ x h₁, SessionHost.vacate s now (st.expiredController now) h = (.ok x, h₁) ∧
      SessionHost.vacate s now (st'.expiredController now) g = (.ok none, g) ∧ Trails now h₁ g ∧ Paced s h₁ g ∧ h₁.Sound := by
  have gone : st'.expiredController now = none := by
    cases expired : st'.expiredController now with
    | none => rfl
    | some l =>
      obtain ⟨a, -, lease, due⟩ := SessionLeaseState.expiredController_some expired
      rw [level.swept st' state' a l lease] at due
      cases due
  rw [gone]
  cases expired : st.expiredController now with
  | none => exact ⟨_, h, rfl, rfl, trails, level.paced sound sound', sound⟩
  | some l =>
    obtain ⟨a, -, lease, due⟩ := SessionLeaseState.expiredController_some expired
    have key := ((sound.slots s).table st state).keyed a l lease
    subst key
    obtain ⟨r, live⟩ := sound.live_of_lease state lease
    have record : h.registry.live[s]? = some r := congrArg Slot.record live
    obtain ⟨room, room'⟩ := level.room.resolve_left fun same => by
      have mine : g.sessions[s]? = some st := (congrArg Slot.state same).trans state
      have clean := level.swept st mine _ l lease
      rw [clean] at due
      cases due
    have below := room r record
    obtain ⟨r₁, detached⟩ : ∃ r₁, r.detach now = .ok r₁ := detach_of_room ((sound.slots s).alive r record) (by omega)
    have whole : Whole now h ((h.putRecord s r₁).forgetLease s l.attachId) := .single (.due state lease due record detached)
    have sound₁ := whole.sound sound
    have vacated : SessionHost.vacate s now (some l) h = (.ok (some ⟨s, l.attachId, l.role, r₁.snapshot.stateRevision⟩), _) :=
      bind_of_ok (removeLease_of_ok state lease record detached) _
    refine ⟨_, _, vacated, rfl, ⟨fun t => ?_, trails.entropy, trails.limits⟩, ?_, sound₁⟩
    · rw [slot_forgetLease, slot_putRecord]
      by_cases mine : s = t
      · subst mine
        obtain ⟨retained, records, states⟩ := trails.slots s
        simp only [if_true]
        refine ⟨retained, ?_, ?_⟩
        · rw [← records]
          refine (congrArg some ?_).trans (congrArg (Option.map SessionRecord.unrevised) record).symm
          exact (SessionRecord.aged_detach detached).unrevised.symm
        · simp only [slot, state, state', Option.map_some] at states ⊢
          cases states with
          | some lapsed =>
            refine .some (lapsed.without ?_)
            rcases lapsed.leases l.attachId with same | ⟨gone, -⟩
            · have clean := level.swept st' state' _ l (same.trans lease)
              rw [clean] at due
              cases due
            · exact gone
      · rw [if_neg mine, if_neg mine]
        exact trails.slots t
    · intro q q' here there
      have after : ((h.putRecord s r₁).forgetLease s l.attachId).registry.live[s]? = some r₁ := by
        have slots := slot_forgetLease (h := h.putRecord s r₁) (s := s) (a := l.attachId) (t := s)
        rw [if_pos rfl, slot_putRecord, if_pos rfl] at slots
        exact congrArg Slot.record slots
      obtain rfl := Option.some.inj (after.symm.trans here)
      refine .inr ⟨free_of_room sound₁ here ?_, free_of_room sound' there (room' q' there)⟩
      obtain ⟨-, ⟨-, rfl⟩ | ⟨-, -, rfl⟩⟩ := SessionRecord.detach_ok detached
      · simp only
        omega
      · simp only
        omega

theorem controlHeld_eq (sound : h.Sound) (state : h.sessions[s]? = some st) :
    (st.controller.isSome && (st.expiredController now).isNone) = (st.liveController now).isSome := by
  unfold SessionLeaseState.expiredController SessionLeaseState.liveController
  cases controller : st.controller with
  | none => rfl
  | some a =>
    obtain ⟨l, lease, -⟩ := (((sound.slots s).table st state).controls a).mp controller
    rw [Option.bind_some, lease]
    cases expired : l.isExpiredAt now with
    | true => simp [lease, expired]
    | false => simp [lease, expired]

theorem Trails.claimController {generation : Nat} {token : ControlToken} (trails : Trails now h g) (sound : h.Sound)
    (sound' : g.Sound) (level : Level now s h g) (fresh : ¬ h.Redraws now) :
    Tandem now Any (claimController digest s generation token now h) (claimController digest s generation token now g) := by
  unfold SessionHost.claimController
  refine Lockstep.ask (trails.liveSession s) trails fun session session' _ _ same => ?_
  refine Lockstep.refuseIf rfl ?_ trails fun _ => ?_
  · simp only [same.1, trails.any s fun st st' lapsed => congrArg Option.isSome lapsed.cancel]
  refine Lockstep.refuseIf (sameRefusal_stale same) (by rw [same.2]) trails fun _ => ?_
  refine Lockstep.ask (trails.findState s) trails fun st st' found found' lapsed => ?_
  have state := findState_ok.mp found
  have state' := findState_ok.mp found'
  refine Lockstep.refuseIf rfl ?_ trails fun _ => ?_
  · rw [controlHeld_eq sound state, controlHeld_eq sound' state', trails.liveController sound sound' state state']
  refine Lockstep.refuseIf rfl (by rw [lapsed.tokenMatches]) trails fun _ => ?_
  refine Lockstep.bind (trails.mintRotatedToken s) fun controlToken controlToken' h₁ g₁ run run' equal trails₁ => ?_
  subst equal
  obtain ⟨e, fills, rfl⟩ := mintRotatedToken_drew run
  obtain ⟨e', -, rfl⟩ := mintRotatedToken_drew run'
  have fresh₁ : ¬ SessionHost.Redraws { h with entropy := e } now := by
    unfold Redraws at fresh ⊢
    rw [fills]
    exact fresh
  refine Lockstep.bind (trails₁.mintAttachId (sound_drew sound) (sound_drew sound') fresh₁) fun a a' h₂ g₂ drawn drawn' equal trails₂ => ?_
  subst equal
  obtain ⟨e₁, rfl⟩ := mintAttachId_drew drawn
  obtain ⟨e₁', rfl⟩ := mintAttachId_drew drawn'
  rw [read_bind, read_bind]
  obtain ⟨x, h₃, vacated, vacant, trails₃, paced, -⟩ :=
    trails₂.vacate (sound_drew (sound_drew sound)) (sound_drew (sound_drew sound')) ⟨level.swept, level.room⟩ state state'
  refine Lockstep.bind_ok vacated vacant ?_
  refine Lockstep.bind (trails₃.attachRecord paced) fun _ _ h₄ g₄ _ _ _ trails₄ => ?_
  refine Lockstep.ask (trails₄.findState s) trails₄ fun _ _ _ _ _ => ?_
  have put := trails₄.modifyState (s := s)
    (f := fun state => { state with
        leases := state.leases.insert a (Lease.new a .controller now h.limits.attachLeaseTtlMs)
        controller := some a
        token := .current (digest controlToken)
        claimed := true })
    (k := fun state => { state with
        leases := state.leases.insert a (Lease.new a .controller now g.limits.attachLeaseTtlMs)
        controller := some a
        token := .current (digest controlToken)
        claimed := true })
    fun st st' _ _ lapsed => by
      rw [trails.limits]
      exact ⟨rfl, rfl, lapsed.stop, lapsed.cancel, (lapsed.attached (Lease.new a .controller now h.limits.attachLeaseTtlMs)).leases⟩
  exact .ok trivial ⟨put.slots, put.entropy, put.limits⟩

end Control

end SessionHost

end Bitty.Daemon
