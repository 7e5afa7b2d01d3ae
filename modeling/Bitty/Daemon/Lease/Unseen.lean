import Bitty.Daemon.Lease.Accord

/-! Whether an operation tells that a sweep came right before it. -/

namespace Bitty.Daemon

open Std (ExtTreeMap)
open Mutation

def ControlAuthority.Owns (authority : ControlAuthority) (target : AttachId) : Prop :=
  authority.operator = false ∧ authority.lease = some target

structure Standing where
  leases : ExtTreeMap AttachId Lease
  controller : Option AttachId
  token : TokenSlot
  stop : Option StopState
  cancel : Option CancelIntent

def SessionLeaseState.standing (s : SessionLeaseState) (now : MonotonicMs) : Standing :=
  ⟨s.unexpired now, s.liveController now, s.token, s.stop, s.cancel⟩

namespace SessionHost

variable {digest : ControlToken → ControlTokenDigest} {now : MonotonicMs} {h h' g g' : SessionHost} {s t : SessionId}
  {a target : AttachId} {r r' : SessionRecord} {st st' : SessionLeaseState} {l : Lease} {authority : ControlAuthority}

section Detach

def Strays (h : SessionHost) (s : SessionId) (target : AttachId) (now : MonotonicMs) : Prop :=
  h.isForeign s target = true ∧ h.liveHandle target now = none

theorem isExpiredLease_iff : h.isExpiredLease s a now = true ↔
    ∃ st l, h.sessions[s]? = some st ∧ st.leases[a]? = some l ∧ l.isExpiredAt now = true := by
  unfold isExpiredLease
  rw [Option.any_eq_true]
  constructor
  · rintro ⟨l, held, expired⟩
    obtain ⟨st, state, lease⟩ := Option.bind_eq_some_iff.mp held
    exact ⟨st, l, state, lease, expired⟩
  · rintro ⟨st, l, state, lease, expired⟩
    exact ⟨l, Option.bind_eq_some_iff.mpr ⟨st, state, lease⟩, expired⟩

theorem Trails.isExpiredLease_sub (trails : Trails now h g) (expired : g.isExpiredLease s a now = true) :
    h.isExpiredLease s a now = true := by
  obtain ⟨st', l, state', lease, due⟩ := isExpiredLease_iff.mp expired
  obtain ⟨st, state, before⟩ := trails.lease_sub state' lease
  exact isExpiredLease_iff.mpr ⟨st, l, state, before, due⟩

theorem isForeign_iff : h.isForeign s a = true ↔ ∃ t, h.leaseSessions[a]? = some t ∧ t ≠ s := by
  unfold isForeign
  rw [Option.any_eq_true]
  simp

theorem Trails.owner_sub (trails : Trails now h g) (sound : h.Sound) (sound' : g.Sound) (owner : g.leaseSessions[a]? = some t) :
    h.leaseSessions[a]? = some t := by
  obtain ⟨st', l, state', lease⟩ := (sound'.owned a t).mp owner
  obtain ⟨st, state, before⟩ := trails.lease_sub state' lease
  exact (sound.owned a t).mpr ⟨st, l, state, before⟩

theorem foreign_lease (sound : h.Sound) (foreign : h.isForeign s a = true) (state : h.sessions[s]? = some st) :
    st.leases[a]? = none := by
  obtain ⟨t, owner, other⟩ := isForeign_iff.mp foreign
  cases lease : st.leases[a]? with
  | none => rfl
  | some l =>
    have mine : h.leaseSessions[a]? = some s := (sound.owned a s).mpr ⟨st, l, state, lease⟩
    exact absurd (Option.some.inj (owner.symm.trans mine)) other

theorem Trails.detachOwn {x y : SessionSnapshot} (trails : Trails now h g) (sound : h.Sound) (sound' : g.Sound)
    (paced : Paced s h g) (owns : authority.Owns target) (unexpired : h.isExpiredLease s target now ≠ true) :
    Tandem now Any (detachOwn s target authority x now h) (detachOwn s target authority y now g) := by
  unfold SessionHost.detachOwn
  rw [if_neg unexpired, if_neg fun expired => unexpired (trails.isExpiredLease_sub expired)]
  refine Lockstep.askSame SameRefusal.refl (trails.actionableLease sound sound' s target).symm trails fun _ _ => ?_
  refine trails.detachAuthorized sound sound' paced (fun b lease other => ?_) fun _ _ impossible => by cases impossible
  exact absurd (Option.some.inj (lease.symm.trans owns.2)) other

theorem Trails.detachOther {x y : SessionSnapshot} (trails : Trails now h g) (sound : h.Sound) (sound' : g.Sound)
    (paced : Paced s h g) (built : authority.Built)
    (revokes : authority.operator = true → h.isController s target = true → h.isExpiredLease s target now ≠ true) :
    Tandem now Any (detachOther digest s target authority x now h) (detachOther digest s target authority y now g) := by
  unfold SessionHost.detachOther
  refine Lockstep.askSame SameRefusal.refl (trails.authorizeDetach sound sound' s authority).symm trails fun authorized allowed => ?_
  obtain ⟨relation, resolved, check⟩ := Except.bind_ok allowed
  refine trails.detachAuthorized sound sound' paced (fun b lease _ => liveLease_of_resolve built lease resolved) ?_
  rintro lapsed controller - rfl
  have operator : authority.operator = true := by
    rcases resolveRelation_ok resolved with ⟨-, operator⟩ | ⟨-, ⟨_, _, _, rfl, -⟩ | ⟨token, _, rfl, -⟩⟩
    · exact operator
    · cases check
    · obtain ⟨_, -, done⟩ := Except.bind_ok check
      cases done
  obtain ⟨st, l, state, lease, -⟩ := (isController_iff sound).mp controller
  refine revokes operator controller (isExpiredLease_iff.mpr ⟨st, l, state, lease, ?_⟩)
  by_contra live
  rw [liveLease_some.mpr ⟨st, state, lease, by simpa using live⟩] at lapsed
  cases lapsed

theorem Trails.detach (trails : Trails now h g) (sound : h.Sound) (sound' : g.Sound) (paced : Paced s h g)
    (built : authority.Built)
    (kept : h.isExpiredLease s target now = true → ¬ (authority.Owns target ∨
      authority.operator = true ∧ h.isController s target = true))
    (strays : (h.registry.live[s]?).isSome → h.Strays s target now → authority.Owns target ∨
      SessionHost.authorizeDetach digest s authority now h = .error .notAttached) :
    Tandem now Any (detach digest s target authority now h) (detach digest s target authority now g) := by
  unfold SessionHost.detach
  refine Lockstep.ask (trails.findSnapshot s) trails fun x y known _ same => ?_
  rw [same.1]
  by_cases terminal : y.state.isTerminal = true
  · rw [if_pos terminal, if_pos terminal]
    exact .ok trivial trails
  rw [if_neg terminal, if_neg terminal]
  obtain ⟨r, st, slot, -⟩ := sound.live_of_snapshot (findSnapshot_ok.mp known) (by rw [same.1]; simpa using terminal)
  have live : (h.registry.live[s]?).isSome := by
    have record : h.registry.live[s]? = some r := congrArg Slot.record slot
    rw [record]
    rfl
  by_cases foreign' : g.isForeign s target = true
  · obtain ⟨t, owner, other⟩ := isForeign_iff.mp foreign'
    have foreign : h.isForeign s target = true := isForeign_iff.mpr ⟨t, trails.owner_sub sound sound' owner, other⟩
    refine Lockstep.refuseIf rfl (foreign.trans foreign'.symm) trails fun passed => ?_
    rw [foreign] at passed
    cases passed
  by_cases foreign : h.isForeign s target = true
  · -- Only the sweep has forgotten whose handle it is.
    have dead : h.liveHandle target now = none := by
      cases handle : h.liveHandle target now with
      | none => rfl
      | some found =>
        obtain ⟨t, l⟩ := found
        obtain ⟨t', owner, other⟩ := isForeign_iff.mp foreign
        have mine := owner_of_liveLease sound ((liveHandle_some sound).mp handle)
        obtain rfl := Option.some.inj (owner.symm.trans mine)
        have held := (liveHandle_some sound').mp ((trails.liveHandle sound sound' target).trans handle)
        exact absurd (isForeign_iff.mpr ⟨t', owner_of_liveLease sound' held, other⟩) foreign'
    have passed : refuseIf (fun h => h.isForeign s target) LeaseRefusal.notAttached g = (.ok (), g) := by
      rw [refuseIf, if_neg foreign']
    rw [bind_of_error (show refuseIf (fun h => h.isForeign s target) LeaseRefusal.notAttached h = (.error .notAttached, h) by
      rw [refuseIf, if_pos foreign]), bind_of_ok passed]
    have unheld : g.liveLease s target now = none := by
      cases held : g.liveLease s target now with
      | none => rfl
      | some l =>
        obtain ⟨st, state, lease, -⟩ := liveLease_some.mp ((trails.liveLease s target).symm.trans held)
        rw [foreign_lease sound foreign state] at lease
        cases lease
    have gone : ¬ g.isExpiredLease s target now = true := by
      intro expired
      obtain ⟨st, l, state, lease, -⟩ := isExpiredLease_iff.mp (trails.isExpiredLease_sub expired)
      rw [foreign_lease sound foreign state] at lease
      cases lease
    have refused : (if (!authority.operator) = true ∧ authority.lease = some target then SessionHost.detachOwn s target authority y now
        else SessionHost.detachOther digest s target authority y now) g = (.error .notAttached, g) := by
      split_ifs with owns
      · unfold SessionHost.detachOwn
        rw [if_neg gone]
        refine bind_of_error ?_ _
        rw [ask_apply, actionableLease_eq sound', unheld]
        rfl
      · unfold SessionHost.detachOther
        refine bind_of_error ?_ _
        have other : ¬ authority.Owns target := by
          rintro ⟨consumer, lease⟩
          exact owns ⟨by rw [consumer]; rfl, lease⟩
        rw [ask_apply, trails.authorizeDetach sound sound', (strays live ⟨foreign, dead⟩).resolve_left other]
    rw [refused]
    exact .error rfl trails
  · refine Lockstep.refuseIf rfl ?_ trails fun _ => ?_
    · rw [Bool.eq_false_iff.mpr foreign, Bool.eq_false_iff.mpr foreign']
    · split_ifs with owns
      · have owner : authority.Owns target := ⟨by simpa using owns.1, owns.2⟩
        exact trails.detachOwn sound sound' paced owner fun expired => kept expired (.inl owner)
      · exact trails.detachOther sound sound' paced built fun operator controller expired => kept expired (.inr ⟨operator, controller⟩)

end Detach

end SessionHost

/-- The operations that check who acts, and whether a lease is expired, at the instant they are performed. -/
def Op.Timed : Op → Prop
  | .attachObserver _ | .claimController _ _ _ | .heartbeat _ | .recordResize _ | .transferControl _ _ _ _ | .abort _ _ _ _ => True
  | .detach _ _ authority => authority.Built
  | _ => False

/-- The operation can tell a host that has just swept from one that has not. -/
def Op.Betrays (digest : ControlToken → ControlTokenDigest) (h : SessionHost) (now : MonotonicMs) : Op → Prop
  | .attachObserver s | .claimController s _ _ => h.Redraws now ∨ h.Short s now
  | .detach s target authority =>
    h.Short s now ∨
      (h.isExpiredLease s target now = true ∧
        (authority.Owns target ∨ authority.operator = true ∧ h.isController s target = true)) ∨
      ((h.registry.live[s]?).isSome ∧ h.Strays s target now ∧ ¬ authority.Owns target ∧
        SessionHost.authorizeDetach digest s authority now h ≠ .error .notAttached)
  | .transferControl s _ _ _ | .abort s _ _ _ => h.Short s now
  | .recordResize a => ∃ s, h.leaseSessions[a]? = some s ∧ h.Short s now
  | _ => False

def verdict (answer : Except LeaseRefusal Answer) : Option LeaseRefusal :=
  match answer with
  | .ok _ => none
  | .error e => some e.unrevised

namespace SessionHost

variable {digest : ControlToken → ControlTokenDigest} {now : MonotonicMs} {h h' g g' : SessionHost} {s t : SessionId}

def standing (h : SessionHost) (s : SessionId) (now : MonotonicMs) : Option Standing :=
  h.sessions[s]?.map fun state => state.standing now

/-- The call is refused or not, and leaves the sessions, as it would right after a sweep. -/
def Unobserved (digest : ControlToken → ControlTokenDigest) (call : Call) (h : SessionHost) : Prop :=
  let swept := (expireDue call.now h).2
  verdict (perform digest call swept).1 = verdict (perform digest call h).1 ∧
    ∀ s, (perform digest call swept).2.standing s call.now = (perform digest call h).2.standing s call.now

theorem Trails.standing (trails : Trails now h g) (sound : h.Sound) (sound' : g.Sound) (s : SessionId) :
    g.standing s now = h.standing s now := by
  unfold SessionHost.standing
  cases state : h.sessions[s]? with
  | none => rw [trails.state_none state]
  | some st =>
    obtain ⟨st', state', lapsed⟩ := trails.state state
    rw [state', Option.map_some, Option.map_some, SessionLeaseState.standing, SessionLeaseState.standing, lapsed.unexpired,
      trails.liveController sound sound' state state', lapsed.token, lapsed.stop, lapsed.cancel]

theorem Tandem.answer {α β : Type} {V : α → β → Prop} {m : HostM α} {m' : HostM β} {f : α → Answer} {f' : β → Answer}
    (tandem : Tandem now V (m h) (m' g)) :
    Tandem now Any ((m >>= fun x => pure (f x)) h) ((m' >>= fun x => pure (f' x)) g) :=
  Lockstep.bind tandem fun _ _ _ _ _ _ _ trails => .ok trivial trails

theorem perform_tandem {op : Op} (sound : h.Sound) (timed : op.Timed) (quiet : ¬ op.Betrays digest h now) :
    Tandem now Any (perform digest ⟨op, now⟩ h) (perform digest ⟨op, now⟩ (expireDue now h).2) := by
  have trails : Trails now h (expireDue now h).2 := expireDue_trails sound now
  have sound' : (expireDue now h).2.Sound := (expireDue_spec sound now).2.1.sound sound
  have level {s : SessionId} (enough : ¬ h.Short s now) : Level now s h (expireDue now h).2 := expireDue_level sound enough
  have paced {s : SessionId} (enough : ¬ h.Short s now) : Paced s h (expireDue now h).2 := (level enough).paced sound sound'
  cases op with
  | attachObserver s =>
    obtain ⟨fresh, enough⟩ := not_or.mp quiet
    exact (trails.attachObserver sound sound' enough (level enough) fresh).answer
  | claimController s generation token =>
    obtain ⟨fresh, enough⟩ := not_or.mp quiet
    exact (trails.claimController sound sound' (level enough) fresh).answer
  | heartbeat a => exact (trails.heartbeat sound sound' a).answer
  | detach s target authority =>
    obtain ⟨enough, rest⟩ := not_or.mp quiet
    obtain ⟨kept, strays⟩ := not_or.mp rest
    refine (trails.detach sound sound' (paced enough) timed (fun expired own => kept ⟨expired, own⟩) fun live stray => ?_).answer
    by_contra betrays
    obtain ⟨other, allowed⟩ := not_or.mp betrays
    exact strays ⟨live, stray, other, allowed⟩
  | recordResize a =>
    refine (trails.recordResize sound sound' a fun s owner => paced fun short => ?_).answer
    exact quiet ⟨s, owner, short⟩
  | transferControl s generation authority target => exact (trails.transferControl sound sound' (level quiet)).answer
  | abort s generation authority cause => exact (trails.abort sound sound' (paced quiet)).answer
  | _ => exact timed.elim

theorem unobserved_of_tandem {op : Op} (sound : h.Sound)
    (tandem : Tandem now Any (perform digest ⟨op, now⟩ h) (perform digest ⟨op, now⟩ (expireDue now h).2)) :
    Unobserved digest ⟨op, now⟩ h := by
  have sound' : (expireDue now h).2.Sound := (expireDue_spec sound now).2.1.sound sound
  have after : (perform digest ⟨op, now⟩ h).2.Sound := (perform_moves sound rfl).sound
  have after' : (perform digest ⟨op, now⟩ (expireDue now h).2).2.Sound := (perform_moves sound' rfl).sound
  unfold Unobserved
  dsimp only
  generalize perform digest ⟨op, now⟩ h = x, perform digest ⟨op, now⟩ (expireDue now h).2 = y at tandem after after'
  cases tandem with
  | ok value trails => exact ⟨rfl, trails.standing after after'⟩
  | error refusal trails => exact ⟨congrArg some (Eq.symm refusal), trails.standing after after'⟩

end SessionHost

end Bitty.Daemon
