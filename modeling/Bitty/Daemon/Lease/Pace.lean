import Bitty.Daemon.Lease.Trail

/-! The revisions that a sweep uses, and those it leaves to the operation after it. -/

namespace Bitty.Daemon

open Std (ExtTreeMap)
open Mutation

namespace SessionLeaseState

variable {now : MonotonicMs} {s s' s'' : SessionLeaseState} {a : AttachId} {l : Lease}

def lapsing (s : SessionLeaseState) (now : MonotonicMs) : Nat := (s.leases.filter fun _ lease => lease.isExpiredAt now).size

theorem lapsing_removeLease (here : s.leases[a]? = some l) (expired : l.isExpiredAt now = true) :
    (s.removeLease a).lapsing now + 1 = s.lapsing now := by
  have inside : (s.leases.filter fun _ lease => lease.isExpiredAt now)[a]? = some l := by
    rw [TreeMap.find_filter, here]
    exact Option.filter_some_pos expired
  have size := TreeMap.size_erase_of_find _ a l inside
  rw [← TreeMap.filter_erase] at size
  exact size

theorem lapsing_pos (here : s.leases[a]? = some l) (expired : l.isExpiredAt now = true) : 0 < s.lapsing now := by
  have counted := lapsing_removeLease here expired
  omega

theorem Lapsed.meet (first : s.Lapsed now s') (second : s.Lapsed now s'')
    (swept : ∀ (a : AttachId) l, s'.leases[a]? = some l → l.isExpiredAt now = false)
    (swept' : ∀ (a : AttachId) l, s''.leases[a]? = some l → l.isExpiredAt now = false) : s'.Lapsed now s'' where
  token := second.token.trans first.token.symm
  claimed := second.claimed.trans first.claimed.symm
  stop := second.stop.trans first.stop.symm
  cancel := second.cancel.trans first.cancel.symm
  leases a := by
    refine .inl (Option.ext fun l => ⟨fun here => ?_, fun here => ?_⟩)
    · exact first.kept (second.sub here) (swept' a l here)
    · exact second.kept (first.sub here) (swept a l here)

theorem Lapsed.without (lapsed : s.Lapsed now s') (gone : s'.leases[a]? = none) : (s.removeLease a).Lapsed now s' where
  token := lapsed.token
  claimed := lapsed.claimed
  stop := lapsed.stop
  cancel := lapsed.cancel
  leases b := by
    rw [removeLease, TreeMap.find_erase]
    split_ifs with same
    · subst same
      exact .inl gone
    · exact lapsed.leases b

end SessionLeaseState

def SessionRecord.Free (r : SessionRecord) : Prop := r.stateRevision < U64_MAX ∧ r.attachCount < U16_MAX

namespace SessionHost

variable {digest : ControlToken → ControlTokenDigest} {now : MonotonicMs} {h h' h₁ g g' : SessionHost} {s t : SessionId}
  {a : AttachId} {r r' : SessionRecord} {st st' : SessionLeaseState} {l : Lease} {bound : Nat}

section Budget

def Within (h : SessionHost) (s : SessionId) (now : MonotonicMs) (bound : Nat) : Prop :=
  ∀ r st, h.registry.live[s]? = some r → h.sessions[s]? = some st → r.stateRevision + st.lapsing now ≤ bound

theorem Remnant.within (remnant : Remnant now h h') (within : h.Within s now bound) : h'.Within s now bound := by
  cases remnant with
  | drew own registry less => exact within
  | @due t a l st r r' state lease expired record detached =>
    intro r₁ st₁ record₁ state₁
    have after := slot_forgetLease (h := h.putRecord t r') (s := t) (a := a) (t := s)
    rw [slot_putRecord] at after
    have there : ((h.putRecord t r').forgetLease t a).slot s = ⟨some r₁, h.registry.retained[s]?, some st₁⟩ := by
      simp only [SessionHost.slot, record₁, state₁]
      rfl
    rw [there] at after
    by_cases same : t = s
    · subst same
      simp only [if_true, slot, state, Option.map_some, Slot.mk.injEq, Option.some.injEq, true_and] at after
      obtain ⟨rfl, rfl⟩ := after
      have before := within r st record state
      have counted := SessionLeaseState.lapsing_removeLease lease expired
      obtain ⟨-, ⟨-, rfl⟩ | ⟨-, -, rfl⟩⟩ := SessionRecord.detach_ok detached
      · simp only
        omega
      · simp only
        omega
    · rw [if_neg same, if_neg same] at after
      have record₂ : h.registry.live[s]? = some r₁ := (congrArg Slot.record after).symm
      have state₂ : h.sessions[s]? = some st₁ := (congrArg Slot.state after).symm
      exact within r₁ st₁ record₂ state₂

theorem Whole.within (whole : Whole now h h') (within : h.Within s now bound) : h'.Within s now bound := by
  induction whole with
  | refl => exact within
  | tail earlier remnant ih => exact remnant.within ih

theorem Whole.untouched (whole : Whole now h h') (swept : h.Swept s now) : h'.slot s = h.slot s := by
  induction whole with
  | refl => rfl
  | @tail h₁ h₂ earlier remnant ih =>
    rw [← ih]
    cases remnant with
    | drew own registry less => rfl
    | @due t a l st r r' state lease expired record detached =>
      rw [slot_forgetLease, slot_putRecord]
      by_cases same : t = s
      · subst same
        have live := Swept.whole swept earlier st state a l lease
        rw [live] at expired
        cases expired
      · rw [if_neg same, if_neg same]

end Budget

/-- The session has expired leases, and not a revision more than a sweep of them takes. -/
def Short (h : SessionHost) (s : SessionId) (now : MonotonicMs) : Prop :=
  ∃ r st, h.registry.live[s]? = some r ∧ h.sessions[s]? = some st ∧ 0 < st.lapsing now ∧
    U64_MAX ≤ r.stateRevision + st.lapsing now

theorem free_of_room (sound : h.Sound) (record : h.registry.live[s]? = some r) (room : r.stateRevision < U64_MAX) : r.Free := by
  refine ⟨room, ?_⟩
  obtain ⟨st, live⟩ := sound.live_slot record
  have slots := sound.slots s
  rw [live] at slots
  have size := (slots.table st rfl).size_le
  have limit := h.limits.attaches_le
  have counted := slots.counted r st rfl rfl
  simp only [MAX_ATTACHES_PER_SESSION_SYSTEM_MAX, U16_MAX] at *
  omega

/-- The records of a session are the same in both hosts, or both have room for another change. -/
def Paced (s : SessionId) (h g : SessionHost) : Prop :=
  ∀ r r', h.registry.live[s]? = some r → g.registry.live[s]? = some r' → r = r' ∨ r.Free ∧ r'.Free

theorem paced_of_slot (same : g.slot s = h.slot s) : Paced s h g := by
  intro r r' record record'
  have records : some r' = some r := record'.symm.trans ((congrArg Slot.record same).trans record)
  exact .inl (Option.some.inj records).symm

/-- A sweep leaves a session without expired leases, and room for another change where it changed something. -/
structure Level (now : MonotonicMs) (s : SessionId) (h g : SessionHost) : Prop where
  swept : g.Swept s now
  room : g.slot s = h.slot s ∨
    (∀ r, h.registry.live[s]? = some r → r.stateRevision + 1 < U64_MAX) ∧
      ∀ r', g.registry.live[s]? = some r' → r'.stateRevision < U64_MAX

theorem level_of_whole (sound : h.Sound) (enough : ¬ h.Short s now) (whole : Whole now h g)
    (done : g.Exhausted s ∨ g.Swept s now) : Level now s h g := by
  by_cases swept : h.Swept s now
  · exact ⟨swept.whole whole, .inl (whole.untouched swept)⟩
  · -- Some lease is expired, so the session is live.
    simp only [Swept, not_forall] at swept
    obtain ⟨st, state, a, l, lease, expired⟩ := swept
    obtain ⟨r, live⟩ := sound.live_of_lease state lease
    have record : h.registry.live[s]? = some r := congrArg Slot.record live
    have positive := SessionLeaseState.lapsing_pos lease (by simpa using expired)
    have room : r.stateRevision + st.lapsing now < U64_MAX := by
      by_contra full
      exact enough ⟨r, st, record, state, positive, by omega⟩
    have within : h.Within s now (r.stateRevision + st.lapsing now) := by
      intro r₁ st₁ record₁ state₁
      obtain rfl := Option.some.inj (record.symm.trans record₁)
      obtain rfl := Option.some.inj (state.symm.trans state₁)
      exact Nat.le_refl _
    have left (r' : SessionRecord) (record' : g.registry.live[s]? = some r') : r'.stateRevision < U64_MAX := by
      obtain ⟨st', live'⟩ := (whole.sound sound).live_slot record'
      have used := whole.within within r' st' record' (congrArg Slot.state live')
      omega
    refine ⟨done.resolve_left ?_, .inr ⟨?_, left⟩⟩
    · rintro ⟨r', record', full⟩
      have below := left r' record'
      omega
    · intro r₁ record₁
      obtain rfl := Option.some.inj (record.symm.trans record₁)
      omega

theorem Level.paced (level : Level now s h g) (sound : h.Sound) (sound' : g.Sound) : Paced s h g := by
  rcases level.room with same | ⟨room, room'⟩
  · exact paced_of_slot same
  · intro r r' record record'
    have below := room r record
    exact .inr ⟨free_of_room sound record (by omega), free_of_room sound' record' (room' r' record')⟩

section Frame

def Framed (s : SessionId) (h h' : SessionHost) : Prop := h'.entropy = h.entropy ∧ ∀ t, s ≠ t → h'.slot t = h.slot t

theorem framed_trans (a b c : SessionHost) (first : Framed s a b) (second : Framed s b c) : Framed s a c :=
  ⟨second.1.trans first.1, fun t other => (second.2 t other).trans (first.2 t other)⟩

theorem framed_refl (s : SessionId) (h : SessionHost) : Framed s h h := ⟨rfl, fun _ _ => rfl⟩

theorem framed_detach (s : SessionId) (now : MonotonicMs) : (onRegistry (SessionRegistry.detach s now)).Relates (Framed s) := by
  intro h
  cases run : onRegistry (SessionRegistry.detach s now) h with
  | mk answer after =>
    rcases onRegistry_cases run with ⟨e, -, rfl, -⟩ | ⟨r, r', -, -, -, rfl⟩
    · exact framed_refl s _
    · refine ⟨rfl, fun t other => ?_⟩
      rw [slot_putRecord, if_neg other]

theorem framed_forgetLease (s : SessionId) (a : AttachId) (h : SessionHost) : Framed s h (h.forgetLease s a) := by
  refine ⟨rfl, fun t other => ?_⟩
  rw [slot_forgetLease, if_neg other]

theorem framed_sweepLeases (s : SessionId) (now : MonotonicMs) (due : List Lease) : (sweepLeases s now due).Relates (Framed s) := by
  induction due with
  | nil => exact framed_refl s
  | cons l rest ih =>
    unfold sweepLeases
    refine Relates.bind framed_trans (framed_refl s) fun present => ?_
    split_ifs
    · refine Relates.bind framed_trans (fun h => framed_detach s now h) fun detached => ?_
      split
      · exact ih
      · exact Relates.bind framed_trans (framed_forgetLease s _) fun _ => Relates.bind framed_trans ih fun _ => framed_refl s
    · exact ih

theorem framed_sweepSession (s : SessionId) (now : MonotonicMs) : (sweepSession s now).Relates (Framed s) := by
  unfold sweepSession
  exact Relates.bind framed_trans (framed_refl s) fun due => framed_sweepLeases s now due

theorem sweepSessions_entropy (now : MonotonicMs) (ids : List SessionId) :
    (sweepSessions now ids).Relates fun h h' => h'.entropy = h.entropy := by
  induction ids with
  | nil => exact fun _ => rfl
  | cons s rest ih =>
    unfold sweepSessions
    refine Relates.bind (fun a b c first second => second.trans first) (fun h => (framed_sweepSession s now h).1) fun _ => ?_
    exact Relates.bind (fun a b c first second => second.trans first) ih fun _ _ => rfl

end Frame

theorem expireDue_trails (sound : h.Sound) (now : MonotonicMs) : Trails now h (expireDue now h).2 where
  slots s := ((expireDue_spec sound now).2.1.lapsed s).trails
  entropy := by
    have swept := sweepSessions_entropy now h.sessions.keys h
    unfold expireDue
    rw [read_bind]
    exact swept
  limits := (expireDue_spec sound now).2.1.limits

theorem expireDue_level (sound : h.Sound) (enough : ¬ h.Short s now) : Level now s h (expireDue now h).2 :=
  level_of_whole sound enough (expireDue_spec sound now).2.1 ((expireDue_spec sound now).2.2 s)

end SessionHost

end Bitty.Daemon
