import Bitty.Daemon.Lease.Parts

/-! What a refused operation leaves behind: drawn entropy, and the detach of leases whose time is over. -/

namespace Bitty.Daemon

open Std (ExtTreeMap)

def SessionRecord.Aged (r r' : SessionRecord) : Prop :=
  r.stateRevision ≤ r'.stateRevision ∧
    r' = { r with
      stateRevision := r'.stateRevision
      attachCount := r'.attachCount
      stateChangedAt := r'.stateChangedAt
      lastSeen := r'.lastSeen }

namespace SessionRecord

variable {r r' r'' : SessionRecord} {now : MonotonicMs}

theorem Aged.refl (r : SessionRecord) : r.Aged r := ⟨Nat.le_refl _, rfl⟩

theorem Aged.trans (first : r.Aged r') (second : r'.Aged r'') : r.Aged r'' := by
  refine ⟨Nat.le_trans first.1 second.1, ?_⟩
  have eq := second.2
  rw [first.2] at eq
  exact eq

theorem aged_detach (detached : r.detach now = .ok r') : r.Aged r' := by
  obtain ⟨-, ⟨-, rfl⟩ | ⟨-, -, rfl⟩⟩ := detach_ok detached
  · exact ⟨Nat.le_refl _, rfl⟩
  · exact ⟨Nat.le_succ _, rfl⟩

theorem Aged.state (aged : r.Aged r') : r'.state = r.state := by rw [aged.2]

end SessionRecord

structure SessionLeaseState.Lapsed (now : MonotonicMs) (s s' : SessionLeaseState) : Prop where
  token : s'.token = s.token
  claimed : s'.claimed = s.claimed
  stop : s'.stop = s.stop
  cancel : s'.cancel = s.cancel
  leases : ∀ a : AttachId, s'.leases[a]? = s.leases[a]? ∨
    s'.leases[a]? = none ∧ ∃ l : Lease, s.leases[a]? = some l ∧ l.isExpiredAt now = true

namespace SessionLeaseState

variable {now : MonotonicMs} {s s' s'' : SessionLeaseState} {a : AttachId} {l : Lease}

theorem Lapsed.refl (s : SessionLeaseState) : s.Lapsed now s := ⟨rfl, rfl, rfl, rfl, fun _ => .inl rfl⟩

theorem Lapsed.sub (lapsed : s.Lapsed now s') (here : s'.leases[a]? = some l) : s.leases[a]? = some l := by
  rcases lapsed.leases a with same | ⟨gone, -⟩
  · rw [← same]
    exact here
  · rw [gone] at here
    cases here

theorem Lapsed.kept (lapsed : s.Lapsed now s') (here : s.leases[a]? = some l) (live : l.isExpiredAt now = false) :
    s'.leases[a]? = some l := by
  rcases lapsed.leases a with same | ⟨-, l', found, expired⟩
  · rw [same]
    exact here
  · obtain rfl := Option.some.inj (here.symm.trans found)
    rw [live] at expired
    cases expired

theorem Lapsed.trans (first : s.Lapsed now s') (second : s'.Lapsed now s'') : s.Lapsed now s'' where
  token := second.token.trans first.token
  claimed := second.claimed.trans first.claimed
  stop := second.stop.trans first.stop
  cancel := second.cancel.trans first.cancel
  leases a := by
    rcases second.leases a with same | ⟨gone, l, here, expired⟩
    · rw [same]
      exact first.leases a
    · exact .inr ⟨gone, l, first.sub here, expired⟩

theorem lapsed_removeLease (here : s.leases[a]? = some l) (expired : l.isExpiredAt now = true) :
    s.Lapsed now (s.removeLease a) where
  token := rfl
  claimed := rfl
  stop := rfl
  cancel := rfl
  leases b := by
    rw [removeLease, TreeMap.find_erase]
    split_ifs with same
    · subst same
      exact .inr ⟨rfl, l, here, expired⟩
    · exact .inl rfl

end SessionLeaseState

namespace Slot

structure Lapsed (now : MonotonicMs) (x y : Slot) : Prop where
  retained : y.retained = x.retained
  record : Option.Rel SessionRecord.Aged x.record y.record
  state : Option.Rel (SessionLeaseState.Lapsed now) x.state y.state

variable {now : MonotonicMs} {x y z : Slot} {r : SessionRecord} {s : SessionLeaseState}

theorem Lapsed.refl (x : Slot) : x.Lapsed now x where
  retained := rfl
  record := by
    cases x.record with
    | none => exact .none
    | some r => exact .some (.refl r)
  state := by
    cases x.state with
    | none => exact .none
    | some s => exact .some (.refl s)

theorem Lapsed.trans (first : x.Lapsed now y) (second : y.Lapsed now z) : x.Lapsed now z where
  retained := second.retained.trans first.retained
  record := by
    obtain ⟨xr, xt, xs⟩ := x
    obtain ⟨yr, yt, ys⟩ := y
    obtain ⟨zr, zt, zs⟩ := z
    obtain ⟨-, record, -⟩ := first
    obtain ⟨-, record', -⟩ := second
    cases record with
    | none => exact record'
    | some aged =>
      cases record' with
      | some aged' => exact .some (aged.trans aged')
  state := by
    obtain ⟨xr, xt, xs⟩ := x
    obtain ⟨yr, yt, ys⟩ := y
    obtain ⟨zr, zt, zs⟩ := z
    obtain ⟨-, -, state⟩ := first
    obtain ⟨-, -, state'⟩ := second
    cases state with
    | none => exact state'
    | some lapsed =>
      cases state' with
      | some lapsed' => exact .some (lapsed.trans lapsed')

end Slot

namespace SessionHost

open Mutation

/-- One thing that a refused operation may leave behind. -/
inductive Remnant (now : MonotonicMs) (h : SessionHost) : SessionHost → Prop
  | drew (own registry : Entropy) (less : own.fills32 <:+ h.entropy.fills32) :
      Remnant now h { h with entropy := own, registry := { h.registry with entropy := registry } }
  | due {s : SessionId} {a : AttachId} {l : Lease} {st : SessionLeaseState} {r r' : SessionRecord}
      (state : h.sessions[s]? = some st) (lease : st.leases[a]? = some l) (expired : l.isExpiredAt now = true)
      (record : h.registry.live[s]? = some r) (detached : r.detach now = .ok r') :
      Remnant now h ((h.putRecord s r').forgetLease s a)

def Whole (now : MonotonicMs) : SessionHost → SessionHost → Prop := Relation.ReflTransGen (Remnant now)

variable {h h' h'' : SessionHost} {s t : SessionId} {a : AttachId} {l : Lease} {now : MonotonicMs} {r r' : SessionRecord}
  {st : SessionLeaseState} {digest : ControlToken → ControlTokenDigest}

theorem Whole.refl (h : SessionHost) : Whole now h h := Relation.ReflTransGen.refl

theorem Whole.trans (first : Whole now h h') (second : Whole now h' h'') : Whole now h h'' :=
  Relation.ReflTransGen.trans first second

theorem whole_drew {e : Entropy} (less : e.fills32 <:+ h.entropy.fills32) : Whole now h { h with entropy := e } :=
  .single (.drew e h.registry.entropy less)

theorem whole_drewRegistry (e : Entropy) : Whole now h { h with registry := { h.registry with entropy := e } } :=
  .single (.drew h.entropy e List.suffix_rfl)

theorem Remnant.moves (sound : h.Sound) (remnant : Remnant now h h') : Moves digest silent h h' := by
  cases remnant with
  | drew own registry less => exact .same sound (fun _ => rfl) rfl rfl rfl less
  | due state lease expired record detached =>
    obtain ⟨st', live⟩ := sound.live_slot record
    obtain rfl := Option.some.inj (state.symm.trans (congrArg Slot.state live))
    exact drop_moves sound live lease detached

theorem Whole.moves (sound : h.Sound) (whole : Whole now h h') : Moves digest silent h h' := by
  induction whole with
  | refl => exact .refl sound
  | tail earlier remnant ih => exact ih.trans_silent (remnant.moves ih.sound)

theorem Whole.sound (sound : h.Sound) (whole : Whole now h h') : h'.Sound := by
  have moves : Moves (fun token => ⟨token.bytes⟩) silent h h' := whole.moves sound
  exact moves.sound

theorem Remnant.lapsed (remnant : Remnant now h h') (t : SessionId) : (h.slot t).Lapsed now (h'.slot t) := by
  cases remnant with
  | drew own registry less => exact .refl _
  | @due s a l st r r' state lease expired record detached =>
    rw [slot_forgetLease, slot_putRecord]
    split_ifs with same
    · subst same
      refine ⟨rfl, ?_, ?_⟩
      · simp only [slot, record]
        exact .some (SessionRecord.aged_detach detached)
      · simp only [slot, state]
        exact .some (SessionLeaseState.lapsed_removeLease lease expired)
    · exact .refl _

theorem Whole.lapsed (whole : Whole now h h') (t : SessionId) : (h.slot t).Lapsed now (h'.slot t) := by
  induction whole with
  | refl => exact .refl _
  | tail earlier remnant ih => exact ih.trans (remnant.lapsed t)

theorem Whole.live_of_sessions (whole : Whole now h h') (same : h'.sessions = h.sessions) :
    h'.registry.live = h.registry.live := by
  induction whole with
  | refl => rfl
  | @tail h₁ h₂ earlier remnant ih =>
    cases remnant with
    | drew own registry less => exact ih same
    | @due s a l st r r' state lease expired record detached =>
      have lapsed := (Whole.lapsed earlier s).state
      have kept := congrArg Slot.state (slot_forgetLease (h := h₁.putRecord s r') (s := s) (a := a) (t := s))
      rw [if_pos rfl] at kept
      have gone : h.sessions[s]? = some (st.removeLease a) := by
        rw [← same]
        refine kept.trans ?_
        have before : ((h₁.putRecord s r').slot s).state = some st := state
        rw [before]
        rfl
      simp only [slot, gone, state] at lapsed
      cases lapsed with
      | some lapsed =>
        have absent : (st.removeLease a).leases[a]? = none := by
          rw [SessionLeaseState.removeLease, TreeMap.find_erase, if_pos rfl]
        rw [lapsed.sub lease] at absent
        cases absent

theorem Whole.limits (whole : Whole now h h') : h'.limits = h.limits := by
  induction whole with
  | refl => rfl
  | tail earlier remnant ih =>
    rw [← ih]
    cases remnant with
    | drew own registry less => rfl
    | due state lease expired record detached => rfl

end SessionHost

end Bitty.Daemon

/-! The sweep of a session: it leaves a whole host, and without expired leases while the revision has room. -/

namespace Bitty.Daemon

open Std (ExtTreeMap)

namespace SessionHost

open Mutation

variable {h h' h₁ : SessionHost} {s t : SessionId} {a : AttachId} {l : Lease} {now : MonotonicMs} {r r' : SessionRecord}
  {st st' : SessionLeaseState} {digest : ControlToken → ControlTokenDigest}

def AllDue (h : SessionHost) (s : SessionId) (now : MonotonicMs) (due : List Lease) : Prop :=
  ∀ l ∈ due, ∀ st l', h.sessions[s]? = some st → st.leases[l.attachId]? = some l' → l'.isExpiredAt now = true

def Exhausted (h : SessionHost) (s : SessionId) : Prop :=
  ∃ r, h.registry.live[s]? = some r ∧ U64_MAX ≤ r.stateRevision

theorem Whole.state (whole : Whole now h h') (here : h'.sessions[s]? = some st') :
    ∃ st, h.sessions[s]? = some st ∧ st.Lapsed now st' := by
  have state := (whole.lapsed s).state
  simp only [slot] at state
  rw [here] at state
  generalize h.sessions[s]? = before at state
  cases state with
  | some lapsed => exact ⟨_, rfl, lapsed⟩

theorem Whole.record (whole : Whole now h h') (here : h.registry.live[s]? = some r) :
    ∃ r', h'.registry.live[s]? = some r' ∧ r.Aged r' := by
  have record := (whole.lapsed s).record
  simp only [slot] at record
  rw [here] at record
  generalize h'.registry.live[s]? = after at record
  cases record with
  | some aged => exact ⟨_, rfl, aged⟩

theorem AllDue.whole {due : List Lease} (all : h.AllDue s now due) (whole : Whole now h h') : h'.AllDue s now due := by
  intro l member st' l' state lease
  obtain ⟨st, before, lapsed⟩ := whole.state state
  exact all l member st l' before (lapsed.sub lease)

theorem Exhausted.whole (spent : h.Exhausted s) (whole : Whole now h h') : h'.Exhausted s := by
  obtain ⟨r, record, full⟩ := spent
  obtain ⟨r', record', aged⟩ := whole.record record
  exact ⟨r', record', Nat.le_trans full aged.1⟩

theorem Whole.gone (whole : Whole now h h') (state : h'.sessions[s]? = some st')
    (gone : ∀ st, h.sessions[s]? = some st → st.leases[a]? = none) : st'.leases[a]? = none := by
  obtain ⟨st, before, lapsed⟩ := whole.state state
  rcases lapsed.leases a with same | ⟨none, -⟩
  · rw [same]
    exact gone st before
  · exact none

theorem gone_forgetLease (state : ((h.putRecord s r').forgetLease s a).sessions[s]? = some st) : st.leases[a]? = none := by
  have forgot := slot_forgetLease (h := h.putRecord s r') (s := s) (a := a) (t := s)
  rw [if_pos rfl] at forgot
  have after : some st = ((h.putRecord s r').slot s).state.map (·.removeLease a) := state.symm.trans (congrArg Slot.state forgot)
  obtain ⟨before, -, rfl⟩ := Option.map_eq_some_iff.mp after.symm
  rw [SessionLeaseState.removeLease, TreeMap.find_erase, if_pos rfl]

theorem sweepLeases_cons {rest : List Lease} (sound : h.Sound) (all : h.AllDue s now (l :: rest)) :
    ∃ h₁, Whole now h h₁ ∧
      (h₁.Exhausted s ∨ ∀ st, h₁.sessions[s]? = some st → st.leases[l.attachId]? = none) ∧
      (sweepLeases s now (l :: rest) h).2 = (sweepLeases s now rest h₁).2 ∧
      ∀ expired, (sweepLeases s now rest h₁).1 = .ok expired →
        ∃ expiries, (sweepLeases s now (l :: rest) h).1 = .ok expiries := by
  rw [sweepLeases, read_bind]
  cases present : h.sessions[s]?.any fun state => state.leases.contains l.attachId with
  | false =>
    refine ⟨h, .refl h, .inr fun st state => ?_, rfl, fun expired answer => ⟨expired, answer⟩⟩
    rw [state, Option.any_some] at present
    refine ExtTreeMap.getElem?_eq_none fun inside => ?_
    rw [ExtTreeMap.mem_iff_contains, present] at inside
    cases inside
  | true =>
    rw [if_pos rfl]
    obtain ⟨st, state, holds⟩ := (Option.any_eq_true _ _).mp present
    obtain ⟨l', lease⟩ := (TreeMap.mem_iff _ _).mp (ExtTreeMap.mem_iff_contains.mpr holds)
    have expired : l'.isExpiredAt now = true := all l List.mem_cons_self st l' state lease
    obtain ⟨r, live⟩ := sound.live_of_lease state lease
    have record : h.registry.live[s]? = some r := congrArg Slot.record live
    cases run : onRegistry (SessionRegistry.detach s now) h with
    | mk answer after =>
      have tried : attempt (onRegistry (SessionRegistry.detach s now)) h = (.ok answer.toOption, after) := by
        unfold attempt
        rw [run]
      rw [bind_of_ok tried]
      rcases onRegistry_cases run with ⟨e, rfl, rfl, refused⟩ | ⟨r₁, r', record', detached, rfl, rfl⟩
      · obtain ⟨refusal, overflow, -⟩ := refused r record
        have full := (SessionRecord.detach_error ((sound.slots s).alive r record) overflow).2.1
        exact ⟨after, .refl after, .inl ⟨r, record, full⟩, rfl, fun expired answer => ⟨expired, answer⟩⟩
      · refine ⟨(h.putRecord s r').forgetLease s l.attachId, .single (.due state lease expired record' detached),
          .inr fun st' state' => gone_forgetLease state', ?_, fun expiries answer => ?_⟩
        · simp only [Except.toOption, change_bind]
          have told := bind_pure_apply (sweepLeases s now rest)
            (fun expired => (⟨s, l.attachId, l.role, r'.snapshot.stateRevision⟩ : LeaseExpiry) :: expired)
            ((h.putRecord s r').forgetLease s l.attachId)
          exact (congrArg Prod.snd told).trans rfl
        · simp only [Except.toOption, change_bind]
          have run' : sweepLeases s now rest ((h.putRecord s r').forgetLease s l.attachId) = (.ok expiries, _) :=
            Prod.ext answer rfl
          rw [bind_of_ok run']
          exact ⟨_, rfl⟩

theorem sweepLeases_spec {due : List Lease} (sound : h.Sound) (all : h.AllDue s now due) :
    (∃ expired, (sweepLeases s now due h).1 = .ok expired) ∧ Whole now h (sweepLeases s now due h).2 ∧
      ((sweepLeases s now due h).2.Exhausted s ∨
        ∀ l ∈ due, ∀ st, (sweepLeases s now due h).2.sessions[s]? = some st → st.leases[l.attachId]? = none) := by
  induction due generalizing h with
  | nil => exact ⟨⟨[], rfl⟩, .refl h, .inr (by simp)⟩
  | cons l rest ih =>
    obtain ⟨h₁, first, gone, same, answer⟩ := sweepLeases_cons sound all
    have later : h₁.AllDue s now rest := fun l' member => all.whole first l' (List.mem_cons_of_mem _ member)
    have sound₁ : h₁.Sound := first.sound sound
    obtain ⟨⟨expired, answered⟩, whole, swept⟩ := ih sound₁ later
    refine ⟨answer expired answered, ?_, ?_⟩
    · rw [same]
      exact first.trans whole
    · rw [same]
      rcases gone with spent | absent
      · exact .inl (spent.whole whole)
      · refine swept.imp_right fun others l' member st state => ?_
        rcases List.mem_cons.mp member with rfl | inside
        · exact whole.gone state absent
        · exact others l' inside st state

theorem mem_dueLeases (state : h.sessions[s]? = some st) :
    l ∈ h.dueLeases s now ↔ (∃ a : AttachId, st.leases[a]? = some l) ∧ l.isExpiredAt now = true := by
  have members : l ∈ st.leases.toList.map Prod.snd ↔ ∃ a : AttachId, st.leases[a]? = some l := by
    rw [List.mem_map]
    constructor
    · rintro ⟨⟨a, l'⟩, inside, rfl⟩
      exact ⟨a, ExtTreeMap.mem_toList_iff_getElem?_eq_some.mp inside⟩
    · rintro ⟨a, here⟩
      exact ⟨(a, l), ExtTreeMap.mem_toList_iff_getElem?_eq_some.mpr here, rfl⟩
  unfold dueLeases
  rw [state, Option.map_some, Option.getD_some, List.mem_filter, members]

theorem dueLeases_allDue (sound : h.Sound) (s : SessionId) (now : MonotonicMs) : h.AllDue s now (h.dueLeases s now) := by
  intro l member st l' state lease
  obtain ⟨⟨a, here⟩, expired⟩ := (mem_dueLeases state).mp member
  have key := ((sound.slots s).table st state).keyed a l here
  rw [key, here] at lease
  obtain rfl := Option.some.inj lease
  exact expired

def Swept (h : SessionHost) (s : SessionId) (now : MonotonicMs) : Prop :=
  ∀ st, h.sessions[s]? = some st → ∀ (a : AttachId) l, st.leases[a]? = some l → l.isExpiredAt now = false

theorem Swept.whole (swept : h.Swept s now) (whole : Whole now h h') : h'.Swept s now := by
  intro st' state' a l lease
  obtain ⟨st, state, lapsed⟩ := whole.state state'
  exact swept st state a l (lapsed.sub lease)

theorem sweepSession_spec (sound : h.Sound) (s : SessionId) (now : MonotonicMs) :
    (∃ expired, (sweepSession s now h).1 = .ok expired) ∧ Whole now h (sweepSession s now h).2 ∧
      ((sweepSession s now h).2.Exhausted s ∨ (sweepSession s now h).2.Swept s now) := by
  unfold sweepSession
  rw [read_bind]
  obtain ⟨answer, whole, swept⟩ := sweepLeases_spec sound (dueLeases_allDue sound s now)
  refine ⟨answer, whole, swept.imp_right fun gone st' state' a l lease => ?_⟩
  obtain ⟨st, state, lapsed⟩ := whole.state state'
  by_contra expired
  have before := lapsed.sub lease
  have key := ((sound.slots s).table st state).keyed a l before
  have due : l ∈ h.dueLeases s now := (mem_dueLeases state).mpr ⟨⟨a, before⟩, by simpa using expired⟩
  have none := gone l due st' state'
  rw [key, lease] at none
  cases none

theorem sweepSessions_spec (sound : h.Sound) (ids : List SessionId) (now : MonotonicMs) :
    (∃ expired, (sweepSessions now ids h).1 = .ok expired) ∧ Whole now h (sweepSessions now ids h).2 ∧
      ∀ s ∈ ids, (sweepSessions now ids h).2.Exhausted s ∨ (sweepSessions now ids h).2.Swept s now := by
  induction ids generalizing h with
  | nil => exact ⟨⟨[], rfl⟩, .refl h, by simp⟩
  | cons s rest ih =>
    obtain ⟨⟨expired, answer⟩, whole, swept⟩ := sweepSession_spec sound s now
    obtain ⟨⟨later, answered⟩, whole', others⟩ := ih (whole.sound sound)
    have first : sweepSession s now h = (.ok expired, (sweepSession s now h).2) := Prod.ext answer rfl
    have second : sweepSessions now rest (sweepSession s now h).2 =
        (.ok later, (sweepSessions now rest (sweepSession s now h).2).2) := Prod.ext answered rfl
    rw [sweepSessions, bind_of_ok first, bind_of_ok second]
    refine ⟨⟨_, rfl⟩, whole.trans whole', fun t member => ?_⟩
    rcases List.mem_cons.mp member with rfl | inside
    · exact swept.imp (fun spent => spent.whole whole') (fun clean => clean.whole whole')
    · exact others t inside

theorem expireDue_spec (sound : h.Sound) (now : MonotonicMs) :
    (∃ expired, (expireDue now h).1 = .ok expired) ∧ Whole now h (expireDue now h).2 ∧
      ∀ s, (expireDue now h).2.Exhausted s ∨ (expireDue now h).2.Swept s now := by
  unfold expireDue
  rw [read_bind]
  obtain ⟨answer, whole, swept⟩ := sweepSessions_spec sound h.sessions.keys now
  refine ⟨answer, whole, fun s => ?_⟩
  by_cases known : s ∈ h.sessions.keys
  · exact swept s known
  · refine .inr fun st' state' => ?_
    obtain ⟨st, state, -⟩ := whole.state state'
    exact absurd (ExtTreeMap.mem_keys.mpr ((TreeMap.mem_iff _ _).mpr ⟨st, state⟩)) known

end SessionHost

end Bitty.Daemon
