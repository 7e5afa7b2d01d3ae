import Bitty.Daemon.Lease.Slot

namespace Bitty.Daemon

open Std (ExtTreeMap)

namespace SessionLeaseState

structure Sound (maxAttaches : Nat) (s : SessionLeaseState) : Prop where
  keyed : ∀ a (l : Lease), s.leases[a]? = some l → l.attachId = a
  controls : ∀ a, s.controller = some a ↔ ∃ l : Lease, s.leases[a]? = some l ∧ l.role = .controller
  observed : s.observers ≤ maxAttaches

structure Settled (s : SessionLeaseState) : Prop where
  leases : s.leases = ∅
  controller : s.controller = none
  stop : s.stop = none
  cancel : s.cancel = none
  token : s.token = .retired

theorem settled_settled (s : SessionLeaseState) : s.settled.Settled := ⟨rfl, rfl, rfl, rfl, rfl⟩

variable {maxAttaches : Nat} {s : SessionLeaseState}

theorem Sound.of_empty (free : s.leases = ∅) (vacant : s.controller = none) : s.Sound maxAttaches where
  keyed a l here := by simp [free] at here
  controls a := by simp [free, vacant]
  observed := by
    have none : s.leases.filter (fun _ l => l.isObserver) = ∅ := by
      refine ExtTreeMap.ext_getElem? fun a => ?_
      rw [TreeMap.find_filter, free]
      simp
    rw [observers, none]
    exact Nat.zero_le _

theorem Sound.controllers_le (sound : s.Sound maxAttaches) : (s.leases.filter fun _ l => !l.isObserver).size ≤ 1 := by
  have controls (a : AttachId) (member : a ∈ s.leases.filter fun _ l => !l.isObserver) : s.controller = some a := by
    rw [TreeMap.mem_iff] at member
    obtain ⟨l, here⟩ := member
    rw [TreeMap.find_filter, Option.filter_eq_some_iff] at here
    refine (sound.controls a).mpr ⟨l, here.1, ?_⟩
    cases role : l.role with
    | controller => rfl
    | observer => simp [Lease.isObserver, role] at here
  refine TreeMap.size_le_one _ fun a b first second => ?_
  exact Option.some.inj ((controls a first).symm.trans (controls b second))

theorem Sound.size_le (sound : s.Sound maxAttaches) : s.leases.size ≤ maxAttaches + 1 := by
  have parts := TreeMap.size_filter_add s.leases fun _ l => l.isObserver
  have observed := sound.observed
  have controllers := sound.controllers_le
  unfold observers at observed
  omega

theorem Sound.modifyLease (sound : s.Sound maxAttaches) {a : AttachId} {f : Lease → Lease}
    (keeps : ∀ l, (f l).role = l.role ∧ (f l).attachId = l.attachId) : (s.modifyLease a f).Sound maxAttaches where
  keyed b l here := by
    rw [SessionLeaseState.modifyLease, TreeMap.find_modify] at here
    split_ifs at here with same
    · obtain ⟨l', before, rfl⟩ := Option.map_eq_some_iff.mp here
      rw [(keeps l').2]
      exact sound.keyed b l' before
    · exact sound.keyed b l here
  controls b := by
    rw [SessionLeaseState.modifyLease, TreeMap.find_modify]
    refine (sound.controls b).trans ?_
    split_ifs with same
    · constructor
      · rintro ⟨l, here, role⟩
        exact ⟨f l, by rw [here]; rfl, (keeps l).1.trans role⟩
      · rintro ⟨l, here, role⟩
        obtain ⟨l', before, rfl⟩ := Option.map_eq_some_iff.mp here
        exact ⟨l', before, (keeps l').1.symm.trans role⟩
    · exact Iff.rfl
  observed := by
    have same := TreeMap.size_filter_modify s.leases a (fun _ l => l.isObserver) f
      (fun l => by simp only [Lease.isObserver, (keeps l).1])
    exact Nat.le_trans (Nat.le_of_eq same) sound.observed

variable {lease : Lease}

theorem Sound.attached (sound : s.Sound maxAttaches) (fresh : s.leases[lease.attachId]? = none)
    (role : lease.role = .observer) (room : s.observers < maxAttaches) : (s.attached lease).Sound maxAttaches where
  keyed b l here := by
    rw [SessionLeaseState.attached, TreeMap.find_insert] at here
    split_ifs at here with same
    · cases here
      exact same
    · exact sound.keyed b l here
  controls b := by
    rw [SessionLeaseState.attached, TreeMap.find_insert]
    refine (sound.controls b).trans ?_
    split_ifs with same
    · subst same
      simp [fresh, role]
    · exact Iff.rfl
  observed := by
    have grown := TreeMap.size_filter_insert s.leases lease.attachId lease (fun _ l => l.isObserver) fresh
    unfold observers at room
    simp only [Lease.isObserver, role, decide_true, if_true] at grown
    exact Nat.le_trans (Nat.le_of_eq grown) room

theorem Sound.removeLease (sound : s.Sound maxAttaches) (a : AttachId) : (s.removeLease a).Sound maxAttaches where
  keyed b l here := by
    rw [SessionLeaseState.removeLease, TreeMap.find_erase] at here
    split_ifs at here with same
    exact sound.keyed b l here
  controls b := by
    rw [SessionLeaseState.removeLease, TreeMap.find_erase]
    have controls := sound.controls b
    by_cases same : a = b
    · subst same
      split_ifs <;> simp_all
    · by_cases held : s.controller = some a
      · have other : s.controller ≠ some b := fun second => same (Option.some.inj (held.symm.trans second))
        simp only [held, if_true, if_neg same]
        rw [← controls]
        simp [other]
      · simp only [held, if_false, if_neg same]
        exact controls
  observed := by
    exact Nat.le_trans (TreeMap.size_filter_erase_le s.leases a fun _ l => l.isObserver) sound.observed

variable {digest : ControlTokenDigest}

theorem Sound.claimedBy (sound : s.Sound maxAttaches)
    (fresh : s.leases[lease.attachId]? = none) (role : lease.role = .controller) (vacant : s.controller = none) :
    (s.claimedBy lease digest).Sound maxAttaches where
  keyed b l here := by
    rw [SessionLeaseState.claimedBy, SessionLeaseState.attached, TreeMap.find_insert] at here
    split_ifs at here with same
    · cases here
      exact same
    · exact sound.keyed b l here
  controls b := by
    rw [SessionLeaseState.claimedBy, SessionLeaseState.attached, TreeMap.find_insert]
    have controls := sound.controls b
    rw [vacant] at controls
    split_ifs with same
    · subst same
      simp [role]
    · rw [← controls]
      simp [same]
  observed := by
    have grown := TreeMap.size_filter_insert s.leases lease.attachId lease (fun _ l => l.isObserver) fresh
    simp only [Lease.isObserver, role] at grown
    exact Nat.le_trans (Nat.le_of_eq grown) sound.observed

theorem Sound.handed (sound : s.Sound maxAttaches) {previous target : AttachId}
    (holds : s.controller = some previous) (here : s.leases[target]? = some lease) (role : lease.role = .observer) :
    (s.moved (some previous) target digest).Sound maxAttaches := by
  obtain ⟨old, held, oldRole⟩ := (sound.controls previous).mp holds
  have apart : previous ≠ target := by
    rintro rfl
    obtain rfl := Option.some.inj (held.symm.trans here)
    simp [role] at oldRole
  have find (b : AttachId) : (s.moved (some previous) target digest).leases[b]? =
      if target = b then s.leases[b]?.map (·.setRole .controller)
      else if previous = b then s.leases[b]?.map (·.setRole .observer) else s.leases[b]? := by
    simp only [moved, SessionLeaseState.modifyLease]
    rw [TreeMap.find_modify, TreeMap.find_modify]
    split_ifs with first second second
    · exact absurd (second.trans first.symm) apart
    · rfl
    · rfl
    · rfl
  refine ⟨fun b l at' => ?_, fun b => ?_, ?_⟩
  · rw [find] at at'
    split_ifs at at'
    · obtain ⟨l', before, rfl⟩ := Option.map_eq_some_iff.mp at'
      exact sound.keyed b l' before
    · obtain ⟨l', before, rfl⟩ := Option.map_eq_some_iff.mp at'
      exact sound.keyed b l' before
    · exact sound.keyed b l at'
  · rw [find]
    have controls := sound.controls b
    rw [holds] at controls
    split_ifs with first second
    · subst first
      simp [moved, here, Lease.setRole]
    · subst second
      simp [moved, held, Lease.setRole, Ne.symm apart]
    · rw [← controls]
      simp [moved, first, second]
  · have demoted := TreeMap.size_filter_modify_of_find s.leases previous old held (fun _ l => l.isObserver)
      (·.setRole .observer)
    have at' : (s.leases.modify previous (·.setRole .observer))[target]? = some lease := by
      rw [TreeMap.find_modify, if_neg apart, here]
    have promoted := TreeMap.size_filter_modify_of_find (s.leases.modify previous (·.setRole .observer)) target lease at'
      (fun _ l => l.isObserver) (·.setRole .controller)
    simp only [Lease.isObserver, Lease.setRole, oldRole, role, decide_true, if_true] at demoted promoted
    have observed := sound.observed
    simp only [observers, moved, SessionLeaseState.modifyLease, Lease.isObserver, Lease.setRole] at observed ⊢
    simp at demoted promoted
    omega

theorem Sound.taken (sound : s.Sound maxAttaches) {target : AttachId}
    (vacant : s.controller = none) (here : s.leases[target]? = some lease) (role : lease.role = .observer) :
    (s.moved none target digest).Sound maxAttaches := by
  have find (b : AttachId) : (s.moved none target digest).leases[b]? =
      if target = b then s.leases[b]?.map (·.setRole .controller) else s.leases[b]? := TreeMap.find_modify _ _ _ _
  refine ⟨fun b l at' => ?_, fun b => ?_, ?_⟩
  · rw [find] at at'
    split_ifs at at'
    · obtain ⟨l', before, rfl⟩ := Option.map_eq_some_iff.mp at'
      exact sound.keyed b l' before
    · exact sound.keyed b l at'
  · rw [find]
    have controls := sound.controls b
    rw [vacant] at controls
    split_ifs with first
    · subst first
      simp [moved, here, Lease.setRole]
    · rw [← controls]
      simp [moved, first]
  · have promoted := TreeMap.size_filter_modify_of_find s.leases target lease here (fun _ l => l.isObserver)
      (·.setRole .controller)
    have observed := sound.observed
    simp only [observers, moved, SessionLeaseState.modifyLease, Lease.isObserver, Lease.setRole] at observed ⊢
    simp [Lease.isObserver, Lease.setRole, role] at promoted
    omega

end SessionLeaseState

namespace Slot

open SessionLeaseState

structure Sound (maxAttaches : Nat) (x : Slot) : Prop where
  hosted : ∀ r, x.record = some r → x.retained = none ∧ x.state ≠ none
  alive : ∀ r, x.record = some r → r.state.isTerminal = false
  frozen : ∀ r, x.retained = some r → r.state.isTerminal = true ∧ r.attachCount = 0
  settled : ∀ s, x.record = none → x.state = some s → s.Settled
  table : ∀ s, x.state = some s → s.Sound maxAttaches
  counted : ∀ r s, x.record = some r → x.state = some s → r.attachCount = s.leases.size ∨ U64_MAX ≤ r.stateRevision
  stopping : ∀ r s, x.record = some r → x.state = some s → (s.stop.isSome ↔ r.state = .stopping)
  cancelling : ∀ r s, x.record = some r → x.state = some s → s.cancel.isSome → r.state = .created
  generation : ∀ r, x.record = some r → r.generation = if r.state = .created then 0 else 1

variable {maxAttaches : Nat}

theorem Sound.absent {s : Option SessionLeaseState} (settled : ∀ t, s = some t → t.Settled) :
    Sound maxAttaches ⟨none, none, s⟩ where
  hosted := by simp
  alive := by simp
  frozen := by simp
  settled t _ here := settled t here
  table t here := .of_empty (settled t here).leases (settled t here).controller
  counted := by simp
  stopping := by simp
  cancelling := by simp
  generation := by simp

theorem sound_live {r : SessionRecord} {s : SessionLeaseState} (alive : r.state.isTerminal = false)
    (table : s.Sound maxAttaches) (counted : r.attachCount = s.leases.size ∨ U64_MAX ≤ r.stateRevision)
    (stopping : s.stop.isSome ↔ r.state = .stopping) (cancelling : s.cancel.isSome → r.state = .created)
    (generation : r.generation = if r.state = .created then 0 else 1) : (live r s).Sound maxAttaches where
  hosted _ _ := ⟨rfl, by simp [live]⟩
  alive := by
    rintro _ ⟨⟩
    exact alive
  frozen := by simp [live]
  settled _ none := by simp [live] at none
  table := by
    rintro _ ⟨⟩
    exact table
  counted := by
    rintro _ _ ⟨⟩ ⟨⟩
    exact counted
  stopping := by
    rintro _ _ ⟨⟩ ⟨⟩
    exact stopping
  cancelling := by
    rintro _ _ ⟨⟩ ⟨⟩
    exact cancelling
  generation := by
    rintro _ ⟨⟩
    exact generation

section

variable {r r' : SessionRecord} {s s' : SessionLeaseState} {now : MonotonicMs}

theorem Sound.same (sound : (live r s).Sound maxAttaches) (same : r.SameCore r') (table : s'.Sound maxAttaches)
    (size : s'.leases.size = s.leases.size) (stop : s'.stop.isSome = s.stop.isSome)
    (cancel : s'.cancel.isSome → r.state = .created) : (live r' s').Sound maxAttaches := by
  refine sound_live (same.state ▸ sound.alive r rfl) table ?_ ?_ ?_ ?_
  · have counted := sound.counted r s rfl rfl
    have revision := same.revision
    rw [same.attachCount, size]
    omega
  · rw [same.state, stop]
    exact sound.stopping r s rfl rfl
  · rw [same.state]
    exact cancel
  · rw [same.state, same.generation]
    exact sound.generation r rfl

theorem Sound.grown (sound : (live r s).Sound maxAttaches) (counted : r.attach now = .ok r')
    (table : s'.Sound maxAttaches) (size : s'.leases.size = s.leases.size + 1) (stop : s'.stop = s.stop)
    (cancel : s'.cancel = s.cancel) : (live r' s').Sound maxAttaches := by
  obtain ⟨alive, below, rfl⟩ := SessionRecord.attach_ok counted
  have count := sound.counted r s rfl rfl
  refine sound_live alive table ?_ ?_ ?_ (sound.generation r rfl)
  · rw [size]
    simp only
    omega
  · rw [stop]
    exact sound.stopping r s rfl rfl
  · rw [cancel]
    exact sound.cancelling r s rfl rfl

theorem Sound.dropped (sound : (live r s).Sound maxAttaches) {a : AttachId} {lease : Lease}
    (here : s.leases[a]? = some lease) (counted : r.detach now = .ok r') :
    (live r' (s.removeLease a)).Sound maxAttaches := by
  obtain ⟨alive, change⟩ := SessionRecord.detach_ok counted
  have table := (sound.table s rfl).removeLease a
  have count := sound.counted r s rfl rfl
  have size : (s.removeLease a).leases.size + 1 = s.leases.size := TreeMap.size_erase_of_find s.leases a lease here
  have core : r'.state = r.state ∧ r'.generation = r.generation ∧
      (r'.attachCount = (s.removeLease a).leases.size ∨ U64_MAX ≤ r'.stateRevision) := by
    obtain ⟨zero, rfl⟩ | ⟨positive, below, rfl⟩ := change
    · refine ⟨rfl, rfl, ?_⟩
      simp only
      omega
    · refine ⟨rfl, rfl, ?_⟩
      simp only
      omega
  obtain ⟨state, generation, counts⟩ := core
  refine sound_live (state ▸ alive) table counts ?_ ?_ ?_
  · rw [state]
    exact sound.stopping r s rfl rfl
  · rw [state]
    exact sound.cancelling r s rfl rfl
  · rw [state, generation]
    exact sound.generation r rfl

theorem Sound.bound (sound : (live r s).Sound maxAttaches) (first : s.cancel = none) (running : r.bind now = .ok r') :
    (live r' s).Sound maxAttaches := by
  obtain ⟨created, below, rfl⟩ := SessionRecord.bind_ok running
  have count := sound.counted r s rfl rfl
  have generation := sound.generation r rfl
  have stopping := sound.stopping r s rfl rfl
  refine sound_live rfl (sound.table s rfl) ?_ ?_ (by simp [first]) ?_
  · simp only
    omega
  · simpa [created] using stopping
  · simpa [created] using generation

theorem Sound.stopped (sound : (live r s).Sound maxAttaches) {begun : StopState} (first : s.cancel = none)
    (stopping : r.beginStopping now = .ok r') : (live r' { s with stop := some begun }).Sound maxAttaches := by
  obtain ⟨running, below, rfl⟩ := SessionRecord.beginStopping_ok stopping
  have count := sound.counted r s rfl rfl
  have generation := sound.generation r rfl
  have table := sound.table s rfl
  refine sound_live rfl ⟨table.keyed, table.controls, table.observed⟩ ?_ (by simp) (by simp [first]) ?_
  · simp only
    omega
  · simpa [running] using generation

theorem Sound.released (sound : (live r s).Sound maxAttaches) {n : Nat} (released : Released now n r r')
    (overflow : U64_MAX ≤ r'.stateRevision) : (live r' s).Sound maxAttaches := by
  obtain ⟨-, state, generation, -, -⟩ := released.spec
  refine sound_live (state ▸ sound.alive r rfl) (sound.table s rfl) (.inr overflow) ?_ ?_ ?_
  · rw [state]
    exact sound.stopping r s rfl rfl
  · rw [state]
    exact sound.cancelling r s rfl rfl
  · rw [state, generation]
    exact sound.generation r rfl

theorem Sound.completed (sound : (live r s).Sound maxAttaches) {outcome : TerminalOutcome} {target : LifecycleState}
    {revision : Nat} (released : Released now s.leases.size r r')
    (checked : r'.checkTerminalTransition outcome = .ok (target, revision)) :
    Sound maxAttaches ⟨none, some (r'.terminated outcome target revision now), some s.settled⟩ := by
  obtain ⟨rfl, -, -, room, -⟩ := SessionRecord.checkTerminalTransition_ok checked
  have count := sound.counted r s rfl rfl
  have start := released.room room
  have rest := released.spec.2.2.2.1
  refine ⟨by simp, by simp, ?_, ?_, ?_, by simp, by simp, by simp, by simp⟩
  · rintro _ ⟨⟩
    refine ⟨outcome.reason.isTerminal_terminalState, ?_⟩
    simp only [SessionRecord.terminated]
    omega
  · rintro _ - ⟨⟩
    exact s.settled_settled
  · rintro _ ⟨⟩
    exact .of_empty rfl rfl

theorem sound_created {digest : ControlTokenDigest} (created : r.state = .created) (unbound : r.generation = 0)
    (unattached : r.attachCount = 0) : (live r (.new digest)).Sound maxAttaches := by
  refine sound_live (by rw [created]; rfl) (.of_empty rfl rfl) (.inl ?_) ?_ ?_ ?_
  · rw [unattached]
    exact ExtTreeMap.size_empty.symm
  · simp [SessionLeaseState.new, created]
  · simp [SessionLeaseState.new]
  · simp [created, unbound]

end

theorem Sound.move {digest : ControlToken → ControlTokenDigest} (x : Slot) (ls : List Label) (y : Slot)
    (sound : x.Sound maxAttaches) (move : Move digest maxAttaches x ls y) : y.Sound maxAttaches := by
  cases move with
  | @touch r r' s same => exact sound.same same (sound.table s rfl) rfl rfl (sound.cancelling r s rfl rfl)
  | @renew r s a f keeps =>
    exact sound.same (.refl r) ((sound.table s rfl).modifyLease keeps) ExtTreeMap.size_modify rfl
      (sound.cancelling r s rfl rfl)
  | @attach r r' s lease now fresh role room counted =>
    exact sound.grown counted ((sound.table s rfl).attached fresh role room) (TreeMap.size_insert_of_fresh _ _ _ fresh)
      rfl rfl
  | drop here counted => exact sound.dropped here counted
  | @claim r r' s lease token presented now fresh role vacant known counted =>
    exact sound.grown counted ((sound.table s rfl).claimedBy fresh role vacant)
      (TreeMap.size_insert_of_fresh _ _ _ fresh) rfl rfl
  | @hand r r' s previous target lease token holds here role same =>
    refine sound.same same ((sound.table s rfl).handed holds here role) ?_ rfl (sound.cancelling r s rfl rfl)
    exact ExtTreeMap.size_modify.trans ExtTreeMap.size_modify
  | @take r r' s target lease token presented vacant known here role same =>
    exact sound.same same ((sound.table s rfl).taken vacant here role) ExtTreeMap.size_modify rfl
      (sound.cancelling r s rfl rfl)
  | @retire r s vacant =>
    have table := sound.table s rfl
    exact sound.same (.refl r) ⟨table.keyed, table.controls, table.observed⟩ rfl rfl (sound.cancelling r s rfl rfl)
  | @cancel r s reason actor created first =>
    have table := sound.table s rfl
    exact sound.same (.refl r) ⟨table.keyed, table.controls, table.observed⟩ rfl rfl fun _ => created
  | stop first stopping => exact sound.stopped first stopping
  | @escalate r s f keeps =>
    have table := sound.table s rfl
    exact sound.same (.refl r) ⟨table.keyed, table.controls, table.observed⟩ rfl Option.isSome_map
      (sound.cancelling r s rfl rfl)
  | bind first running => exact sound.bound first running
  | release within released overflow => exact sound.released released overflow
  | complete released checked caused => exact sound.completed released checked
  | evict => exact .absent fun t here => sound.settled t rfl here
  | forget => exact .absent (by simp)
  | create created unbound unattached => exact sound_created created unbound unattached
  | discard created unbound free => exact .absent (by simp)

end Slot

end Bitty.Daemon
