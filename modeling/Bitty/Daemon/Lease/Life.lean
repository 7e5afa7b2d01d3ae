import Bitty.Daemon.Lease.Run

/-! The life of a session, from its creation to its one completion. -/

namespace Bitty.Daemon

open Std (ExtTreeMap)

def life (told : List Label) : List Label :=
  told.foldl (fun past label =>
    match label with
    | .created _ => []
    | _ => past ++ [label]) []

theorem life_created {told : List Label} {token : ControlToken} : life (told ++ [.created token]) = [] := by simp [life]

theorem life_append {told later : List Label} (same : ∀ token, .created token ∉ later) :
    life (told ++ later) = life told ++ later := by
  induction later generalizing told with
  | nil => simp
  | cons label later ih =>
    have rest := fun token inside => same token (List.mem_cons_of_mem label inside)
    have one : life (told ++ [label]) = life told ++ [label] := by
      cases label with
      | created token => exact absurd List.mem_cons_self (same token)
      | _ => simp [life]
    rw [List.append_cons, ih rest, one, ← List.append_cons]

/-- How far a session has come, as its callers know it. -/
inductive Phase
  | created
  | cancelling (reason : TerminalReason) (actor : Actor)
  | running
  | stopping (reason : TerminalReason) (actor : Actor)
  | ended (bound : Bool) (snapshot : SessionSnapshot)

namespace Phase

inductive Tells : Phase → Label → Phase → Prop
  | issued {p token} (alive : ∀ bound snapshot, p ≠ ended bound snapshot) : Tells p (.issued token) p
  | retired {p} (alive : ∀ bound snapshot, p ≠ ended bound snapshot) : Tells p .retired p
  | bind : Tells created .bound running
  | cancel {reason actor} : Tells created (.accepted reason actor) (cancelling reason actor)
  | stop {reason actor} : Tells running (.accepted reason actor) (stopping reason actor)
  | spoil {snapshot reason actor} : Tells created (.completed snapshot reason actor) (ended false snapshot)
  | exit {snapshot reason actor} : Tells running (.completed snapshot reason actor) (ended true snapshot)
  | cancelled {snapshot reason actor} :
      Tells (cancelling reason actor) (.completed snapshot reason actor) (ended false snapshot)
  | stopped {snapshot reason actor} :
      Tells (stopping reason actor) (.completed snapshot reason actor) (ended true snapshot)

inductive Lives (p : Phase) : List Label → Phase → Prop
  | nil : Lives p [] p
  | tell {q r told label} (earlier : Lives p told q) (next : Tells q label r) : Lives p (told ++ [label]) r

variable {p q r : Phase} {told later : List Label} {label : Label} {reason : TerminalReason} {actor : Actor}
  {snapshot : SessionSnapshot} {bound : Bool}

theorem Lives.append (earlier : Lives p told q) (rest : Lives q later r) : Lives p (told ++ later) r := by
  induction rest with
  | nil => simpa using earlier
  | tell _ next ih =>
    rw [← List.append_assoc]
    exact ih.tell next

theorem Lives.one (next : Tells p label q) : Lives p [label] q := Lives.nil.tell next

theorem not_tells_of_ended : ¬ Tells (ended bound snapshot) label q := by
  intro tells
  cases tells with
  | issued alive => exact alive bound snapshot rfl
  | retired alive => exact alive bound snapshot rfl

theorem Lives.of_cancelling (lives : Lives (cancelling reason actor) told q) :
    .bound ∉ told ∧ (q = cancelling reason actor ∨ ∃ snapshot, q = ended false snapshot) := by
  induction lives with
  | nil => simp
  | tell earlier next ih =>
    obtain ⟨unbound, rfl | ⟨snapshot, rfl⟩⟩ := ih
    · cases next with
      | issued => simpa using unbound
      | retired => simpa using unbound
      | cancelled => simpa using unbound
    · exact absurd next not_tells_of_ended

def Recalls (told : List Label) : Phase → Prop
  | created => .bound ∉ told ∧ (∀ reason actor, .accepted reason actor ∉ told) ∧
      ∀ snapshot reason actor, .completed snapshot reason actor ∉ told
  | cancelling reason actor => .bound ∉ told ∧ (∀ reason' actor', .accepted reason' actor' ∈ told ↔ reason' = reason ∧ actor' = actor) ∧
      ∀ snapshot reason actor, .completed snapshot reason actor ∉ told
  | running => told.count .bound = 1 ∧ (∀ reason actor, .accepted reason actor ∉ told) ∧
      ∀ snapshot reason actor, .completed snapshot reason actor ∉ told
  | stopping reason actor => told.count .bound = 1 ∧
      (∀ reason' actor', .accepted reason' actor' ∈ told ↔ reason' = reason ∧ actor' = actor) ∧
      ∀ snapshot reason actor, .completed snapshot reason actor ∉ told
  | ended bound snapshot => told.count .bound = bound.toNat ∧
      ∃ earlier reason actor, told = earlier ++ [.completed snapshot reason actor] ∧
        (∀ reason' actor', .accepted reason' actor' ∈ earlier → reason = reason' ∧ actor = actor') ∧
        ∀ snapshot reason actor, .completed snapshot reason actor ∉ earlier

theorem Lives.recalls (lives : Lives created told q) : q.Recalls told := by
  induction lives with
  | nil => simp [Recalls]
  | @tell q r told label earlier next ih =>
    cases next with
    | issued alive =>
      cases q with
      | ended bound snapshot => exact absurd rfl (alive bound snapshot)
      | _ => simpa [Recalls] using ih
    | retired alive =>
      cases q with
      | ended bound snapshot => exact absurd rfl (alive bound snapshot)
      | _ => simpa [Recalls] using ih
    | bind =>
      obtain ⟨unbound, unasked, uncompleted⟩ := ih
      simpa [Recalls, List.count_append, List.count_eq_zero.mpr unbound, unasked] using uncompleted
    | cancel =>
      obtain ⟨unbound, unasked, uncompleted⟩ := ih
      simpa [Recalls, unasked, unbound] using uncompleted
    | stop =>
      obtain ⟨once, unasked, uncompleted⟩ := ih
      simpa [Recalls, unasked, once] using uncompleted
    | @spoil snapshot reason actor =>
      obtain ⟨unbound, unasked, uncompleted⟩ := ih
      refine ⟨by simp [List.count_eq_zero.mpr unbound], _, _, _, rfl, fun reason' actor' asked => ?_, uncompleted⟩
      exact absurd asked (unasked reason' actor')
    | exit =>
      obtain ⟨once, unasked, uncompleted⟩ := ih
      refine ⟨by simp [once], _, _, _, rfl, fun reason' actor' asked => ?_, uncompleted⟩
      exact absurd asked (unasked reason' actor')
    | cancelled =>
      obtain ⟨unbound, asked, uncompleted⟩ := ih
      refine ⟨by simp [List.count_eq_zero.mpr unbound], _, _, _, rfl, fun reason' actor' inside => ?_, uncompleted⟩
      obtain ⟨rfl, rfl⟩ := (asked reason' actor').mp inside
      exact ⟨rfl, rfl⟩
    | stopped =>
      obtain ⟨once, asked, uncompleted⟩ := ih
      refine ⟨by simp [once], _, _, _, rfl, fun reason' actor' inside => ?_, uncompleted⟩
      obtain ⟨rfl, rfl⟩ := (asked reason' actor').mp inside
      exact ⟨rfl, rfl⟩

theorem Lives.completed {earlier rest : List Label} (lives : Lives created (earlier ++ .completed snapshot reason actor :: rest) q) :
    rest = [] ∧ (∃ bound, q = ended bound snapshot) ∧
      ∀ reason' actor', .accepted reason' actor' ∈ earlier → reason = reason' ∧ actor = actor' := by
  have recalls := lives.recalls
  cases q with
  | ended bound snapshot' =>
    obtain ⟨-, before, reason', actor', split, caused, uncompleted⟩ := recalls
    rcases List.eq_nil_or_concat rest with rfl | ⟨init, last, rfl⟩
    · obtain ⟨rfl, same⟩ := List.append_inj' split rfl
      obtain ⟨rfl, rfl, rfl⟩ : snapshot = snapshot' ∧ reason = reason' ∧ actor = actor' := by simpa using same
      exact ⟨rfl, ⟨bound, rfl⟩, caused⟩
    · rw [List.concat_eq_append, ← List.cons_append, ← List.append_assoc] at split
      obtain ⟨rfl, -⟩ := List.append_inj' split rfl
      exact absurd (by simp) (uncompleted snapshot reason actor)
  | created => exact absurd (by simp) (recalls.2.2 snapshot reason actor)
  | cancelling => exact absurd (by simp) (recalls.2.2 snapshot reason actor)
  | running => exact absurd (by simp) (recalls.2.2 snapshot reason actor)
  | stopping => exact absurd (by simp) (recalls.2.2 snapshot reason actor)

theorem Lives.count_bound (lives : Lives created told q) : told.count .bound ≤ 1 := by
  have recalls := lives.recalls
  cases q with
  | created => simp [List.count_eq_zero.mpr recalls.1]
  | cancelling => simp [List.count_eq_zero.mpr recalls.1]
  | running => exact Nat.le_of_eq recalls.1
  | stopping => exact Nat.le_of_eq recalls.1
  | ended bound => rw [recalls.1]; exact Bool.toNat_le bound

end Phase

inductive LifecycleState.Follows : LifecycleState → LifecycleState → Prop
  | same (a : LifecycleState) : Follows a a
  | bind : Follows .created .running
  | stop : Follows .running .stopping
  | ending {a b : LifecycleState} (alive : a.isTerminal = false) (terminal : b.isTerminal = true) : Follows a b

namespace Slot

variable {digest : ControlToken → ControlTokenDigest} {maxAttaches : Nat} {told ls : List Label} {x y : Slot} {p q : Phase}

def In (x : Slot) : Phase → Prop
  | .created => ∃ r s, x = live r s ∧ r.state = .created ∧ s.cancel = none
  | .cancelling reason actor => ∃ r s, x = live r s ∧ s.cancel = some ⟨reason, actor⟩
  | .running => ∃ r s, x = live r s ∧ r.state = .running
  | .stopping reason actor => ∃ r s stop, x = live r s ∧ s.stop = some stop ∧ stop.reason = reason ∧ stop.actor = actor
  | .ended bound snapshot => ∃ r, x.record = none ∧ x.retained = some r ∧ r.snapshot = snapshot ∧ r.generation = bound.toNat

def Gone (x : Slot) : Prop := x.record = none ∧ x.retained = none

variable {r : SessionRecord} {s : SessionLeaseState}

theorem In.same {r' : SessionRecord} {s' : SessionLeaseState} (inside : (live r s).In p) (state : r'.state = r.state)
    (cancel : s'.cancel = s.cancel)
    (stop : s'.stop.map (fun stop => (stop.reason, stop.actor)) = s.stop.map fun stop => (stop.reason, stop.actor)) :
    (live r' s').In p := by
  cases p with
  | created =>
    obtain ⟨_, _, ⟨⟩, created, none⟩ := inside
    exact ⟨r', s', rfl, state.trans created, cancel.trans none⟩
  | cancelling reason actor =>
    obtain ⟨_, _, ⟨⟩, pending⟩ := inside
    exact ⟨r', s', rfl, cancel.trans pending⟩
  | running =>
    obtain ⟨_, _, ⟨⟩, running⟩ := inside
    exact ⟨r', s', rfl, state.trans running⟩
  | stopping reason actor =>
    obtain ⟨_, _, begun, ⟨⟩, accepted, rfl, rfl⟩ := inside
    rw [accepted] at stop
    obtain ⟨begun', accepted', same⟩ := Option.map_eq_some_iff.mp stop
    obtain ⟨reason, actor⟩ := Prod.mk.inj same
    exact ⟨r', s', begun', rfl, accepted', reason, actor⟩
  | ended bound snapshot =>
    obtain ⟨_, impossible, -⟩ := inside
    cases impossible

theorem In.alive (inside : (Slot.live r s).In p) (bound : Bool)
    (snapshot : SessionSnapshot) : p ≠ .ended bound snapshot := by
  rintro rfl
  obtain ⟨_, impossible, -⟩ := inside
  cases impossible

theorem In.created (sound : (live r s).Sound maxAttaches) (inside : (live r s).In p)
    (created : r.state = .created) (first : s.cancel = none) : p = .created := by
  have stopping := sound.stopping r s rfl rfl
  cases p with
  | created => rfl
  | cancelling reason actor =>
    obtain ⟨_, _, ⟨⟩, pending⟩ := inside
    rw [first] at pending
    cases pending
  | running =>
    obtain ⟨_, _, ⟨⟩, running⟩ := inside
    rw [created] at running
    cases running
  | stopping reason actor =>
    obtain ⟨_, _, begun, ⟨⟩, accepted, -⟩ := inside
    have state := stopping.mp (by rw [accepted]; rfl)
    rw [created] at state
    cases state
  | ended bound snapshot => exact absurd rfl (inside.alive bound snapshot)

theorem In.running (sound : (live r s).Sound maxAttaches) (inside : (live r s).In p)
    (running : r.state = .running) : p = .running := by
  have stopping := sound.stopping r s rfl rfl
  have cancelling := sound.cancelling r s rfl rfl
  cases p with
  | created =>
    obtain ⟨_, _, ⟨⟩, created, -⟩ := inside
    rw [running] at created
    cases created
  | cancelling reason actor =>
    obtain ⟨_, _, ⟨⟩, pending⟩ := inside
    have state := cancelling (by rw [pending]; rfl)
    rw [running] at state
    cases state
  | running => rfl
  | stopping reason actor =>
    obtain ⟨_, _, begun, ⟨⟩, accepted, -⟩ := inside
    have state := stopping.mp (by rw [accepted]; rfl)
    rw [running] at state
    cases state
  | ended bound snapshot => exact absurd rfl (inside.alive bound snapshot)

theorem In.ends {r' : SessionRecord} {reason : TerminalReason} {actor : Actor}
    (sound : (live r s).Sound maxAttaches) (inside : (live r s).In p) (caused : Caused s reason actor)
    (same : r'.generation = r.generation) :
    ∃ bound, p.Tells (.completed r'.snapshot reason actor) (.ended bound r'.snapshot) ∧ r'.generation = bound.toNat := by
  have generation := sound.generation r rfl
  rw [same]
  cases p with
  | created =>
    obtain ⟨_, _, ⟨⟩, created, -⟩ := inside
    exact ⟨false, .spoil, by rw [generation, if_pos created]; rfl⟩
  | cancelling reason' actor' =>
    obtain ⟨_, _, ⟨⟩, pending⟩ := inside
    have created := sound.cancelling r s rfl rfl (by rw [pending]; rfl)
    obtain ⟨rfl, rfl⟩ := caused.2 _ pending
    exact ⟨false, .cancelled, by rw [generation, if_pos created]; rfl⟩
  | running =>
    obtain ⟨_, _, ⟨⟩, running⟩ := inside
    exact ⟨true, .exit, by rw [generation, running]; rfl⟩
  | stopping reason' actor' =>
    obtain ⟨_, _, begun, ⟨⟩, accepted, rfl, rfl⟩ := inside
    have stopping := (sound.stopping r s rfl rfl).mp (by rw [accepted]; rfl)
    obtain ⟨rfl, rfl⟩ := caused.1 _ accepted
    exact ⟨true, .stopped, by rw [generation, stopping]; rfl⟩
  | ended bound snapshot => exact absurd rfl (inside.alive bound snapshot)

theorem In.move (sound : x.Sound maxAttaches) (inside : x.In p) (move : Move digest maxAttaches x ls y)
    (same : ∀ token, .created token ∉ ls) : (∃ q, p.Lives ls q ∧ y.In q) ∨ ls = [] ∧ y.Gone := by
  cases move with
  | touch core => exact .inl ⟨p, .nil, inside.same core.state rfl rfl⟩
  | renew => exact .inl ⟨p, .nil, inside.same rfl rfl rfl⟩
  | attach fresh role room counted =>
    obtain ⟨-, -, rfl⟩ := SessionRecord.attach_ok counted
    exact .inl ⟨p, .nil, inside.same rfl rfl rfl⟩
  | drop here counted => exact .inl ⟨p, .nil, inside.same (SessionRecord.aged_detach counted).state rfl rfl⟩
  | claim fresh role vacant known counted =>
    obtain ⟨-, -, rfl⟩ := SessionRecord.attach_ok counted
    exact .inl ⟨p, .one (.issued inside.alive), inside.same rfl rfl rfl⟩
  | hand holds here role core => exact .inl ⟨p, .one (.issued inside.alive), inside.same core.state rfl rfl⟩
  | take vacant known here role core => exact .inl ⟨p, .one (.issued inside.alive), inside.same core.state rfl rfl⟩
  | retire vacant => exact .inl ⟨p, .one (.retired inside.alive), inside.same rfl rfl rfl⟩
  | @cancel r s reason actor created first =>
    obtain rfl := inside.created sound created first
    exact .inl ⟨.cancelling reason actor, .one .cancel, r, _, rfl, rfl⟩
  | @stop r r' s now begun first stopping =>
    obtain ⟨running, -, rfl⟩ := SessionRecord.beginStopping_ok stopping
    obtain rfl := inside.running sound running
    exact .inl ⟨.stopping begun.reason begun.actor, .one .stop, _, _, begun, rfl, rfl, rfl, rfl⟩
  | @escalate r s f keeps =>
    refine .inl ⟨p, .nil, inside.same rfl rfl ?_⟩
    rw [Option.map_map]
    refine congrArg (fun view => s.stop.map view) (funext fun stop => ?_)
    exact Prod.ext (keeps stop).1 (keeps stop).2
  | bind first running =>
    obtain ⟨created, -, rfl⟩ := SessionRecord.bind_ok running
    obtain rfl := inside.created sound created first
    exact .inl ⟨.running, .one .bind, _, _, rfl, rfl⟩
  | release within released overflow => exact .inl ⟨p, .nil, inside.same released.spec.2.1 rfl rfl⟩
  | @complete r r' s outcome actor target revision now released checked caused =>
    have same : (r'.terminated outcome target revision now).generation = r.generation := released.spec.2.2.1
    obtain ⟨bound, tells, generation⟩ := inside.ends sound caused same
    exact .inl ⟨.ended bound _, .one tells, _, rfl, rfl, rfl, generation⟩
  | evict => exact .inr ⟨rfl, rfl, rfl⟩
  | forget => exact .inr ⟨rfl, rfl, rfl⟩
  | create => exact absurd List.mem_cons_self (same _)
  | discard => exact .inr ⟨rfl, rfl, rfl⟩

theorem Gone.move (gone : x.Gone) (move : Move digest maxAttaches x ls y) (same : ∀ token, .created token ∉ ls) :
    ls = [] ∧ y.Gone := by
  cases move with
  | forget => exact ⟨rfl, rfl, rfl⟩
  | create => exact absurd List.mem_cons_self (same _)
  | evict => cases gone.2
  | _ => cases gone.1

def Stands (p : Phase) (x : Slot) : Prop := x.In p ∨ x.Gone

theorem Stands.move (sound : x.Sound maxAttaches) (stands : x.Stands p) (move : Move digest maxAttaches x ls y)
    (same : ∀ token, .created token ∉ ls) : ∃ q, p.Lives ls q ∧ y.Stands q := by
  rcases stands with inside | gone
  · rcases inside.move sound move same with ⟨q, lives, after⟩ | ⟨rfl, gone⟩
    · exact ⟨q, lives, .inl after⟩
    · exact ⟨p, .nil, .inr gone⟩
  · obtain ⟨rfl, gone⟩ := gone.move move same
    exact ⟨p, .nil, .inr gone⟩

theorem Stands.path (sound : x.Sound maxAttaches) (stands : x.Stands p) (path : Path digest maxAttaches x ls y)
    (same : ∀ token, .created token ∉ ls) : ∃ q, p.Lives ls q ∧ y.Stands q := by
  induction path generalizing p with
  | nil => exact ⟨p, .nil, stands⟩
  | @cons x y z ls ms move rest ih =>
    obtain ⟨q, first, stands⟩ := stands.move sound move fun token inside => same token (List.mem_append_left _ inside)
    obtain ⟨r, later, stands⟩ := ih (Sound.move _ _ _ sound move) stands fun token inside =>
      same token (List.mem_append_right _ inside)
    exact ⟨r, first.append later, stands⟩

def Lived (told : List Label) (x : Slot) : Prop := ∃ p, Phase.created.Lives (life told) p ∧ x.Stands p

theorem Lived.move (sound : x.Sound maxAttaches) (lived : x.Lived told) (move : Move digest maxAttaches x ls y) :
    y.Lived (told ++ ls) := by
  obtain ⟨p, lives, stands⟩ := lived
  by_cases same : ∀ token, .created token ∉ ls
  · obtain ⟨q, later, stands⟩ := stands.move sound move same
    rw [Lived, life_append same]
    exact ⟨q, lives.append later, stands⟩
  · cases move with
    | create created unbound unattached =>
      rw [Lived, life_created]
      exact ⟨.created, .nil, .inl ⟨_, _, rfl, created, rfl⟩⟩
    | _ => exact absurd (by simp) same

theorem Lived.path (sound : x.Sound maxAttaches) (lived : x.Lived told) (path : Path digest maxAttaches x ls y) :
    y.Lived (told ++ ls) := by
  induction path generalizing told with
  | nil => simpa using lived
  | cons move rest ih =>
    rw [← List.append_assoc]
    exact ih (Sound.move _ _ _ sound move) (lived.move sound move)

theorem unbound_of_cancel (sound : (live r s).Sound maxAttaches)
    (pending : s.cancel.isSome) (path : Path digest maxAttaches (live r s) ls y) (same : ∀ token, .created token ∉ ls) :
    .bound ∉ ls := by
  obtain ⟨intent, cancel⟩ := Option.isSome_iff_exists.mp pending
  have stands : (live r s).Stands (.cancelling intent.reason intent.actor) := .inl ⟨r, s, rfl, cancel⟩
  obtain ⟨q, lives, -⟩ := stands.path sound path same
  exact lives.of_cancelling.1

def lifecycle (x : Slot) : Option LifecycleState := (x.record.or x.retained).map (·.state)

theorem lifecycle_move (sound : x.Sound maxAttaches) (move : Move digest maxAttaches x ls y)
    (same : ∀ token, .created token ∉ ls) :
    y.lifecycle = none ∨ ∃ a b, x.lifecycle = some a ∧ y.lifecycle = some b ∧ a.Follows b ∧ (ls = [] → a = b) := by
  have kept {r r' : SessionRecord} {s s' : SessionLeaseState} (state : r'.state = r.state) :
      ∃ a b, (live r s).lifecycle = some a ∧ (live r' s').lifecycle = some b ∧ a.Follows b ∧ (ls = [] → a = b) := by
    refine ⟨r.state, r.state, rfl, congrArg some state, .same _, fun _ => rfl⟩
  cases move with
  | touch core => exact .inr (kept core.state)
  | renew | retire | cancel | escalate => exact .inr (kept rfl)
  | attach fresh role room counted =>
    obtain ⟨-, -, rfl⟩ := SessionRecord.attach_ok counted
    exact .inr (kept rfl)
  | drop here counted => exact .inr (kept (SessionRecord.aged_detach counted).state)
  | claim fresh role vacant known counted =>
    obtain ⟨-, -, rfl⟩ := SessionRecord.attach_ok counted
    exact .inr (kept rfl)
  | hand holds here role core => exact .inr (kept core.state)
  | take vacant known here role core => exact .inr (kept core.state)
  | stop first stopping =>
    obtain ⟨running, -, rfl⟩ := SessionRecord.beginStopping_ok stopping
    exact .inr ⟨.running, .stopping, congrArg some running, rfl, .stop, by simp⟩
  | bind first running =>
    obtain ⟨created, -, rfl⟩ := SessionRecord.bind_ok running
    exact .inr ⟨.created, .running, congrArg some created, rfl, .bind, by simp⟩
  | release within released overflow => exact .inr (kept released.spec.2.1)
  | complete released checked caused =>
    obtain ⟨rfl, -⟩ := SessionRecord.checkTerminalTransition_ok checked
    exact .inr ⟨_, _, rfl, rfl, .ending (sound.alive _ rfl) (TerminalReason.isTerminal_terminalState _), by simp⟩
  | evict | forget | discard => exact .inl rfl
  | create => exact absurd List.mem_cons_self (same _)

theorem lifecycle_path (sound : x.Sound maxAttaches) (path : Path digest maxAttaches x ls y)
    (same : ∀ token, .created token ∉ ls) (brief : ls.length ≤ 1) :
    y.lifecycle = none ∨ ∃ a b, x.lifecycle = some a ∧ y.lifecycle = some b ∧ a.Follows b ∧ (ls = [] → a = b) := by
  induction path with
  | nil x =>
    cases x.lifecycle with
    | none => exact .inl rfl
    | some a => exact .inr ⟨a, a, rfl, rfl, .same a, fun _ => rfl⟩
  | @cons x y z ls ms move rest ih =>
    rw [List.length_append] at brief
    have first := lifecycle_move sound move fun token inside => same token (List.mem_append_left _ inside)
    have later := ih (Sound.move _ _ _ sound move) (fun token inside => same token (List.mem_append_right _ inside)) (by omega)
    rcases later with none | ⟨b', c, middle, last, follows, still⟩
    · exact .inl none
    rcases first with none | ⟨a, b, start, middle', follows', still'⟩
    · rw [none] at middle
      cases middle
    obtain rfl := Option.some.inj (middle'.symm.trans middle)
    refine .inr ⟨a, c, start, last, ?_, fun silent => ?_⟩
    · cases ls with
      | nil =>
        rw [still' rfl]
        exact follows
      | cons label ls =>
        have silent : ms = [] := List.eq_nil_of_length_eq_zero (by simp only [List.length_cons] at brief; omega)
        rw [← still silent]
        exact follows'
    · obtain ⟨rfl, rfl⟩ := List.append_eq_nil_iff.mp silent
      exact (still' rfl).trans (still rfl)

end Slot

end Bitty.Daemon
