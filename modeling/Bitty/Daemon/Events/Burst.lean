import Bitty.Daemon.Events.Bus

namespace Bitty.Daemon.Events

open Std

namespace LeaseQueue

def offered (limits : EventLimits) (event : Event) (q : LeaseQueue) : LeaseQueue := (q.admitEvent limits event .control).2

def offeredAll (limits : EventLimits) (attachId : AttachId) (frames : List Event) (q : LeaseQueue) : LeaseQueue :=
  frames.foldl (fun q event => q.offered limits (event.routedTo attachId)) q

variable {limits : EventLimits} {q : LeaseQueue} {event : Event} {attachId : AttachId} {frames : List Event}

theorem Counted.offered (counted : q.Counted limits) :
    q.offered limits event = if q.events.length < capacity limits then q.push limits event else q := by
  rw [LeaseQueue.offered, admit_control, counted.canAdmitControl]
  by_cases room : q.events.length < capacity limits
  · simp [room]
  · simp [room]

theorem Counted.offered_counted (counted : q.Counted limits) : (q.offered limits event).Counted limits := by
  rw [counted.offered]
  split_ifs
  · exact counted.push event
  · exact counted

theorem Counted.offeredAll (counted : q.Counted limits) :
    (q.offeredAll limits attachId frames).Counted limits ∧
      (q.offeredAll limits attachId frames).events =
        q.events ++ (frames.take (capacity limits - q.events.length)).map (·.routedTo attachId) := by
  induction frames generalizing q with
  | nil => exact ⟨counted, by simp [LeaseQueue.offeredAll]⟩
  | cons event rest ih =>
    have first : (q.offered limits (event.routedTo attachId)).Counted limits := counted.offered_counted
    obtain ⟨later, events⟩ := ih first
    refine ⟨later, events.trans ?_⟩
    rw [counted.offered]
    by_cases room : q.events.length < capacity limits
    · have more : capacity limits - q.events.length = capacity limits - (q.events.length + 1) + 1 := by omega
      simp [room, LeaseQueue.push, more]
    · have none : capacity limits - q.events.length = 0 := by omega
      simp [room, none]

end LeaseQueue

namespace SessionEvents

def Counted (limits : EventLimits) (session : SessionEvents) : Prop :=
  ∀ (a : AttachId) q, session.leases[a]? = some q → q.Counted limits

def accepts (limits : EventLimits) (session : SessionEvents) (a : AttachId) : Bool :=
  session.leases[a]?.any (·.canAdmitControl limits limits.sizeOfEvent)

variable {limits : EventLimits} {session : SessionEvents} {event : Event} {frames : List Event} {a : AttachId}

theorem admitTo_find {emission : Emission} {q : LeaseQueue} (here : session.leases[a]? = some q) :
    admitTo limits event (emission, session) a =
      (if session.accepts limits a then { emission with recipients := emission.recipients ++ [a] }
        else { emission with closed := emission.closed ++ [⟨a, .terminalEventLost⟩] },
        { session with leases := session.leases.insert a (q.offered limits (event.routedTo a)) }) := by
  have accepts : session.accepts limits a = q.canAdmitControl limits limits.sizeOfEvent := by
    rw [SessionEvents.accepts, here]
    rfl
  rw [accepts]
  simp only [admitTo, here, LeaseQueue.offered, LeaseQueue.admit_control]
  cases q.canAdmitControl limits limits.sizeOfEvent with
  | true => rfl
  | false => rfl

theorem foldl_admitTo {attaches : List AttachId} (distinct : attaches.Nodup)
    (attached : ∀ a ∈ attaches, a ∈ session.leases) (emission : Emission) :
    ∃ leases : ExtTreeMap AttachId LeaseQueue,
      attaches.foldl (admitTo limits event) (emission, session) =
        (⟨emission.recipients ++ attaches.filter (session.accepts limits),
          emission.closed ++ (attaches.filter fun a => !session.accepts limits a).map (⟨·, .terminalEventLost⟩)⟩,
          { session with leases }) ∧
      ∀ a : AttachId, leases[a]? =
        if a ∈ attaches then session.leases[a]?.map (·.offered limits (event.routedTo a)) else session.leases[a]? := by
  induction attaches generalizing session emission with
  | nil => exact ⟨session.leases, by simp, by simp⟩
  | cons first rest ih =>
    obtain ⟨absent, distinct⟩ := List.nodup_cons.mp distinct
    obtain ⟨q, here⟩ := (TreeMap.mem_iff session.leases first).mp (attached first List.mem_cons_self)
    have others : ∀ a ∈ rest, first ≠ a := fun a member same => absent (same ▸ member)
    set session₁ : SessionEvents :=
      { session with leases := session.leases.insert first (q.offered limits (event.routedTo first)) } with served
    have find : ∀ a : AttachId, session₁.leases[a]? =
        if first = a then some (q.offered limits (event.routedTo first)) else session.leases[a]? := by
      intro a
      exact TreeMap.find_insert session.leases first a _
    have later : ∀ a ∈ rest, session₁.accepts limits a = session.accepts limits a := by
      intro a member
      rw [accepts, accepts, find, if_neg (others a member)]
    have keep : ∀ a ∈ rest, a ∈ session₁.leases := by
      intro a member
      rw [TreeMap.mem_iff, find, if_neg (others a member), ← TreeMap.mem_iff]
      exact attached a (List.mem_cons_of_mem _ member)
    rw [List.foldl_cons, admitTo_find here]
    obtain ⟨leases, run, lookup⟩ := ih distinct keep
      (if session.accepts limits first then { emission with recipients := emission.recipients ++ [first] }
        else { emission with closed := emission.closed ++ [⟨first, .terminalEventLost⟩] })
    refine ⟨leases, run.trans ?_, fun a => (lookup a).trans ?_⟩
    · rw [List.filter_congr later, List.filter_congr fun a member => congrArg Bool.not (later a member)]
      cases accepted : session.accepts limits first with
      | true => simp [accepted, served]
      | false => simp [accepted, served]
    · rw [find]
      by_cases same : first = a
      · subst same
        simp [absent, here]
      · simp [same, Ne.symm same]

theorem admitFrame_eq (limits : EventLimits) (event : Event) (session : SessionEvents) :
    ∃ leases : ExtTreeMap AttachId LeaseQueue,
      session.admitFrame limits event =
        (⟨session.leases.keys.filter (session.accepts limits),
          (session.leases.keys.filter fun a => !session.accepts limits a).map (⟨·, .terminalEventLost⟩)⟩,
          { session with leases }) ∧
      ∀ a : AttachId, leases[a]? = session.leases[a]?.map (·.offered limits (event.routedTo a)) := by
  obtain ⟨leases, run, lookup⟩ := foldl_admitTo session.leases.nodup_keys
    (fun a member => ExtTreeMap.mem_keys.mp member) {}
  refine ⟨leases, run.trans (by simp), fun a => (lookup a).trans ?_⟩
  split_ifs with member
  · rfl
  · rw [ExtTreeMap.mem_keys, TreeMap.mem_iff, ← Option.isSome_iff_exists, Option.not_isSome_iff_eq_none] at member
    rw [member]
    rfl

theorem admitFrame_find (limits : EventLimits) (event : Event) (session : SessionEvents) (a : AttachId) :
    (session.admitFrame limits event).2.leases[a]? = session.leases[a]?.map (·.offered limits (event.routedTo a)) := by
  obtain ⟨leases, run, find⟩ := admitFrame_eq limits event session
  rw [run]
  exact find a

theorem admitFrames_eq (limits : EventLimits) (frames : List Event) (session : SessionEvents) :
    ∃ leases : ExtTreeMap AttachId LeaseQueue,
      (session.admitFrames limits frames).2 = { session with leases } ∧
      ∀ a : AttachId, leases[a]? = session.leases[a]?.map (·.offeredAll limits a frames) := by
  induction frames generalizing session with
  | nil => exact ⟨session.leases, rfl, fun a => by simp [LeaseQueue.offeredAll]⟩
  | cons event rest ih =>
    obtain ⟨leases₁, run₁, find₁⟩ := admitFrame_eq limits event session
    obtain ⟨leases, run, find⟩ := ih { session with leases := leases₁ }
    refine ⟨leases, ?_, fun a => ?_⟩
    · simp only [admitFrames, run₁, run]
    · rw [find a, find₁ a, Option.map_map]
      rfl

theorem admitFrame_recipient (limits : EventLimits) (event : Event) (session : SessionEvents) :
    a ∈ (session.admitFrame limits event).1.recipients → session.accepts limits a = true := by
  intro member
  obtain ⟨leases, run, -⟩ := admitFrame_eq limits event session
  rw [run] at member
  exact (List.mem_filter.mp member).2

theorem admitFrame_closes (limits : EventLimits) (event : Event) (session : SessionEvents) :
    (session.admitFrame limits event).1.closes = session.leases.keys.filter fun a => !session.accepts limits a := by
  obtain ⟨leases, run, -⟩ := admitFrame_eq limits event session
  rw [run]
  exact (List.map_map ..).trans (List.map_id _)

theorem mem_admitFrame_closes :
    a ∈ (session.admitFrame limits event).1.closes ↔ a ∈ session.leases ∧ session.accepts limits a = false := by
  rw [admitFrame_closes, List.mem_filter, ExtTreeMap.mem_keys, Bool.not_eq_true']

theorem admitFrame_accepts (full : session.accepts limits a = false) :
    (session.admitFrame limits event).2.accepts limits a = false := by
  unfold accepts at full
  rw [accepts, admitFrame_find]
  cases here : session.leases[a]? with
  | none => rfl
  | some q =>
    have room : q.canAdmitControl limits limits.sizeOfEvent = false := by simpa [here] using full
    have same : q.offered limits (event.routedTo a) = q := by
      rw [LeaseQueue.offered, LeaseQueue.admit_control, room]
      rfl
    simpa [same] using room

theorem admitFrames_fst (limits : EventLimits) (frames : List Event) (session : SessionEvents) :
    (session.admitFrames limits frames).1.map Prod.fst = frames := by
  induction frames generalizing session with
  | nil => rfl
  | cons event rest ih => exact congrArg (event :: ·) (ih (session.admitFrame limits event).2)

theorem admitFrames_full (full : session.accepts limits a = false) :
    ∀ emission ∈ (session.admitFrames limits frames).1, a ∉ emission.2.recipients := by
  induction frames generalizing session with
  | nil => simp [admitFrames]
  | cons event rest ih =>
    intro emission member
    rcases List.mem_cons.mp member with rfl | later
    · intro received
      rw [admitFrame_recipient limits event session received] at full
      cases full
    · exact ih (admitFrame_accepts full) emission later

theorem admitFrames_final :
    (session.admitFrames limits frames).1.Pairwise fun early late => ∀ a ∈ early.2.closes, a ∉ late.2.recipients := by
  induction frames generalizing session with
  | nil => exact .nil
  | cons event rest ih =>
    refine .cons (fun late member a closed => ?_) ih
    exact admitFrames_full (admitFrame_accepts (mem_admitFrame_closes.mp closed).2) late member

theorem Counted.accepts (counted : session.Counted limits) {q : LeaseQueue} (here : session.leases[a]? = some q) :
    session.accepts limits a = decide (q.events.length < LeaseQueue.capacity limits) := by
  rw [SessionEvents.accepts, here, ← (counted a q here).canAdmitControl]
  rfl

theorem Counted.admitFrame (counted : session.Counted limits) : (session.admitFrame limits event).2.Counted limits := by
  intro a q here
  rw [admitFrame_find] at here
  obtain ⟨before, was, rfl⟩ := Option.map_eq_some_iff.mp here
  exact (counted a before was).offered_counted

theorem admitFrames_room (counted : session.Counted limits) {q : LeaseQueue} (here : session.leases[a]? = some q)
    (kept : a ∉ (session.admitFrames limits frames).1.flatMap (·.2.closes)) :
    frames.length ≤ LeaseQueue.capacity limits - q.events.length := by
  induction frames generalizing session q with
  | nil => exact Nat.zero_le _
  | cons event rest ih =>
    change a ∉ (session.admitFrame limits event).1.closes ++ _ at kept
    obtain ⟨first, later⟩ := not_or.mp fun closed => kept (List.mem_append.mpr closed)
    have room : q.events.length < LeaseQueue.capacity limits := by
      by_contra full
      refine first (mem_admitFrame_closes.mpr ⟨(TreeMap.mem_iff session.leases a).mpr ⟨q, here⟩, ?_⟩)
      rw [counted.accepts here, decide_eq_false_iff_not]
      exact full
    have next : (session.admitFrame limits event).2.leases[a]? = some (q.push limits (event.routedTo a)) := by
      rw [admitFrame_find, here, Option.map_some, (counted a q here).offered, if_pos room]
    have rest := ih counted.admitFrame next later
    simp only [LeaseQueue.push, List.length_append, List.length_singleton] at rest
    simp only [List.length_cons]
    omega

def Spares (limits : EventLimits) (count : Nat) (session : SessionEvents) : Prop :=
  ∀ (a : AttachId) q, session.leases[a]? = some q → q.events.length + count ≤ LeaseQueue.capacity limits + 1

theorem admitFrames_once (counted : session.Counted limits) (spares : session.Spares limits frames.length) :
    ((session.admitFrames limits frames).1.flatMap (·.2.closes)).Nodup := by
  induction frames generalizing session with
  | nil => exact .nil
  | cons event rest ih =>
    change ((session.admitFrame limits event).1.closes ++ _).Nodup
    cases rest with
    | nil =>
      rw [admitFrame_closes]
      refine (List.append_nil _).symm ▸ ?_
      exact session.leases.nodup_keys.filter _
    | cons next rest =>
      have none : (session.admitFrame limits event).1.closes = [] := by
        rw [List.eq_nil_iff_forall_not_mem]
        intro a closed
        obtain ⟨attached, full⟩ := mem_admitFrame_closes.mp closed
        obtain ⟨q, here⟩ := (TreeMap.mem_iff session.leases a).mp attached
        have spare := spares a q here
        rw [counted.accepts here, decide_eq_false_iff_not] at full
        simp only [List.length_cons] at spare
        omega
      rw [none, List.nil_append]
      refine ih counted.admitFrame fun a q here => ?_
      replace here := (admitFrame_find limits event session a).symm.trans here
      obtain ⟨before, was, rfl⟩ := Option.map_eq_some_iff.mp here
      have spare := spares a before was
      rw [(counted a before was).offered]
      simp only [List.length_cons] at spare ⊢
      split_ifs with room
      · simp only [LeaseQueue.push, List.length_append, List.length_singleton]
        omega
      · omega

theorem burst_revisions (ahead : session.revision < event.revision) :
    (session.burst event).map (·.revision) = List.range' (session.revision + 1) (event.revision - session.revision) := by
  have last : event.revision = session.revision + 1 + 1 * (event.revision - (session.revision + 1)) := by omega
  have length : event.revision - session.revision = event.revision - (session.revision + 1) + 1 := by omega
  rw [length, List.range'_concat, ← last, burst, List.map_append, List.map_map]
  congr 1
  exact List.map_id _

theorem burst_length (ahead : session.revision < event.revision) :
    (session.burst event).length = event.revision - session.revision := by
  rw [← List.length_map (·.revision), burst_revisions ahead, List.length_range']

@[simp] theorem leases_recorded : (session.recorded limits event).leases = session.leases := by
  unfold recorded
  dsimp only
  split_ifs <;> rfl

@[simp] theorem revision_recorded : (session.recorded limits event).revision = event.revision := by
  unfold recorded
  dsimp only
  split_ifs <;> rfl

theorem terminal_recorded : (session.recorded limits event).terminal =
    if event.kind = .sessionTerminal then some ⟨event, ExtTreeSet.ofList session.leases.keys⟩ else session.terminal := by
  unfold recorded
  dsimp only
  split_ifs <;> rfl

end SessionEvents

end Bitty.Daemon.Events
