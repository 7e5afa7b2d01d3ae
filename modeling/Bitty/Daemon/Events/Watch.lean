import Bitty.Daemon.Events.Burst

namespace Bitty.Daemon.Events

open Std

/-- What was seen of one lease since its attach: the session revision then, the frames handed to the
transport, and each frame ever queued, with whether it carries a revision of its own. -/
structure Handed where
  since : Nat := 0
  drained : List Event := []
  frames : List (Event × Bool) := []

namespace Handed

def see (numbered : Bool) (queue : LeaseQueue) (h : Handed) : Handed :=
  { h with frames := h.frames ++ ((h.drained ++ queue.events).drop h.frames.length).map (·, numbered) }

def take (frames : List Event) (h : Handed) : Handed := { h with drained := h.drained ++ frames }

def revisions (h : Handed) : List Nat := (h.frames.filter (·.2)).map (·.1.revision)

end Handed

/-- What was seen of one session since it was registered: its leases, the revisions that it emitted,
the leases that still owe an answer to its terminal event, and those reported closed and not yet
detached. -/
structure Seen where
  handed : AttachId → Handed := fun _ => {}
  emitted : List Nat := []
  due : List AttachId := []
  closing : List AttachId := []

structure Watch where
  bus : EventBus
  seen : SessionId → Seen := fun _ => {}
  reports : List (List Emission) := []

inductive Call
  | register (sessionId : SessionId)
  | remove (sessionId : SessionId)
  | attach (sessionId : SessionId) (attachId : AttachId)
  | detach (sessionId : SessionId) (attachId : AttachId)
  | emit (sessionId : SessionId) (revision : Nat) (kind : EventKind) (detail : EventDetail)
      (terminal : Option TerminalMarker) (now : MonotonicMs)
  | emitScoped (sessionId : SessionId) (kind : EventKind) (detail : EventDetail) (now : MonotonicMs)
  | emitTo (sessionId : SessionId) (attachId : AttachId) (revision : Nat) (kind : EventKind)
      (detail : EventDetail) (now : MonotonicMs)
  | drain (sessionId : SessionId) (attachId : AttachId)
  | drainNext (sessionId : SessionId) (attachId : AttachId)
  | ackTerminal (sessionId : SessionId) (attachId : AttachId)

namespace Seen

def attach (attachId : AttachId) (revision : Nat) (seen : Seen) : Seen :=
  { seen with handed := Function.update seen.handed attachId { since := revision } }

def settle (attachId : AttachId) (seen : Seen) : Seen := { seen with due := seen.due.filter (· ≠ attachId) }

def detach (attachId : AttachId) (seen : Seen) : Seen :=
  { seen.settle attachId with closing := seen.closing.filter (· ≠ attachId) }

def take (attachId : AttachId) (frames : List Event) (seen : Seen) : Seen :=
  { seen with handed := Function.update seen.handed attachId ((seen.handed attachId).take frames) }

def report (numbered : Bool) (leases : ExtTreeMap AttachId LeaseQueue) (closed : List AttachId) (seen : Seen) : Seen :=
  { seen with
    handed := fun attachId => (seen.handed attachId).see numbered (leases[attachId]?.getD {})
    closing := seen.closing ++ closed }

end Seen

namespace Watch

def new (instanceId : DaemonInstanceId) (limits : EventLimits) : Watch := { bus := .new instanceId limits }

def leases (bus : EventBus) (sessionId : SessionId) : ExtTreeMap AttachId LeaseQueue :=
  (bus.sessions[sessionId]?.map (·.leases)).getD ∅

def unnumbered (sessionId : SessionId) (outcome : Option Emission × EventBus) (w : Watch) : Watch :=
  match outcome with
  | (none, bus) => { w with bus }
  | (some emission, bus) =>
    { w with
      bus
      seen := Function.update w.seen sessionId
        ((w.seen sessionId).report false (leases bus sessionId) emission.closes)
      reports := [emission] :: w.reports }

/-- An emission of new revisions. Where it is terminal, the leases of before owe an answer. -/
def numbered (sessionId : SessionId) (kind : EventKind) (outcome : Option (List (Event × Emission)) × EventBus)
    (w : Watch) : Watch :=
  match outcome with
  | (none, bus) => { w with bus }
  | (some emissions, bus) =>
    let seen := (w.seen sessionId).report true (leases bus sessionId) (emissions.flatMap (·.2.closes))
    { bus
      seen := Function.update w.seen sessionId
        { seen with
          emitted := seen.emitted ++ emissions.map (·.1.revision)
          due := if kind = .sessionTerminal then (leases w.bus sessionId).keys else seen.due }
      reports := emissions.map (·.2) :: w.reports }

def next (w : Watch) : Call → Watch
  | .register sessionId => { w with bus := w.bus.register sessionId }
  | .remove sessionId => { w with bus := (w.bus.remove sessionId).2, seen := Function.update w.seen sessionId {} }
  | .attach sessionId attachId =>
    { w with
      bus := (w.bus.attach sessionId attachId).2
      seen := match w.bus.sessions[sessionId]? with
        | none => w.seen
        | some session => Function.update w.seen sessionId ((w.seen sessionId).attach attachId session.revision) }
  | .detach sessionId attachId =>
    { w with
      bus := w.bus.detach sessionId attachId
      seen := Function.update w.seen sessionId ((w.seen sessionId).detach attachId) }
  | .emit sessionId revision kind detail terminal now =>
    w.numbered sessionId kind (w.bus.emitEach sessionId revision kind detail terminal now)
  | .emitScoped sessionId kind detail now => w.unnumbered sessionId (w.bus.emitScoped sessionId kind detail now)
  | .emitTo sessionId attachId revision kind detail now =>
    w.unnumbered sessionId (w.bus.emitTo sessionId (some attachId) revision kind detail now)
  | .drain sessionId attachId =>
    { w with
      bus := (w.bus.drain sessionId attachId).2
      seen := Function.update w.seen sessionId
        ((w.seen sessionId).take attachId (w.bus.drain sessionId attachId).1) }
  | .drainNext sessionId attachId =>
    { w with
      bus := (w.bus.drainNext sessionId attachId).2
      seen := Function.update w.seen sessionId
        ((w.seen sessionId).take attachId (w.bus.drainNext sessionId attachId).1.toList) }
  | .ackTerminal sessionId attachId =>
    { w with
      bus := w.bus.ackTerminal sessionId attachId
      seen := Function.update w.seen sessionId ((w.seen sessionId).settle attachId) }

def Prompt (w : Watch) : Call → Prop
  | .emit sessionId .. | .emitScoped sessionId .. | .emitTo sessionId .. => (w.seen sessionId).closing = []
  | _ => True

instance (w : Watch) : (call : Call) → Decidable (w.Prompt call)
  | .emit sessionId .. | .emitScoped sessionId .. | .emitTo sessionId .. =>
    inferInstanceAs (Decidable ((w.seen sessionId).closing = []))
  | .register .. | .remove .. | .attach .. | .detach .. | .drain .. | .drainNext .. | .ackTerminal .. =>
    inferInstanceAs (Decidable True)

/-- Every queue has room for all frames of the emission but one, and a terminal event finds a lease. -/
def Clear (w : Watch) : Call → Prop
  | .emit sessionId revision kind .. => ∀ session, w.bus.sessions[sessionId]? = some session →
      session.revision < revision →
        session.Spares w.bus.limits (revision - session.revision) ∧
          (kind = .sessionTerminal → ∃ a : AttachId, a ∈ session.leases)
  | _ => True

inductive Run (condition : Watch → Call → Prop) (instanceId : DaemonInstanceId) (limits : EventLimits) : Watch → Prop
  | start : Run condition instanceId limits (new instanceId limits)
  | next {w : Watch} {call : Call} (run : Run condition instanceId limits w) (prompt : w.Prompt call)
      (met : condition w call) : Run condition instanceId limits (w.next call)

/-- The frames drained for an attached lease and then its queue are the frames it was sent, and the
revisions among them are consecutive from the one after its attach on. -/
def Consecutive (w : Watch) : Prop :=
  ∀ (s : SessionId) session, w.bus.sessions[s]? = some session → ∀ (a : AttachId) queue, session.leases[a]? = some queue →
    ((w.seen s).handed a).frames.map Prod.fst = ((w.seen s).handed a).drained ++ queue.events ∧
    ∃ count, ((w.seen s).handed a).revisions = List.range' (((w.seen s).handed a).since + 1) count ∧
      (a ∉ (w.seen s).closing → ((w.seen s).handed a).since + count = session.revision)

def Once (w : Watch) : Prop :=
  ∀ (s : SessionId) session, w.bus.sessions[s]? = some session →
    (w.seen s).emitted = List.range' 1 session.revision

/-- An emission reports a lease once, and queues no later frame for it. -/
def Tidy (w : Watch) : Prop :=
  ∀ emissions ∈ w.reports,
    (Emission.concat emissions).closes.Nodup ∧
      emissions.Pairwise fun early late => ∀ a ∈ early.closes, a ∉ late.recipients

def Pinned (w : Watch) : Prop :=
  ∀ (s : SessionId) session, w.bus.sessions[s]? = some session →
    (session.terminal.isSome ↔ ∃ a, a ∈ (w.seen s).due)

structure Policy (w : Watch) : Prop where
  consecutive : w.Consecutive
  once : w.Once
  tidy : w.Tidy
  pinned : w.Pinned

end Watch

end Bitty.Daemon.Events

namespace Bitty.Daemon.Events

open Std

namespace Handed

variable {h : Handed} {queue queue' : LeaseQueue} {numbered : Bool}

def Matches (h : Handed) (queue : LeaseQueue) : Prop := h.frames.map Prod.fst = h.drained ++ queue.events

theorem Matches.see (known : h.Matches queue) (frames : List Event) (more : queue'.events = queue.events ++ frames) :
    h.see numbered queue' = { h with frames := h.frames ++ frames.map (·, numbered) } := by
  have length : h.frames.length = (h.drained ++ queue.events).length := by
    rw [← known, List.length_map]
  rw [Handed.see, more, ← List.append_assoc, length, List.drop_left]

theorem Matches.see_matches (known : h.Matches queue) (frames : List Event)
    (more : queue'.events = queue.events ++ frames) : (h.see numbered queue').Matches queue' := by
  have known' : h.frames.map Prod.fst = h.drained ++ queue.events := known
  rw [known.see frames more, Matches, List.map_append, known', List.map_map, more, List.append_assoc]
  congr 2
  exact List.map_id frames

theorem Matches.see_revisions (known : h.Matches queue) (frames : List Event)
    (more : queue'.events = queue.events ++ frames) :
    (h.see numbered queue').revisions = h.revisions ++ if numbered then frames.map (·.revision) else [] := by
  rw [known.see frames more]
  cases numbered with
  | true => simp [revisions, List.filter_map, Function.comp_def]
  | false => simp [revisions, List.filter_map, Function.comp_def]

theorem Matches.take (known : h.Matches queue) (frames : List Event) (split : queue.events = frames ++ queue'.events) :
    (h.take frames).Matches queue' := by
  have known' : h.frames.map Prod.fst = h.drained ++ queue.events := known
  simp only [Matches, Handed.take, known', split, List.append_assoc]

end Handed

structure Handed.Holds (revision : Nat) (closing : Bool) (queue : LeaseQueue) (h : Handed) : Prop where
  known : h.Matches queue
  revisions : ∃ count, h.revisions = List.range' (h.since + 1) count ∧ (closing = false → h.since + count = revision)

namespace Handed.Holds

variable {h : Handed} {queue queue' : LeaseQueue} {revision : Nat} {closing : Bool}

theorem fresh (revision : Nat) (closing : Bool) : Handed.Holds revision closing {} { since := revision } :=
  ⟨rfl, 0, rfl, fun _ => rfl⟩

theorem closed (holds : h.Holds revision closing queue) : h.Holds revision true queue := by
  obtain ⟨known, count, revisions, -⟩ := holds
  refine ⟨known, count, revisions, fun impossible => ?_⟩
  cases impossible

theorem take (holds : h.Holds revision closing queue) (frames : List Event)
    (split : queue.events = frames ++ queue'.events) : (h.take frames).Holds revision closing queue' := by
  obtain ⟨known, revisions⟩ := holds
  exact ⟨known.take frames split, revisions⟩

theorem see_unnumbered (holds : h.Holds revision closing queue) (frames : List Event)
    (more : queue'.events = queue.events ++ frames) : (h.see false queue').Holds revision closing queue' := by
  obtain ⟨known, revisions⟩ := holds
  refine ⟨known.see_matches frames more, ?_⟩
  rw [known.see_revisions frames more]
  simpa [Handed.see] using revisions

theorem see_numbered (holds : h.Holds revision false queue) {frames : List Event} {taken total : Nat}
    (more : queue'.events = queue.events ++ frames)
    (following : frames.map (·.revision) = List.range' (revision + 1) taken)
    (served : closing = false → taken = total) : (h.see true queue').Holds (revision + total) closing queue' := by
  obtain ⟨known, count, revisions, current⟩ := holds
  have now := current rfl
  refine ⟨known.see_matches frames more, count + taken, ?_, fun kept => ?_⟩
  · have since : (h.see true queue').since = h.since := rfl
    have next : revision + 1 = h.since + 1 + 1 * count := by omega
    rw [known.see_revisions frames more, if_pos rfl, revisions, following, since, next, List.range'_append]
  · have since : (h.see true queue').since = h.since := rfl
    have all := served kept
    omega

end Handed.Holds

def Owed (due : List AttachId) : Option TerminalPin → Prop
  | none => due = []
  | some pin => due ≠ [] ∧ ∀ a, a ∈ pin.pending ↔ a ∈ due

theorem Owed.settle {due : List AttachId} {terminal : Option TerminalPin} (owed : Owed due terminal) (a : AttachId) :
    Owed (due.filter (· ≠ a)) (terminal.bind (·.release a)) := by
  cases terminal with
  | none =>
    have none : due = [] := owed
    subst none
    rfl
  | some pin =>
    obtain ⟨-, pending⟩ := owed
    have rest : ∀ b, b ∈ pin.pending.erase a ↔ b ∈ due.filter (· ≠ a) := by
      intro b
      rw [ExtTreeSet.mem_erase, pending b, List.mem_filter, ne_eq, LawfulEqCmp.compare_eq_iff_eq, decide_eq_true_iff,
        eq_comm, and_comm]
    rw [Option.bind_some, TerminalPin.release]
    split_ifs with empty
    · rw [ExtTreeSet.isEmpty_iff] at empty
      change due.filter (· ≠ a) = []
      rw [List.eq_nil_iff_forall_not_mem]
      intro b member
      rw [← rest b, empty] at member
      exact ExtTreeSet.not_mem_empty member
    · refine ⟨fun none => empty ?_, rest⟩
      rw [ExtTreeSet.isEmpty_iff, ExtTreeSet.eq_empty_iff_forall_not_mem]
      intro b member
      rw [rest b, none] at member
      cases member

theorem take_revisions (start count total : Nat) :
    (List.range' start total).take count = List.range' start (min count total) := by
  rcases Nat.le_total count total with fewer | all
  · rw [List.take_range'_of_length_ge fewer, Nat.min_eq_left fewer]
  · rw [List.take_range'_of_length_le all, Nat.min_eq_right all]

namespace Seen

structure Holds (limits : EventLimits) (session : SessionEvents) (seen : Seen) : Prop where
  counted : session.Counted limits
  leases : ∀ (a : AttachId) queue, session.leases[a]? = some queue →
    (seen.handed a).Holds session.revision (decide (a ∈ seen.closing)) queue
  emitted : seen.emitted = List.range' 1 session.revision
  owed : Owed seen.due session.terminal

namespace Holds

variable {limits : EventLimits} {session : SessionEvents} {seen : Seen} {a : AttachId}

theorem new (limits : EventLimits) : Holds limits (.new limits) {} where
  counted a q here := by simp [SessionEvents.new] at here
  leases a q here := by simp [SessionEvents.new] at here
  emitted := rfl
  owed := rfl

theorem attach (holds : Holds limits session seen) (a : AttachId) :
    Holds limits { session with leases := session.leases.insert a {} } (seen.attach a session.revision) where
  counted b q here := by
    replace here := (TreeMap.find_insert session.leases a b {}).symm.trans here
    split_ifs at here with same
    · cases here
      exact LeaseQueue.counted_new limits
    · exact holds.counted b q here
  leases b q here := by
    replace here := (TreeMap.find_insert session.leases a b {}).symm.trans here
    split_ifs at here with same
    · subst same
      cases here
      have fresh : (seen.attach a session.revision).handed a = { since := session.revision } := Function.update_self ..
      rw [fresh]
      exact .fresh session.revision _
    · have other : (seen.attach a session.revision).handed b = seen.handed b :=
        Function.update_of_ne (Ne.symm same) ..
      rw [other]
      exact holds.leases b q here
  emitted := holds.emitted
  owed := holds.owed

theorem settle (holds : Holds limits session seen) (a : AttachId) :
    Holds limits (session.ackTerminal a) (seen.settle a) where
  counted := holds.counted
  leases := holds.leases
  emitted := holds.emitted
  owed := holds.owed.settle a

theorem detach (holds : Holds limits session seen) (a : AttachId) :
    Holds limits (session.detach a) (seen.detach a) where
  counted b q here := by
    replace here := (TreeMap.find_erase session.leases a b).symm.trans here
    split_ifs at here
    exact holds.counted b q here
  leases b q here := by
    replace here := (TreeMap.find_erase session.leases a b).symm.trans here
    split_ifs at here with same
    have closing : decide (b ∈ (seen.detach a).closing) = decide (b ∈ seen.closing) := by
      simp [Seen.detach, Ne.symm same]
    rw [closing]
    exact holds.leases b q here
  emitted := holds.emitted
  owed := holds.owed.settle a

theorem take (holds : Holds limits session seen) {q q' : LeaseQueue} (here : session.leases[a]? = some q)
    (counted : q'.Counted limits) (frames : List Event) (split : q.events = frames ++ q'.events) :
    Holds limits { session with leases := session.leases.insert a q' } (seen.take a frames) where
  counted b r found := by
    replace found := (TreeMap.find_insert session.leases a b q').symm.trans found
    split_ifs at found
    · cases found
      exact counted
    · exact holds.counted b r found
  leases b r found := by
    replace found := (TreeMap.find_insert session.leases a b q').symm.trans found
    split_ifs at found with same
    · subst same
      cases found
      have taken : (seen.take a frames).handed a = (seen.handed a).take frames := Function.update_self ..
      rw [taken]
      exact (holds.leases a q here).take frames split
    · have other : (seen.take a frames).handed b = seen.handed b := Function.update_of_ne (Ne.symm same) ..
      rw [other]
      exact holds.leases b r found
  emitted := holds.emitted
  owed := holds.owed

theorem emit (holds : Holds limits session seen) (prompt : seen.closing = []) {event : Event}
    (ahead : session.revision < event.revision) (attended : event.kind = .sessionTerminal → ∃ a : AttachId, a ∈ session.leases) :
    Holds limits (session.emit limits event).2
      { seen.report true (session.emit limits event).2.leases
          ((session.emit limits event).1.flatMap (·.2.closes)) with
        emitted := seen.emitted ++ (session.emit limits event).1.map (·.1.revision)
        due := if event.kind = .sessionTerminal then session.leases.keys else seen.due } := by
  have recorded : (session.recorded limits event).Counted limits := by
    intro a q here
    rw [SessionEvents.leases_recorded] at here
    exact holds.counted a q here
  obtain ⟨leases, run, find⟩ :=
    SessionEvents.admitFrames_eq limits (session.burst event) (session.recorded limits event)
  rw [SessionEvents.leases_recorded] at find
  have total := SessionEvents.burst_length ahead
  have revisions := SessionEvents.burst_revisions ahead
  have ran : (session.emit limits event).2 = { session.recorded limits event with leases } := run
  have frames : (session.emit limits event).1.map (·.1.revision) = (session.burst event).map (·.revision) := by
    have events : (session.emit limits event).1.map Prod.fst = session.burst event := SessionEvents.admitFrames_fst ..
    rw [← events, List.map_map]
    rfl
  have final : (session.recorded limits event).revision = session.revision + (session.burst event).length := by
    rw [SessionEvents.revision_recorded]
    omega
  rw [ran, frames]
  refine ⟨fun a q here => ?_, fun a q here => ?_, ?_, ?_⟩
  · obtain ⟨before, was, rfl⟩ := Option.map_eq_some_iff.mp ((find a).symm.trans here)
    exact (holds.counted a before was).offeredAll.1
  · obtain ⟨before, was, rfl⟩ := Option.map_eq_some_iff.mp ((find a).symm.trans here)
    have held := holds.leases a before was
    rw [prompt, decide_eq_false List.not_mem_nil] at held
    change (((seen.handed a).see true (leases[a]?.getD {}))).Holds (session.recorded limits event).revision _ _
    rw [final, here, Option.getD_some]
    have numbers : (((session.burst event).take (LeaseQueue.capacity limits - before.events.length)).map
        (·.routedTo a)).map (·.revision) = List.range' (session.revision + 1)
          (min (LeaseQueue.capacity limits - before.events.length) (session.burst event).length) := by
      rw [List.map_map]
      change ((session.burst event).take _).map (·.revision) = _
      rw [List.map_take, revisions, take_revisions, total]
    refine held.see_numbered (holds.counted a before was).offeredAll.2 numbers ?_
    · intro kept
      -- A lease that is not closed had room for every frame.
      have open' : a ∉ (session.emit limits event).1.flatMap (·.2.closes) := by
        intro closed
        simp [Seen.report, closed] at kept
      have room := SessionEvents.admitFrames_room recorded (q := before) (by simpa using was) open'
      omega
  · change seen.emitted ++ _ = List.range' 1 (session.recorded limits event).revision
    rw [holds.emitted, revisions, final, total, Nat.add_comm session.revision 1, List.range'_append_1]
  · change Owed _ (session.recorded limits event).terminal
    rw [SessionEvents.terminal_recorded]
    split_ifs with terminal
    · obtain ⟨a, attached⟩ := attended terminal
      refine ⟨fun none => ?_, fun b => ?_⟩
      · have keys : session.leases.keys = [] := none
        have member := ExtTreeMap.mem_keys.mpr attached
        rw [keys] at member
        cases member
      · rw [ExtTreeSet.mem_ofList, List.contains_iff_mem]
    · exact holds.owed

theorem unnumbered (holds : Holds limits session seen) {leases : ExtTreeMap AttachId LeaseQueue}
    (grown : ∀ (a : AttachId) (q : LeaseQueue), leases[a]? = some q →
      q.Counted limits ∧ ∃ (before : LeaseQueue) (frames : List Event), session.leases[a]? = some before ∧ q.events = before.events ++ frames)
    (closed : List AttachId) : Holds limits { session with leases } (seen.report false leases closed) where
  counted a q here := (grown a q here).1
  leases a q here := by
    obtain ⟨before, frames, was, more⟩ := (grown a q here).2
    have held := (holds.leases a before was).see_unnumbered frames more
    have seeing : (seen.report false leases closed).handed a = (seen.handed a).see false q := by
      change (seen.handed a).see false (leases[a]?.getD {}) = _
      rw [here]
      rfl
    rw [seeing]
    by_cases listed : a ∈ closed
    · have closing : decide (a ∈ (seen.report false leases closed).closing) = true := by simp [Seen.report, listed]
      rw [closing]
      exact held.closed
    · have closing : decide (a ∈ (seen.report false leases closed).closing) = decide (a ∈ seen.closing) := by
        simp [Seen.report, listed]
      rw [closing]
      exact held
  emitted := holds.emitted
  owed := holds.owed

end Holds

end Seen

end Bitty.Daemon.Events
