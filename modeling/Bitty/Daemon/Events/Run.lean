import Bitty.Library.Recent
import Bitty.Daemon.Events.Watch

namespace Bitty.Daemon.Events

open Std

namespace Watch

def Fits (limits : EventLimits) (seen : Seen) : Option SessionEvents → Prop
  | none => seen = {}
  | some session => seen.Holds limits session

structure Sound (w : Watch) : Prop where
  sessions : ∀ s : SessionId, Fits w.bus.limits (w.seen s) w.bus.sessions[s]?
  tidy : w.Tidy

variable {w : Watch} {bus : EventBus} {sessionId : SessionId} {session : SessionEvents} {attachId : AttachId}

theorem Sound.found (sound : w.Sound) (here : w.bus.sessions[sessionId]? = some session) :
    (w.seen sessionId).Holds w.bus.limits session := by
  have fits := sound.sessions sessionId
  rwa [here] at fits

theorem Sound.absent (sound : w.Sound) (missing : w.bus.sessions[sessionId]? = none) : w.seen sessionId = {} := by
  have fits := sound.sessions sessionId
  rwa [missing] at fits

theorem Sound.local (sound : w.Sound) (bus : EventBus) (limits : bus.limits = w.bus.limits) {seen : Seen}
    (other : ∀ s : SessionId, sessionId ≠ s → bus.sessions[s]? = w.bus.sessions[s]?)
    (fits : Fits w.bus.limits seen bus.sessions[sessionId]?) {reports : List (List Emission)}
    (tidy : ∀ emissions ∈ reports, (Emission.concat emissions).closes.Nodup ∧
      emissions.Pairwise fun early late => ∀ a ∈ early.closes, a ∉ late.recipients) :
    Sound { bus, seen := Function.update w.seen sessionId seen, reports } := by
  refine ⟨fun s => ?_, tidy⟩
  change Fits bus.limits (Function.update w.seen sessionId seen s) bus.sessions[s]?
  rw [limits]
  by_cases same : sessionId = s
  · subst same
    rwa [Function.update_self]
  · rw [Function.update_of_ne (Ne.symm same), other s same]
    exact sound.sessions s

theorem Sound.modify (sound : w.Sound) (f : SessionEvents → SessionEvents) (g : Seen → Seen) (blank : g {} = {})
    (kept : ∀ session, w.bus.sessions[sessionId]? = some session → (w.seen sessionId).Holds w.bus.limits session →
      (g (w.seen sessionId)).Holds w.bus.limits (f session)) :
    Sound { w with
      bus := { w.bus with sessions := w.bus.sessions.modify sessionId f }
      seen := Function.update w.seen sessionId (g (w.seen sessionId)) } := by
  refine sound.local { w.bus with sessions := w.bus.sessions.modify sessionId f } rfl (fun s other => ?_) ?_ sound.tidy
  · exact (TreeMap.find_modify w.bus.sessions sessionId s f).trans (if_neg other)
  · change Fits _ _ (w.bus.sessions.modify sessionId f)[sessionId]?
    rw [TreeMap.find_modify, if_pos rfl]
    cases here : w.bus.sessions[sessionId]? with
    | none =>
      change g (w.seen sessionId) = {}
      rw [sound.absent here, blank]
    | some session => exact kept session here (sound.found here)

theorem Sound.replace (sound : w.Sound) {seen : Seen} (holds : seen.Holds w.bus.limits session)
    {reports : List (List Emission)}
    (tidy : ∀ emissions ∈ reports, (Emission.concat emissions).closes.Nodup ∧
      emissions.Pairwise fun early late => ∀ a ∈ early.closes, a ∉ late.recipients) :
    Sound
      { bus := { w.bus with sessions := w.bus.sessions.insert sessionId session }
        seen := Function.update w.seen sessionId seen
        reports } := by
  refine sound.local { w.bus with sessions := w.bus.sessions.insert sessionId session } rfl (fun s other => ?_) ?_ tidy
  · exact (TreeMap.find_insert w.bus.sessions sessionId s session).trans (if_neg other)
  · change Fits _ _ (w.bus.sessions.insert sessionId session)[sessionId]?
    rw [TreeMap.find_insert, if_pos rfl]
    exact holds

theorem new_sound (instanceId : DaemonInstanceId) (limits : EventLimits) : (new instanceId limits).Sound where
  sessions s := by
    change Fits limits {} (∅ : ExtTreeMap SessionId SessionEvents)[s]?
    rw [ExtTreeMap.getElem?_empty]
    rfl
  tidy emissions member := by cases member

theorem Sound.register (sound : w.Sound) (sessionId : SessionId) : (w.next (.register sessionId)).Sound := by
  refine ⟨fun s => ?_, sound.tidy⟩
  change Fits w.bus.limits (w.seen s) (w.bus.sessions.insertIfNew sessionId (.new w.bus.limits))[s]?
  rw [ExtTreeMap.getElem?_insertIfNew]
  split_ifs with fresh
  · rw [LawfulEqCmp.compare_eq_iff_eq] at fresh
    obtain ⟨rfl, missing⟩ := fresh
    rw [sound.absent (by simpa [TreeMap.mem_iff, Option.eq_none_iff_forall_ne_some] using missing)]
    exact .new w.bus.limits
  · exact sound.sessions s

theorem Sound.remove (sound : w.Sound) (sessionId : SessionId) : (w.next (.remove sessionId)).Sound := by
  refine sound.local (w.bus.remove sessionId).2 rfl (fun s other => ?_) ?_ sound.tidy
  · exact (TreeMap.find_erase w.bus.sessions sessionId s).trans (if_neg other)
  · change Fits _ _ (w.bus.sessions.erase sessionId)[sessionId]?
    rw [TreeMap.find_erase, if_pos rfl]
    rfl

theorem Sound.attach (sound : w.Sound) (sessionId : SessionId) (attachId : AttachId) :
    (w.next (.attach sessionId attachId)).Sound := by
  unfold next EventBus.attach
  dsimp only
  cases here : w.bus.sessions[sessionId]? with
  | none => exact sound
  | some session => exact sound.replace ((sound.found here).attach attachId) sound.tidy

theorem Sound.detach (sound : w.Sound) (sessionId : SessionId) (attachId : AttachId) :
    (w.next (.detach sessionId attachId)).Sound :=
  sound.modify (·.detach attachId) (·.detach attachId) rfl fun _ _ holds => holds.detach attachId

theorem Sound.ackTerminal (sound : w.Sound) (sessionId : SessionId) (attachId : AttachId) :
    (w.next (.ackTerminal sessionId attachId)).Sound :=
  sound.modify (·.ackTerminal attachId) (·.settle attachId) rfl fun _ _ holds => holds.settle attachId

theorem take_nil (attachId : AttachId) (seen : Seen) : seen.take attachId [] = seen := by
  have same : (seen.handed attachId).take [] = seen.handed attachId := by simp [Handed.take]
  rw [Seen.take, same, Function.update_eq_self]

theorem Sound.take (sound : w.Sound) {q q' : LeaseQueue} (here : w.bus.queue sessionId attachId = some q)
    {frames : List Event} (counted : q.Counted w.bus.limits → q'.Counted w.bus.limits)
    (split : q.events = frames ++ q'.events) :
    Sound { w with
      bus := w.bus.setQueue sessionId attachId q'
      seen := Function.update w.seen sessionId ((w.seen sessionId).take attachId frames) } := by
  obtain ⟨session, found, queue⟩ := Option.bind_eq_some_iff.mp here
  have fits := (sound.found found).take queue (counted ((sound.found found).counted attachId q queue)) frames split
  refine sound.local (w.bus.setQueue sessionId attachId q') rfl (fun s other => ?_) ?_ sound.tidy
  · exact (TreeMap.find_modify w.bus.sessions sessionId s _).trans (if_neg other)
  · change Fits _ _ (w.bus.sessions.modify sessionId _)[sessionId]?
    rw [TreeMap.find_modify, if_pos rfl, found]
    exact fits

theorem Sound.drain (sound : w.Sound) (sessionId : SessionId) (attachId : AttachId) :
    (w.next (.drain sessionId attachId)).Sound := by
  change Sound { w with bus := (w.bus.drain sessionId attachId).2, seen := _ }
  unfold EventBus.drain
  cases here : w.bus.queue sessionId attachId with
  | none =>
    dsimp only
    rw [take_nil, Function.update_eq_self]
    exact sound
  | some q =>
    have emptied : q.Counted w.bus.limits → q.drain.2.Counted w.bus.limits := fun _ => (Nat.zero_mul _).symm
    exact sound.take here emptied (List.append_nil _).symm

theorem Sound.drainNext (sound : w.Sound) (sessionId : SessionId) (attachId : AttachId) :
    (w.next (.drainNext sessionId attachId)).Sound := by
  change Sound { w with bus := (w.bus.drainNext sessionId attachId).2, seen := _ }
  unfold EventBus.drainNext
  cases here : w.bus.queue sessionId attachId with
  | none =>
    dsimp only [Option.toList_none]
    rw [take_nil, Function.update_eq_self]
    exact sound
  | some q =>
    exact sound.take here (fun counted => counted.popFront) (q.popFront_split w.bus.limits)

theorem Sound.unnumbered (sound : w.Sound) (here : w.bus.sessions[sessionId]? = some session)
    {leases : ExtTreeMap AttachId LeaseQueue} {emission : Emission}
    (grown : ∀ (a : AttachId) (q : LeaseQueue), leases[a]? = some q → q.Counted w.bus.limits ∧
      ∃ (before : LeaseQueue) (frames : List Event), session.leases[a]? = some before ∧ q.events = before.events ++ frames)
    (once : emission.closes.Nodup) :
    (w.unnumbered sessionId (some emission,
      { w.bus with sessions := w.bus.sessions.insert sessionId { session with leases } })).Sound := by
  have kept : Watch.leases { w.bus with sessions := w.bus.sessions.insert sessionId { session with leases } } sessionId =
      leases := by
    rw [Watch.leases, TreeMap.find_insert, if_pos rfl]
    rfl
  unfold Watch.unnumbered
  dsimp only
  rw [kept]
  refine sound.replace ((sound.found here).unnumbered grown emission.closes) fun emissions member => ?_
  rcases List.mem_cons.mp member with rfl | old
  · refine ⟨?_, List.pairwise_singleton ..⟩
    simpa [Emission.concat, Emission.closes] using once
  · exact sound.tidy emissions old

theorem offered_grown {limits : EventLimits} {q : LeaseQueue} (counted : q.Counted limits) (event : Event) :
    (q.offered limits event).Counted limits ∧ ∃ frames, (q.offered limits event).events = q.events ++ frames := by
  refine ⟨counted.offered_counted, ?_⟩
  rw [counted.offered]
  split_ifs
  · exact ⟨[event], rfl⟩
  · exact ⟨[], (List.append_nil _).symm⟩

theorem Sound.emitScoped (sound : w.Sound) (sessionId : SessionId) (kind : EventKind) (detail : EventDetail)
    (now : MonotonicMs) : (w.next (.emitScoped sessionId kind detail now)).Sound := by
  change (w.unnumbered sessionId (w.bus.emitScoped sessionId kind detail now)).Sound
  unfold EventBus.emitScoped EventBus.emitTo
  cases here : w.bus.sessions[sessionId]? with
  | none => exact sound
  | some session =>
    dsimp only
    set event : Event := ⟨w.bus.instanceId, sessionId, none, session.revision, kind, none, detail, now⟩
    obtain ⟨leases, run, find⟩ := SessionEvents.admitFrame_eq w.bus.limits event session
    have closes := SessionEvents.admitFrame_closes w.bus.limits event session
    rw [run] at closes ⊢
    refine sound.unnumbered here (fun a q found => ?_) ?_
    · obtain ⟨before, was, rfl⟩ := Option.map_eq_some_iff.mp ((find a).symm.trans found)
      obtain ⟨counted, frames, more⟩ :=
        offered_grown ((sound.found here).counted a before was) (event.routedTo a)
      exact ⟨counted, before, frames, was, more⟩
    · rw [closes]
      exact session.leases.nodup_keys.filter _

theorem Sound.emitTo (sound : w.Sound) (sessionId : SessionId) (attachId : AttachId) (revision : Nat)
    (kind : EventKind) (detail : EventDetail) (now : MonotonicMs) :
    (w.next (.emitTo sessionId attachId revision kind detail now)).Sound := by
  change (w.unnumbered sessionId (w.bus.emitTo sessionId (some attachId) revision kind detail now)).Sound
  unfold EventBus.emitTo
  cases here : w.bus.sessions[sessionId]? with
  | none => exact sound
  | some session =>
    dsimp only
    by_cases attached : attachId ∉ session.leases
    · rw [if_pos attached]
      exact sound
    · rw [if_neg attached]
      obtain ⟨q, queue⟩ := (TreeMap.mem_iff session.leases attachId).mp (not_not.mp attached)
      set event : Event := ⟨w.bus.instanceId, sessionId, none, revision, kind, none, detail, now⟩
      obtain ⟨counted, frames, more⟩ :=
        offered_grown ((sound.found here).counted attachId q queue) (event.routedTo attachId)
      rw [SessionEvents.admitTo_find queue]
      refine sound.unnumbered here (fun a r found => ?_) ?_
      · rw [TreeMap.find_insert] at found
        split_ifs at found with same
        · subst same
          cases found
          exact ⟨counted, q, frames, queue, more⟩
        · exact ⟨(sound.found here).counted a r found, r, [], found, (List.append_nil _).symm⟩
      · split_ifs <;> simp [Emission.closes]

theorem Sound.emit (sound : w.Sound) {revision : Nat} {kind : EventKind} {detail : EventDetail}
    {terminal : Option TerminalMarker} {now : MonotonicMs}
    (prompt : w.Prompt (.emit sessionId revision kind detail terminal now))
    (clear : w.Clear (.emit sessionId revision kind detail terminal now)) :
    (w.next (.emit sessionId revision kind detail terminal now)).Sound := by
  change (w.numbered sessionId kind (w.bus.emitEach sessionId revision kind detail terminal now)).Sound
  unfold EventBus.emitEach
  cases here : w.bus.sessions[sessionId]? with
  | none => exact sound
  | some session =>
    dsimp only
    by_cases behind : revision ≤ session.revision
    · rw [if_pos behind]
      exact sound
    · rw [if_neg behind]
      set event : Event := ⟨w.bus.instanceId, sessionId, none, revision, kind, terminal, detail, now⟩
      have ahead : session.revision < event.revision := Nat.lt_of_not_le behind
      obtain ⟨spares, attended⟩ := clear session here ahead
      have holds := sound.found here
      have old : Watch.leases w.bus sessionId = session.leases := by
        rw [Watch.leases, here]
        rfl
      have kept : Watch.leases
          { w.bus with sessions := w.bus.sessions.insert sessionId (session.emit w.bus.limits event).2 } sessionId =
          (session.emit w.bus.limits event).2.leases := by
        rw [Watch.leases, TreeMap.find_insert, if_pos rfl]
        rfl
      unfold numbered
      dsimp only
      rw [old, kept]
      refine sound.replace (holds.emit prompt ahead attended) fun emissions member => ?_
      rcases List.mem_cons.mp member with rfl | earlier
      · have counted : (session.recorded w.bus.limits event).Counted w.bus.limits := by
          intro a q found
          exact holds.counted a q (by simpa using found)
        refine ⟨?_, ?_⟩
        · have once : (((session.emit w.bus.limits event).1).flatMap (·.2.closes)).Nodup := by
            refine SessionEvents.admitFrames_once counted fun a q found => ?_
            rw [SessionEvents.burst_length ahead]
            exact spares a q (by simpa using found)
          simpa [Emission.concat, Emission.closes, List.flatMap_map, List.map_flatMap] using once
        · exact List.pairwise_map.mpr SessionEvents.admitFrames_final
      · exact sound.tidy emissions earlier

theorem Sound.next (sound : w.Sound) {call : Call} (prompt : w.Prompt call) (clear : w.Clear call) :
    (w.next call).Sound := by
  cases call with
  | register sessionId => exact sound.register sessionId
  | remove sessionId => exact sound.remove sessionId
  | attach sessionId attachId => exact sound.attach sessionId attachId
  | detach sessionId attachId => exact sound.detach sessionId attachId
  | emit sessionId revision kind detail terminal now => exact sound.emit prompt clear
  | emitScoped sessionId kind detail now => exact sound.emitScoped sessionId kind detail now
  | emitTo sessionId attachId revision kind detail now => exact sound.emitTo sessionId attachId revision kind detail now
  | drain sessionId attachId => exact sound.drain sessionId attachId
  | drainNext sessionId attachId => exact sound.drainNext sessionId attachId
  | ackTerminal sessionId attachId => exact sound.ackTerminal sessionId attachId

theorem Run.sound {instanceId : DaemonInstanceId} {limits : EventLimits} (run : Run Clear instanceId limits w) :
    w.Sound := by
  induction run with
  | start => exact new_sound instanceId limits
  | next _ prompt clear ih => exact ih.next prompt clear

theorem Sound.pinned (sound : w.Sound) : w.Pinned := by
  intro s session here
  have owed := (sound.found here).owed
  cases pin : session.terminal with
  | none =>
    rw [pin] at owed
    have none : (w.seen s).due = [] := owed
    simp [none]
  | some pin' =>
    rw [pin] at owed
    simpa using List.exists_mem_of_ne_nil _ owed.1

/-- Every run keeps the policy of the reference stream as long as each emission is clear. -/
theorem run_policy {instanceId : DaemonInstanceId} {limits : EventLimits} (run : Run Clear instanceId limits w) :
    w.Policy where
  consecutive s session here a queue attached := by
    obtain ⟨known, count, revisions, current⟩ := (run.sound.found here).leases a queue attached
    exact ⟨known, count, revisions, fun kept => current (decide_eq_false kept)⟩
  once s session here := (run.sound.found here).emitted
  tidy := run.sound.tidy
  pinned := run.sound.pinned

def clearly (w : Watch) (sessionId : SessionId) (revision : Nat) (kind : EventKind) : Bool :=
  w.bus.sessions[sessionId]?.all fun session =>
    (session.leases.toList.all fun lease =>
      lease.2.events.length + (revision - session.revision) ≤ LeaseQueue.capacity w.bus.limits + 1) &&
      (kind ≠ .sessionTerminal || !session.leases.isEmpty)

theorem clear_of_clearly {revision : Nat} {kind : EventKind} {detail : EventDetail} {terminal : Option TerminalMarker}
    {now : MonotonicMs} (checked : w.clearly sessionId revision kind = true) :
    w.Clear (.emit sessionId revision kind detail terminal now) := by
  intro session here _
  rw [clearly, here, Option.all_some, Bool.and_eq_true, List.all_eq_true] at checked
  obtain ⟨spares, attended⟩ := checked
  refine ⟨fun a q found => ?_, fun terminal => ?_⟩
  · exact of_decide_eq_true (spares (a, q) (ExtTreeMap.mem_toList_iff_getElem?_eq_some.mpr found))
  · by_contra nobody
    have filled : session.leases.isEmpty = false := by simpa [terminal] using attended
    rw [Bool.eq_false_iff, ne_eq, ExtTreeMap.isEmpty_iff, ExtTreeMap.eq_empty_iff_forall_not_mem] at filled
    exact filled fun a attached => nobody ⟨a, attached⟩

def sampleEventLimits : EventLimits where
  sizeOfEvent := 176
  maxEventBacklogEvents := 4
  maxEventBacklogBytes := 4096
  maxLeaseQueueEvents := 1
  maxLeaseQueueBytes := 4096
  maxAttachesPerSession := 2
  attachLeaseTtlMs := 1000
  maxAttachKeysPerSession := 2
  sizeOfEvent_pos := by decide
  backlogEvents := by decide
  backlogBytes := by decide
  queueEvents := by decide
  queueBytes := by decide
  attaches := by decide
  leaseTtl := by decide
  attachKeys := by decide

def Along (condition : Watch → Call → Prop) : Watch → List Call → Prop
  | _, [] => True
  | w, call :: rest => w.Prompt call ∧ condition w call ∧ Along condition (w.next call) rest

theorem Run.after {condition : Watch → Call → Prop} {instanceId : DaemonInstanceId} {limits : EventLimits}
    {calls : List Call} (run : Run condition instanceId limits w) (along : Along condition w calls) :
    Run condition instanceId limits (calls.foldl Watch.next w) := by
  induction calls generalizing w with
  | nil => exact run
  | cons call rest ih =>
    obtain ⟨prompt, met, later⟩ := along
    exact ih (run.next prompt met) later

def sampleWatch (calls : List Call) : Watch := calls.foldl next (new ⟨1⟩ sampleEventLimits)

/-- A lease without room for two frames of an emission is reported twice, and a terminal event that
finds no lease is pinned for nobody. -/
theorem policy_broken :
    (∃ w, Run (fun _ _ => True) ⟨1⟩ sampleEventLimits w ∧ ¬ w.Tidy) ∧
      ∃ w, Run (fun _ _ => True) ⟨1⟩ sampleEventLimits w ∧ ¬ w.Pinned := by
  constructor
  · refine ⟨sampleWatch [.register ⟨7⟩, .attach ⟨7⟩ ⟨3⟩, .emit ⟨7⟩ 3 .sessionState .none none 5],
      Run.start.after ⟨trivial, trivial, trivial, trivial, rfl, trivial, trivial⟩, fun tidy => ?_⟩
    · have reported : (sampleWatch [.register ⟨7⟩, .attach ⟨7⟩ ⟨3⟩, .emit ⟨7⟩ 3 .sessionState .none none 5]).reports =
          [[⟨[⟨3⟩], []⟩, ⟨[], [⟨⟨3⟩, .terminalEventLost⟩]⟩, ⟨[], [⟨⟨3⟩, .terminalEventLost⟩]⟩]] := by
        decide
      have once := (tidy _ (reported ▸ List.mem_singleton_self _)).1
      revert once
      decide
  · refine ⟨sampleWatch [.register ⟨7⟩, .emit ⟨7⟩ 1 .sessionTerminal .none none 5],
      Run.start.after ⟨trivial, trivial, rfl, trivial, trivial⟩, fun pinned => ?_⟩
    · have found : ((sampleWatch [.register ⟨7⟩, .emit ⟨7⟩ 1 .sessionTerminal .none none 5]).bus.sessions[(⟨7⟩ : SessionId)]?.map
          (·.terminal.isSome)) = some true := by
        decide
      obtain ⟨session, here, pin⟩ := Option.map_eq_some_iff.mp found
      obtain ⟨a, due⟩ := (pinned ⟨7⟩ session here).mp pin
      have nobody : ((sampleWatch [.register ⟨7⟩, .emit ⟨7⟩ 1 .sessionTerminal .none none 5]).seen ⟨7⟩).due = [] := by
        decide
      rw [nobody] at due
      cases due

/-- Two leases, one of which is closed by the last frame of a burst, and a terminal event. -/
theorem run_policy_sample :
    (sampleWatch [.register ⟨7⟩, .attach ⟨7⟩ ⟨3⟩, .emit ⟨7⟩ 1 .sessionState .none none 5, .drainNext ⟨7⟩ ⟨3⟩,
      .emit ⟨7⟩ 3 .sessionState .none none 6, .detach ⟨7⟩ ⟨3⟩, .attach ⟨7⟩ ⟨4⟩,
      .emit ⟨7⟩ 4 .sessionTerminal .none none 7]).Policy := by
  have begun : Run Clear ⟨1⟩ sampleEventLimits (new ⟨1⟩ sampleEventLimits) := .start
  refine run_policy (begun.after ⟨trivial, trivial, trivial, trivial, ?_, clear_of_clearly ?_, trivial, trivial, ?_,
    clear_of_clearly ?_, trivial, trivial, trivial, trivial, ?_, clear_of_clearly ?_, trivial⟩)
  all_goals decide

end Watch

end Bitty.Daemon.Events

/-! The replay of a session: the newest of its frames, as many as the ring holds. -/

namespace Bitty.Daemon.Events

open Std

namespace Backlog

variable (limits : EventLimits)

def capacity : Nat := min limits.maxEventBacklogEvents (limits.maxEventBacklogBytes / limits.sizeOfEvent)

/-- The ring of a log: what fits both bounds of it, the newest events. -/
def ofLog (log : List Event) : Backlog :=
  let events := Recent.last (capacity limits) log
  ⟨events, events.length * limits.sizeOfEvent, limits.maxEventBacklogEvents, limits.maxEventBacklogBytes⟩

theorem new_ofLog : new limits = ofLog limits [] := by simp [ofLog, new, Recent.last]

theorem free_ofLog (log : List Event) : (ofLog limits log).free = ofLog limits [] := by simp [ofLog, free, Recent.last]

theorem capacity_pos : 0 < capacity limits :=
  Nat.lt_min.mpr ⟨limits.backlogEvents.lower, Nat.div_pos limits.backlogBytes.lower limits.sizeOfEvent_pos⟩

theorem over_iff (count : Nat) :
    (count > limits.maxEventBacklogEvents ∨ count * limits.sizeOfEvent > limits.maxEventBacklogBytes) ↔
      capacity limits < count := by
  rw [capacity, min_lt_iff, gt_iff_lt, gt_iff_lt, Nat.div_lt_iff_lt_mul limits.sizeOfEvent_pos]

def trimmed (events : List Event) : List Event × Nat :=
  trim limits.sizeOfEvent limits.maxEventBacklogEvents limits.maxEventBacklogBytes events (events.length * limits.sizeOfEvent)

variable {limits}

theorem trimmed_of_le {events : List Event} (fits : events.length ≤ capacity limits) :
    trimmed limits events = (events, events.length * limits.sizeOfEvent) := by
  unfold trimmed
  cases events with
  | nil => simp [trim]
  | cons first rest => rw [trim, if_neg (mt (over_iff limits _).mp (Nat.not_lt.mpr fits))]

theorem trimmed_of_lt {first : Event} {rest : List Event} (full : capacity limits < (first :: rest).length) :
    trimmed limits (first :: rest) = trimmed limits rest := by
  unfold trimmed
  rw [trim, if_pos ((over_iff limits _).mpr full), List.length_cons, Nat.succ_mul, Nat.add_sub_cancel]

theorem append_ofLog (log : List Event) (event : Event) :
    (ofLog limits log).append limits event = ofLog limits (log ++ [event]) := by
  have few : (Recent.last (capacity limits) log).length ≤ capacity limits := by
    rw [Recent.length_last]
    exact Nat.min_le_left ..
  have pushed := Recent.push_last (capacity limits) log event
  unfold append ofLog
  rw [← pushed]
  generalize Recent.last (capacity limits) log = events at few
  have length : (events ++ [event]).length = events.length + 1 := List.length_append
  have trimmed_push : trimmed limits (events ++ [event]) = (Recent.push (capacity limits) events event,
      (Recent.push (capacity limits) events event).length * limits.sizeOfEvent) := by
    unfold Recent.push
    split_ifs with full
    · have rest : (events ++ [event]).tail.length ≤ capacity limits := by
        rw [List.length_tail]
        omega
      obtain ⟨first, others, shape⟩ := List.exists_cons_of_length_eq_add_one length
      rw [shape] at full rest ⊢
      rw [trimmed_of_lt full]
      exact trimmed_of_le rest
    · exact trimmed_of_le (Nat.not_lt.mp full)
  unfold trimmed at trimmed_push
  rw [length, Nat.succ_mul] at trimmed_push
  dsimp only
  rw [trimmed_push]

theorem foldl_append_ofLog (frames log : List Event) :
    frames.foldl (fun backlog event => backlog.append limits event) (ofLog limits log) = ofLog limits (log ++ frames) := by
  induction frames generalizing log with
  | nil => rw [List.foldl_nil, List.append_nil]
  | cons frame rest ih => rw [List.foldl_cons, append_ofLog, ih, List.append_assoc, List.singleton_append]

theorem revisions_ofLog {log : List Event} {first count : Nat} (revisions : log.map (·.revision) = List.range' first count) :
    (ofLog limits log).events.map (·.revision) =
      List.range' (first + (count - capacity limits)) (min (capacity limits) count) := by
  have length : log.length = count := by rw [← List.length_map (·.revision), revisions, List.length_range']
  change (Recent.last (capacity limits) log).map _ = _
  rw [Recent.last, List.map_drop, revisions, List.drop_range', length, Nat.mul_one]
  congr 1
  omega

end Backlog

/-- The ring holds a log of every revision since it was freed, which only a terminal event does. -/
def SessionEvents.Ringed (limits : EventLimits) (session : SessionEvents) : Prop :=
  ∃ freed log, session.backlog = .ofLog limits log ∧ freed ≤ session.revision ∧
    log.map (·.revision) = List.range' (freed + 1) (session.revision - freed) ∧ (session.terminalized = false → freed = 0)

variable {limits : EventLimits} {session : SessionEvents}

theorem SessionEvents.Ringed.recorded {event : Event} (ringed : session.Ringed limits) (ahead : session.revision < event.revision) :
    (session.recorded limits event).Ringed limits := by
  obtain ⟨freed, log, held, behind, revisions, live⟩ := ringed
  unfold SessionEvents.recorded
  rw [held, Backlog.foldl_append_ofLog]
  dsimp only
  split_ifs
  · refine ⟨event.revision, [], Backlog.free_ofLog .., Nat.le_refl _, ?_, by rintro ⟨⟩⟩
    rw [Nat.sub_self]
    rfl
  · refine ⟨freed, log ++ session.burst event, rfl, behind.trans ahead.le, ?_, live⟩
    have joint : session.revision + 1 = freed + 1 + 1 * (session.revision - freed) := by omega
    have total : session.revision - freed + (event.revision - session.revision) = event.revision - freed := by omega
    rw [List.map_append, revisions, SessionEvents.burst_revisions ahead, joint, List.range'_append, total]

/-- What a replay tells: the newest revisions up to the current one, as many as the ring holds of those since it was
freed, each for the lease that asks, and whether an older one is missing. -/
structure SessionEvents.Replays (limits : EventLimits) (session : SessionEvents) (attachId : AttachId) (slice : ReplaySlice)
    (freed kept : Nat) : Prop where
  since : freed ≤ session.revision ∧ (session.terminalized = false → freed = 0)
  count : kept = min (Backlog.capacity limits) (session.revision - freed)
  revisions : slice.events.map (·.revision) = List.range' (session.revision + 1 - kept) kept
  routed : ∀ event ∈ slice.events, event.attachId = some attachId
  truncated : slice.backlogTruncated = true ↔ kept < session.revision
  earliest : slice.earliestRevision =
    if session.revision = 0 then none else some (if kept = 0 then session.revision else session.revision + 1 - kept)

theorem SessionEvents.Ringed.replays (ringed : session.Ringed limits) (attachId : AttachId) :
    ∃ freed kept, session.Replays limits attachId (session.replay attachId) freed kept := by
  obtain ⟨freed, log, held, behind, revisions, live⟩ := ringed
  have events := @Backlog.revisions_ofLog limits _ _ _ revisions
  have positive := Backlog.capacity_pos limits
  rw [← held] at events
  refine ⟨freed, min (Backlog.capacity limits) (session.revision - freed), ?_⟩
  rw [show freed + 1 + (session.revision - freed - Backlog.capacity limits) =
    session.revision + 1 - min (Backlog.capacity limits) (session.revision - freed) by omega] at events
  generalize count : min (Backlog.capacity limits) (session.revision - freed) = kept at *
  have all : session.backlog.after 0 = session.backlog.events := by
    refine List.filter_eq_self.mpr fun event member => decide_eq_true ?_
    have inside := List.mem_map_of_mem (f := (·.revision)) member
    rw [events, List.mem_range'_1] at inside
    omega
  have earliest : session.backlog.earliest = if kept = 0 then none else some (session.revision + 1 - kept) := by
    rw [← List.head?_range', ← events, List.head?_map]
    rfl
  have told : ((session.replay attachId).backlogTruncated = true ↔ kept < session.revision) ∧
      (session.replay attachId).earliestRevision =
        if session.revision = 0 then none else some (if kept = 0 then session.revision else session.revision + 1 - kept) := by
    unfold SessionEvents.replay
    rw [earliest]
    by_cases none_ : kept = 0
    · cases ended : session.terminalized with
      | true => simp [none_, Nat.pos_iff_ne_zero]
      | false =>
        have fresh := live ended
        have begun : session.revision = 0 := by omega
        simp [none_, begun]
    · have begun : session.revision ≠ 0 := by omega
      rw [if_neg none_, if_neg none_, if_neg begun]
      refine ⟨?_, rfl⟩
      dsimp only
      rw [decide_eq_true_eq]
      omega
  refine ⟨⟨behind, live⟩, count.symm, ?_, fun event member => ?_, told.1, told.2⟩
  · unfold SessionEvents.replay
    rw [all, List.map_map]
    exact events
  · obtain ⟨held, -, rfl⟩ := List.mem_map.mp member
    rfl

namespace Watch

/-- The rings of a bus, whose limits do not change. -/
def Ringed (limits : EventLimits) (bus : EventBus) : Prop :=
  bus.limits = limits ∧ ∀ (s : SessionId) (session : SessionEvents), bus.sessions[s]? = some session → session.Ringed limits

variable {w : Watch} {bus : EventBus} {sessionId : SessionId}

theorem Ringed.insert (ringed : Ringed limits bus) (one : session.Ringed limits) :
    Ringed limits { bus with sessions := bus.sessions.insert sessionId session } := by
  refine ⟨ringed.1, fun s other here => ?_⟩
  rw [TreeMap.find_insert] at here
  split_ifs at here with same
  · cases here
    exact one
  · exact ringed.2 s other here

theorem Ringed.modify (ringed : Ringed limits bus) {f : SessionEvents → SessionEvents}
    (kept : ∀ session, session.Ringed limits → (f session).Ringed limits) :
    Ringed limits { bus with sessions := bus.sessions.modify sessionId f } := by
  refine ⟨ringed.1, fun s other here => ?_⟩
  rw [TreeMap.find_modify] at here
  split_ifs at here with same
  · obtain ⟨before, was, rfl⟩ := Option.map_eq_some_iff.mp here
    exact kept before (ringed.2 s before was)
  · exact ringed.2 s other here

theorem Ringed.emitTo (ringed : Ringed limits bus) (only : Option AttachId) (revision : Nat) (kind : EventKind)
    (detail : EventDetail) (now : MonotonicMs) : Ringed limits (bus.emitTo sessionId only revision kind detail now).2 := by
  unfold EventBus.emitTo
  cases here : bus.sessions[sessionId]? with
  | none => exact ringed
  | some session =>
    have one := ringed.2 sessionId session here
    cases only with
    | none =>
      obtain ⟨leases, run, -⟩ := SessionEvents.admitFrame_eq bus.limits
        ⟨bus.instanceId, sessionId, none, revision, kind, none, detail, now⟩ session
      dsimp only
      rw [run]
      exact ringed.insert one
    | some attachId =>
      dsimp only
      unfold SessionEvents.admitTo
      split_ifs
      · split <;> exact ringed.insert one
      · exact ringed

theorem Ringed.emitEach (ringed : Ringed limits bus) (revision : Nat) (kind : EventKind) (detail : EventDetail)
    (terminal : Option TerminalMarker) (now : MonotonicMs) :
    Ringed limits (bus.emitEach sessionId revision kind detail terminal now).2 := by
  obtain ⟨rfl, each⟩ := ringed
  unfold EventBus.emitEach
  cases here : bus.sessions[sessionId]? with
  | none => exact ⟨rfl, each⟩
  | some session =>
    dsimp only
    split_ifs with behind
    · exact ⟨rfl, each⟩
    · set event : Event := ⟨bus.instanceId, sessionId, none, revision, kind, terminal, detail, now⟩
      obtain ⟨leases, run, -⟩ := SessionEvents.admitFrames_eq bus.limits (session.burst event) (session.recorded bus.limits event)
      have ahead : session.revision < event.revision := Nat.lt_of_not_le behind
      unfold SessionEvents.emit
      rw [run]
      exact Ringed.insert ⟨rfl, each⟩ ((each sessionId session here).recorded ahead)

theorem bus_unnumbered (outcome : Option Emission × EventBus) : (w.unnumbered sessionId outcome).bus = outcome.2 := by
  unfold unnumbered
  split <;> rfl

theorem bus_numbered (kind : EventKind) (outcome : Option (List (Event × Emission)) × EventBus) :
    (w.numbered sessionId kind outcome).bus = outcome.2 := by
  unfold numbered
  split <;> rfl

theorem Ringed.next (ringed : Ringed limits w.bus) (call : Call) : Ringed limits (w.next call).bus := by
  cases call with
  | register sessionId =>
    refine ⟨ringed.1, fun s session here => ?_⟩
    change (w.bus.sessions.insertIfNew sessionId (.new w.bus.limits))[s]? = some session at here
    rw [ExtTreeMap.getElem?_insertIfNew, ringed.1] at here
    split_ifs at here
    · cases here
      exact ⟨0, [], Backlog.new_ofLog limits, Nat.le_refl 0, rfl, fun _ => rfl⟩
    · exact ringed.2 s session here
  | remove sessionId =>
    refine ⟨ringed.1, fun s session here => ?_⟩
    change (w.bus.sessions.erase sessionId)[s]? = some session at here
    rw [TreeMap.find_erase] at here
    split_ifs at here
    exact ringed.2 s session here
  | attach sessionId attachId =>
    change Ringed limits (w.bus.attach sessionId attachId).2
    unfold EventBus.attach
    cases here : w.bus.sessions[sessionId]? with
    | none => exact ringed
    | some session => exact ringed.insert (ringed.2 sessionId session here)
  | detach sessionId attachId => exact ringed.modify fun _ kept => kept
  | emit sessionId revision kind detail terminal now =>
    rw [Watch.next, bus_numbered]
    exact ringed.emitEach revision kind detail terminal now
  | emitScoped sessionId kind detail now =>
    rw [Watch.next, bus_unnumbered]
    unfold EventBus.emitScoped
    split
    · exact ringed
    · exact ringed.emitTo none _ kind detail now
  | emitTo sessionId attachId revision kind detail now =>
    rw [Watch.next, bus_unnumbered]
    exact ringed.emitTo (some attachId) revision kind detail now
  | drain sessionId attachId =>
    change Ringed limits (w.bus.drain sessionId attachId).2
    unfold EventBus.drain
    split
    · exact ringed
    · exact ringed.modify fun _ kept => kept
  | drainNext sessionId attachId =>
    change Ringed limits (w.bus.drainNext sessionId attachId).2
    unfold EventBus.drainNext
    split
    · exact ringed
    · exact ringed.modify fun _ kept => kept
  | ackTerminal sessionId attachId => exact ringed.modify fun _ kept => kept

theorem Ringed.run (ringed : Ringed limits w.bus) (calls : List Call) : Ringed limits (calls.foldl Watch.next w).bus := by
  induction calls generalizing w with
  | nil => exact ringed
  | cons call rest ih => exact ih (ringed.next call)

end Watch

end Bitty.Daemon.Events
