import Bitty.Attach.Seam

/-! The queue of one binding, against all the events it has accepted and those that were drained. -/

namespace Bitty.Attach

def SessionEvent.stamp (e : SessionEvent) : Nat × EventKind := (e.revision, e.kind)

/-- The events a binding has accepted: revisions never go down, no stamp comes twice and nothing
follows a closing frame. -/
structure Orderly (accepted : List SessionEvent) : Prop where
  rising : accepted.Pairwise fun a b => a.revision ≤ b.revision
  once : (accepted.map (·.stamp)).Nodup
  closed : ∀ e ∈ accepted.dropLast, e.kind.closing = none

theorem Orderly.nil : Orderly [] := ⟨List.Pairwise.nil, List.nodup_nil, by simp⟩

structure Follows (size most : Nat) (accepted drained : List SessionEvent) (b : Binding) : Prop where
  whole : drained ++ b.events = accepted
  recent : b.recent = Recent.last DEDUPE_HISTORY (accepted.map (·.stamp))
  latest : b.lastRevision = accepted.getLast?.map (·.revision)
  closing : b.closing = accepted.getLast?.bind (·.kind.closing)
  bytes : b.queuedBytes = b.events.length * size
  room : b.events.length ≤ most
  fits : b.queuedBytes ≤ MAX_QUEUED_EVENT_BYTES_PER_BINDING

theorem stamps_of_revision_enough : Fintype.card EventKind ≤ DEDUPE_HISTORY := by decide

variable {size most : Nat} {accepted drained : List SessionEvent} {b : Binding} {event : SessionEvent}

namespace AttachSeam

theorem dropped_eq_none (passed : dropped b event = none) :
    b.closing = none ∧ (∀ r, b.lastRevision = some r → r ≤ event.revision) ∧ event.stamp ∉ b.recent := by
  unfold dropped at passed
  split_ifs at passed with foreign invalid closing stale seen
  refine ⟨by simpa using closing, fun r last => ?_, seen⟩
  rw [last] at stale
  simpa using stale

theorem overflows_eq_false {H : Type} {s : AttachSeam H} (room : ¬s.overflows size b = true) :
    b.events.length < s.config.maxQueuedEventsPerBinding ∧ b.queuedBytes + size ≤ MAX_QUEUED_EVENT_BYTES_PER_BINDING := by
  simp only [overflows, Bool.or_eq_true, decide_eq_true_eq, not_or, Nat.not_le, Nat.not_lt] at room
  obtain ⟨count, bytes⟩ := room
  refine ⟨count, ?_⟩
  have large : MAX_QUEUED_EVENT_BYTES_PER_BINDING < USIZE_MAX := by decide
  omega

end AttachSeam

namespace Follows

theorem fresh (handle : BindingHandle) (panel : PanelId) (session : SessionId) (role : LeaseRole) (generation : Nat)
    (attachId : AttachId) : Follows size most [] [] { handle, panel, session, role, generation, attachId } where
  whole := rfl
  recent := rfl
  latest := rfl
  closing := rfl
  bytes := (Nat.zero_mul size).symm
  room := Nat.zero_le most
  fits := Nat.zero_le _

variable (held : Follows size most accepted drained b)

include held

theorem latest_le (order : Orderly accepted) {n : Nat} (newest : ∀ r, b.lastRevision = some r → r ≤ n) :
    ∀ e ∈ accepted, e.revision ≤ n := by
  intro e member
  rcases List.eq_nil_or_concat accepted with rfl | ⟨before, last, rfl⟩
  · cases member
  have bound : last.revision ≤ n := by
    refine newest last.revision ?_
    rw [held.latest, List.concat_eq_append, List.getLast?_append]
    rfl
  rw [List.concat_eq_append] at member
  rcases List.mem_append.mp member with earlier | here
  · have rising := order.rising
    rw [List.concat_eq_append] at rising
    exact ((List.pairwise_append.mp rising).2.2 e earlier last (List.mem_singleton.mpr rfl)).trans bound
  · rw [List.mem_singleton.mp here]
    exact bound

theorem open_of_closing (order : Orderly accepted) (running : b.closing = none) :
    ∀ e ∈ accepted, e.kind.closing = none := by
  intro e member
  rcases List.eq_nil_or_concat accepted with rfl | ⟨before, last, rfl⟩
  · cases member
  have closed := order.closed
  have none : last.kind.closing = none := by
    have same := held.closing
    rw [running, List.concat_eq_append, List.getLast?_append] at same
    exact same.symm
  rw [List.concat_eq_append] at member closed
  rw [List.dropLast_concat] at closed
  rcases List.mem_append.mp member with earlier | here
  · exact closed e earlier
  · rw [List.mem_singleton.mp here]
    exact none

theorem stamp_fresh (order : Orderly accepted) (newest : ∀ r, b.lastRevision = some r → r ≤ event.revision)
    (unseen : event.stamp ∉ b.recent) : event.stamp ∉ accepted.map (·.stamp) := by
  have rising : (accepted.map (·.stamp)).Pairwise fun a b => a.1 ≤ b.1 := by
    rw [List.pairwise_map]
    exact order.rising
  have latest : ∀ x ∈ accepted.map (·.stamp), x.1 ≤ event.revision := by
    intro x member
    obtain ⟨e, inside, rfl⟩ := List.mem_map.mp member
    exact held.latest_le order newest e inside
  rw [held.recent] at unseen
  exact Recent.not_mem_of_last rising order.once stamps_of_revision_enough latest unseen

theorem orderly_take (order : Orderly accepted) (running : b.closing = none)
    (newest : ∀ r, b.lastRevision = some r → r ≤ event.revision) (unseen : event.stamp ∉ b.recent) :
    Orderly (accepted ++ [event]) where
  rising := by
    refine List.pairwise_append.mpr ⟨order.rising, List.pairwise_singleton _ _, fun e member e' here => ?_⟩
    rw [List.mem_singleton.mp here]
    exact held.latest_le order newest e member
  once := by
    rw [List.map_append, List.map_singleton]
    refine List.nodup_append.mpr ⟨order.once, List.nodup_singleton _, fun x member y here same => ?_⟩
    rw [List.mem_singleton.mp here] at same
    exact held.stamp_fresh order newest unseen (same ▸ member)
  closed := by
    rw [List.dropLast_concat]
    exact held.open_of_closing order running

theorem take (running : b.closing = none) (count : b.events.length < most)
    (bytes : b.queuedBytes + size ≤ MAX_QUEUED_EVENT_BYTES_PER_BINDING) :
    Follows size most (accepted ++ [event]) drained (b.take size event) where
  whole := by
    rw [← held.whole, List.append_assoc]
    rfl
  recent := by
    rw [List.map_append, List.map_singleton, ← Recent.push_last, ← held.recent]
    rfl
  latest := by
    rw [List.getLast?_append]
    rfl
  closing := by
    rw [List.getLast?_append]
    change event.kind.closing.or b.closing = event.kind.closing
    rw [running, Option.or_none]
  bytes := by
    change b.queuedBytes + size = (b.events ++ [event]).length * size
    rw [held.bytes, List.length_append, List.length_singleton, Nat.add_mul, Nat.one_mul]
  room := by
    change (b.events ++ [event]).length ≤ most
    rw [List.length_append, List.length_singleton]
    exact count
  fits := bytes

theorem drain (running : b.closing = none) : Follows size most accepted (drained ++ b.events) b.drained where
  whole := (List.append_nil _).trans held.whole
  recent := held.recent
  latest := held.latest
  closing := running.symm.trans held.closing
  bytes := (Nat.zero_mul size).symm
  room := Nat.zero_le most
  fits := Nat.zero_le _

end Follows

end Bitty.Attach
