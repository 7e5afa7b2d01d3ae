import Bitty.Daemon.Idempotency.Run

/-! The completion of a request and the end of the session it names, in either order. -/

namespace Bitty.Daemon

open Std

namespace IdempotencyStore

variable {start s : IdempotencyStore} {r : Reservation} {e : Entry} {applied : AppliedResult}

def InFlight (s : IdempotencyStore) (r : Reservation) : Prop :=
  r.storeId = s.storeId ∧
    ∃ e, s.entries[r.key]? = some e ∧ e.sequence = r.sequence ∧ e.method = r.method ∧ e.state = .inFlight

theorem complete_found (mine : r.storeId = s.storeId) (here : s.entries[r.key]? = some e)
    (sequence : e.sequence = r.sequence) (method : e.method = r.method) (flying : e.state = .inFlight)
    (applied : AppliedResult) :
    (s.complete r (.applied applied)).2 =
      if applied.appliedClass.matchesMethod r.method then
        { s with entries := s.entries.insert r.key { e with state := .complete (.applied applied) .live } }
      else s := by
  have passes : ¬(e.sequence ≠ r.sequence ∨ e.method ≠ r.method) := by simp [sequence, method]
  have checked : checkCompletion r (.applied applied) e =
      if applied.appliedClass.matchesMethod r.method then .ok ()
      else .error (.resultMismatch r.method applied.appliedClass) := by
    rw [checkCompletion, if_neg passes, if_neg (not_not.mpr flying)]
  unfold complete
  rw [if_neg (not_not.mpr mine), here]
  dsimp only
  rw [checked]
  by_cases fits : applied.appliedClass.matchesMethod r.method = true
  · rw [if_pos fits, if_pos fits]
    rfl
  · rw [if_neg fits, if_neg fits]

theorem complete_absent (absent : s.entries[r.key]? = none) (result : IdempotencyResult) :
    (s.complete r result).2 = s := by
  unfold complete
  split
  · rfl
  · rw [absent]

theorem complete_retire_session (sound : s.Sound) (scope : s.scope = .session) (flying : s.InFlight r)
    (applied : AppliedResult) :
    ((s.complete r (.applied applied)).2.retireSession applied.sessionId).2 =
      ((s.retireSession applied.sessionId).2.complete r (.applied applied)).2 := by
  obtain ⟨mine, e, here, sequence, method, state⟩ := flying
  obtain ⟨own, named⟩ := Option.isSome_iff_exists.mp (sound.owner.mp scope)
  have found := complete_found mine here sequence method state applied
  have kept : (s.complete r (.applied applied)).2.scope = s.scope ∧
      (s.complete r (.applied applied)).2.sessionId = s.sessionId := by
    rw [found]
    split_ifs <;> exact ⟨rfl, rfl⟩
  by_cases same : applied.sessionId = own
  · have clears (t : IdempotencyStore) (scope : t.scope = .session) (named : t.sessionId = some own) :
        (t.retireSession applied.sessionId).2 = { t with entries := ∅, order := ∅ } := by
      unfold retireSession
      rw [scope, named]
      simp [same]
    have absent : (s.retireSession applied.sessionId).2.entries[r.key]? = none := by
      rw [clears s scope named]
      exact ExtTreeMap.getElem?_empty
    rw [complete_absent absent, clears s scope named, clears _ (kept.1.trans scope) (kept.2.trans named), found]
    split_ifs <;> rfl
  · have refuses (t : IdempotencyStore) (scope : t.scope = .session) (named : t.sessionId = some own) :
        (t.retireSession applied.sessionId).2 = t := by
      unfold retireSession
      rw [scope, named]
      simp [same]
    rw [refuses s scope named, refuses _ (kept.1.trans scope) (kept.2.trans named)]

theorem retireSession_create (scope : s.scope = .create) (sessionId : SessionId) :
    (s.retireSession sessionId).2 =
      { s with entries := s.entries.map fun _ e => if e.appliedSession = some sessionId then e.retire else e } := by
  unfold retireSession
  rw [scope]
  simp

theorem complete_retire_create (scope : s.scope = .create) (flying : s.InFlight r) (applied : AppliedResult) :
    ((s.complete r (.applied applied)).2.retireSession applied.sessionId).2 =
        ((s.retireSession applied.sessionId).2.complete r (.applied applied)).2 ↔
      applied.appliedClass.matchesMethod r.method = false := by
  obtain ⟨mine, e, here, sequence, method, state⟩ := flying
  have found := complete_found mine here sequence method state applied
  have live : e.appliedSession ≠ some applied.sessionId := by
    rw [Entry.appliedSession, state]
    exact (Option.some_ne_none _).symm
  -- the entry in flight is not marked
  have unmarked : (s.retireSession applied.sessionId).2.entries[r.key]? = some e := by
    rw [retireSession_create scope, ExtTreeMap.getElem?_map, here, Option.map_some, if_neg live]
  have retired : (s.retireSession applied.sessionId).2.storeId = s.storeId := by rw [retireSession_create scope]
  have after := complete_found (mine.trans retired.symm) unmarked sequence method state applied
  by_cases fits : applied.appliedClass.matchesMethod r.method = true
  · rw [if_pos fits] at found after
    refine iff_of_false ?_ (by simp [fits])
    intro same
    have first : ((s.complete r (.applied applied)).2.retireSession applied.sessionId).2.entries[r.key]? =
        some { e with state := .complete (.applied applied) .terminal } := by
      rw [found, retireSession_create (by exact scope), ExtTreeMap.getElem?_map, ExtTreeMap.getElem?_insert_self,
        Option.map_some, if_pos (by rfl)]
      rfl
    have last : ((s.retireSession applied.sessionId).2.complete r (.applied applied)).2.entries[r.key]? =
        some { e with state := .complete (.applied applied) .live } := by
      rw [after]
      exact ExtTreeMap.getElem?_insert_self
    rw [same, last] at first
    simp at first
  · rw [if_neg fits] at found after
    refine iff_of_true ?_ (by simpa using fits)
    rw [found, after]

/-- Completion and retirement commute on a per-session store; on the create store they do where the result
is refused for its class. -/
theorem complete_retire_comm_iff (new : start.New) (calls : List (MonotonicMs × Call))
    (flying : (start.after calls).InFlight r) (applied : AppliedResult) :
    (((start.after calls).complete r (.applied applied)).2.retireSession applied.sessionId).2 =
        (((start.after calls).retireSession applied.sessionId).2.complete r (.applied applied)).2 ↔
      start.scope = .session ∨ applied.appliedClass.matchesMethod r.method = false := by
  obtain ⟨sound, settings⟩ := after_sound new.sound calls
  cases scope : start.scope with
  | session =>
    exact iff_of_true (complete_retire_session sound (settings.scope.trans scope) flying applied) (.inl rfl)
  | create =>
    rw [complete_retire_create (settings.scope.trans scope) flying applied]
    simp

def requested : IdempotencyStore :=
  (create 1 ⟨512, 65536, 128, 32768, 86400000⟩).after [(5, .begin ⟨⟨1⟩, .create, ⟨.terminalDigest, 2⟩, ⟨3⟩, 4⟩)]

def created : AppliedResult := ⟨.created, ⟨7⟩, 1, 1, 1, false⟩

theorem requested_inFlight : requested.InFlight ⟨⟨1⟩, 1, 1, .create⟩ := by
  refine ⟨rfl, ⟨.create, ⟨.terminalDigest, 2⟩, ⟨3⟩, 4, 5, 1, .inFlight⟩, ?_, rfl, rfl, rfl⟩
  decide

theorem requested_order_matters :
    ((requested.complete ⟨⟨1⟩, 1, 1, .create⟩ (.applied created)).2.retireSession created.sessionId).2 ≠
      ((requested.retireSession created.sessionId).2.complete ⟨⟨1⟩, 1, 1, .create⟩ (.applied created)).2 := by
  intro same
  have fits := (complete_retire_create rfl requested_inFlight created).mp same
  cases fits

theorem requested_comm_iff :
    ((requested.complete ⟨⟨1⟩, 1, 1, .create⟩ (.applied created)).2.retireSession created.sessionId).2 =
        ((requested.retireSession created.sessionId).2.complete ⟨⟨1⟩, 1, 1, .create⟩ (.applied created)).2 ↔
      (create 1 ⟨512, 65536, 128, 32768, 86400000⟩).scope = .session ∨
        created.appliedClass.matchesMethod .create = false :=
  complete_retire_comm_iff (.create 1 ⟨512, 65536, 128, 32768, 86400000⟩) _ requested_inFlight created

end IdempotencyStore

end Bitty.Daemon
