import Bitty.Daemon.Idempotency.Step

namespace Bitty.Daemon

open Std

def IdempotencyResult.claimed : IdempotencyResult → IdempotencyResult
  | .applied descriptor => .applied { descriptor with controlClaimed := true }
  | result => result

namespace IdempotencyStore

inductive New : IdempotencyStore → Prop
  | session (storeId : Nat) (limits : IdempotencyLimits) (sessionId : SessionId) :
    New (.session storeId limits sessionId)
  | create (storeId : Nat) (limits : IdempotencyLimits) : New (.create storeId limits)

def after (s : IdempotencyStore) (calls : List (MonotonicMs × Call)) : IdempotencyStore :=
  calls.foldl (fun s call => (s.perform call.1 call.2).2) s

def Holds (s : IdempotencyStore) (r : Reservation) : Prop := ∃ e, s.entries[r.key]? = some e ∧ e.sequence = r.sequence

def Loses (s : IdempotencyStore) (now : MonotonicMs) (call : Call) (key : IdempotencyKey) (e : Entry) : Prop :=
  s.entries[key]? = some e ∧ ∀ e', (s.perform now call).2.entries[key]? = some e' → e'.sequence ≠ e.sequence

def replayOf (scope : IdempotencyScope) (key : IdempotencyKey) (calls : List (MonotonicMs × Call))
    (result : IdempotencyResult) : IdempotencyResult :=
  if scope = .create ∧ calls.any (fun call => call.2 = .markControlClaimed key) then result.claimed else result

/-- A stored entry is the one that an earlier `begin` reserved at the instant the entry keeps. If it is
retired, its session was retired after that. -/
structure Reserved (start : IdempotencyStore) (calls : List (MonotonicMs × Call)) (key : IdempotencyKey) (e : Entry)
    (earlier later : List (MonotonicMs × Call)) (request : IdempotentRequest) : Prop where
  split : calls = earlier ++ (e.insertedAt, .begin request) :: later
  mine : request.key = key
  answered : ((start.after earlier).begin request e.insertedAt).1 =
    .ok (.execute ⟨key, start.storeId, e.sequence, e.method⟩)
  retired : ∀ applied, e.state = .complete (.applied applied) .terminal →
    ∃ now, (now, .retireSession applied.sessionId) ∈ later

/-- A stored result is what an earlier `complete` handed in, but for a claim of control since then. -/
structure Completed (start : IdempotencyStore) (calls : List (MonotonicMs × Call)) (r : Reservation)
    (result : IdempotencyResult) (earlier later : List (MonotonicMs × Call)) (now : MonotonicMs)
    (original : IdempotencyResult) : Prop where
  split : calls = earlier ++ (now, .complete r original) :: later
  answered : ((start.after earlier).complete r original).1 = .ok ()
  result : result = replayOf start.scope r.key later original

variable {start s : IdempotencyStore} {calls : List (MonotonicMs × Call)} {key : IdempotencyKey} {e e' : Entry}
variable {now : MonotonicMs} {r : Reservation} {result : IdempotencyResult} {retirement : Retirement}

theorem sound_empty (entries : s.entries = ∅) (order : s.order = ∅) (owner : s.scope = .session ↔ s.sessionId.isSome) :
    s.Sound := by
  refine ⟨?_, ?_, ?_, owner, ?_⟩
  · intro n key
    simp [entries, order]
  · intro key e here
    simp [entries] at here
  · simp [len, entries]
  · intro key e here
    simp [entries] at here

theorem New.sound (new : start.New) : start.Sound := by
  cases new with
  | session storeId limits sessionId => exact sound_empty rfl rfl (iff_of_true rfl rfl)
  | create storeId limits => exact sound_empty rfl rfl (iff_of_false nofun nofun)

theorem after_append (s : IdempotencyStore) (calls more : List (MonotonicMs × Call)) :
    s.after (calls ++ more) = (s.after calls).after more := List.foldl_append

theorem after_concat (s : IdempotencyStore) (calls : List (MonotonicMs × Call)) (call : MonotonicMs × Call) :
    s.after (calls ++ [call]) = ((s.after calls).perform call.1 call.2).2 := List.foldl_concat _ _ _ _

theorem after_sound (sound : s.Sound) (calls : List (MonotonicMs × Call)) :
    (s.after calls).Sound ∧ SameSettings s (s.after calls) := by
  induction calls generalizing s with
  | nil => exact ⟨sound, .refl s⟩
  | cons call rest ih =>
    obtain ⟨next, settings⟩ := perform_sound sound call.1 call.2
    obtain ⟨last, others⟩ := ih next
    exact ⟨last, settings.trans others⟩

theorem claimed_claimed (result : IdempotencyResult) : result.claimed.claimed = result.claimed := by
  cases result <;> rfl

theorem state_claim (complete : e.state = .complete result retirement) :
    e.claim.state = .complete result.claimed retirement := by
  cases result <;> simp [Entry.claim, complete, IdempotencyResult.claimed]

@[simp] theorem sequence_claim (e : Entry) : e.claim.sequence = e.sequence := by
  unfold Entry.claim
  split <;> rfl

@[simp] theorem insertedAt_claim (e : Entry) : e.claim.insertedAt = e.insertedAt := by
  unfold Entry.claim
  split <;> rfl

@[simp] theorem method_claim (e : Entry) : e.claim.method = e.method := by
  unfold Entry.claim
  split <;> rfl

theorem retire_eq {sessionId : SessionId} (ended : e.appliedSession = some sessionId) :
    ∃ applied, e.state = .complete (.applied applied) .live ∧ applied.sessionId = sessionId ∧
      e.retire = { e with state := .complete (.applied applied) .terminal } := by
  unfold Entry.appliedSession at ended
  split at ended
  · rename_i applied complete
    exact ⟨applied, complete, Option.some.inj ended, by simp [Entry.retire, complete]⟩
  · cases ended

theorem checkCompletion_ok (checked : checkCompletion r result e = .ok ()) :
    e.sequence = r.sequence ∧ e.state = .inFlight := by
  unfold checkCompletion at checked
  split_ifs at checked with other done
  simp only [ne_eq, not_or, not_not] at other done
  exact ⟨other.1, done⟩

variable {call : Call}

theorem Fate.sequence {next : Option Entry} (fate : Fate s now key e call next)
    (here : next = some e') : e'.sequence = e.sequence := by
  cases fate <;> cases here <;> try rfl
  · exact sequence_claim e
  · rename_i sessionId _ ended
    obtain ⟨applied, -, -, retired⟩ := retire_eq ended
    rw [retired]

theorem replayOf_concat (scope : IdempotencyScope) (key : IdempotencyKey) (call : MonotonicMs × Call)
    (result : IdempotencyResult) :
    replayOf scope key (calls ++ [call]) result =
      if scope = .create ∧ call.2 = .markControlClaimed key then (replayOf scope key calls result).claimed
      else replayOf scope key calls result := by
  unfold replayOf
  by_cases create : scope = .create
  · by_cases before : calls.any fun call => call.2 = .markControlClaimed key
    · by_cases marks : call.2 = .markControlClaimed key <;> simp [create, before, marks, claimed_claimed]
    · by_cases marks : call.2 = .markControlClaimed key <;> simp_all
  · simp [create]

theorem Fate.stored {after : Option Entry} (fate : Fate s now key e call after) (here : after = some e')
    (complete : e.state = .complete result retirement) :
    ∃ retirement', e'.state = .complete (replayOf s.scope key [(now, call)] result) retirement' := by
  have single : replayOf s.scope key [(now, call)] result =
      if s.scope = .create ∧ call = .markControlClaimed key then result.claimed else result := by
    simp [replayOf]
  rw [single]
  cases fate with
  | kept call unclaimed =>
    cases here
    split_ifs with marks
    · have same := unclaimed marks.2 marks.1
      have claimed := state_claim complete
      rw [same] at claimed
      exact ⟨_, claimed⟩
    · exact ⟨_, complete⟩
  | completed reservation result' mine checked answered =>
    rw [(checkCompletion_ok checked).2] at complete
    cases complete
  | claimed scope =>
    cases here
    exact ⟨_, by simpa [scope] using state_claim complete⟩
  | retired sessionId scope ended =>
    cases here
    obtain ⟨applied, live, -, retired⟩ := retire_eq ended
    rw [live] at complete
    cases complete
    exact ⟨.terminal, by simp [retired]⟩
  | released => cases here
  | expired => cases here
  | evicted => cases here

theorem not_holds_after (sound : s.Sound) (given : r.sequence < s.nextSequence) (gone : ¬ s.Holds r)
    (calls : List (MonotonicMs × Call)) : ¬ (s.after calls).Holds r := by
  induction calls generalizing s with
  | nil => exact gone
  | cons call rest ih =>
    obtain ⟨next, settings⟩ := perform_sound sound call.1 call.2
    refine ih next (Nat.lt_of_lt_of_le given settings.sequence) ?_
    rintro ⟨e', there, number⟩
    cases before : s.entries[r.key]? with
    | none =>
      obtain ⟨request, -, -, -, rfl⟩ := perform_birth sound before call.1 call.2 there
      have counted : s.nextSequence = r.sequence := number
      omega
    | some e =>
      exact gone ⟨e, before, ((perform_fate sound before call.1 call.2).sequence there).symm.trans number⟩

theorem reserved_of_stored (sound : start.Sound) (empty : start.entries = ∅) (calls : List (MonotonicMs × Call)) :
    ∀ e, (start.after calls).entries[key]? = some e →
      ∃ earlier later request, Reserved start calls key e earlier later request := by
  induction calls using List.reverseRecOn with
  | nil =>
    intro e here
    change start.entries[key]? = some e at here
    simp [empty] at here
  | append_singleton calls last ih =>
    obtain ⟨now, call⟩ := last
    intro e' there
    rw [after_concat] at there
    obtain ⟨known, settings⟩ := after_sound sound calls
    cases before : (start.after calls).entries[key]? with
    | none =>
      obtain ⟨request, called, mine, answered, rfl⟩ := perform_birth known before now call there
      refine ⟨calls, [], request, ?_, mine, ?_, nofun⟩
      · rw [called]
        rfl
      · rw [settings.storeId] at answered
        exact answered
    | some e =>
      obtain ⟨earlier, later, request, split, mine, answered, retired⟩ := ih e before
      have fate := perform_fate known before now call
      have grown : calls ++ [(now, call)] =
          earlier ++ (e.insertedAt, .begin request) :: (later ++ [(now, call)]) := by simp [split]
      rw [there] at fate
      cases fate with
      | kept =>
        refine ⟨earlier, later ++ [(now, call)], request, grown, mine, answered, ?_⟩
        intro applied terminal
        obtain ⟨since, inside⟩ := retired applied terminal
        exact ⟨since, List.mem_append_left _ inside⟩
      | completed reservation result =>
        refine ⟨earlier, later ++ [(now, _)], request, grown, mine, answered, ?_⟩
        intro applied terminal
        cases result <;> cases terminal
      | claimed scope =>
        refine ⟨earlier, later ++ [(now, _)], request, by simpa using grown, mine, by simpa using answered, ?_⟩
        intro applied terminal
        have complete : ∃ before : AppliedResult, e.state = .complete (.applied before) .terminal ∧
            before.sessionId = applied.sessionId := by
          unfold Entry.claim at terminal
          split at terminal
          · rename_i before retirement state
            cases terminal
            exact ⟨before, state, rfl⟩
          · exact ⟨applied, terminal, rfl⟩
        obtain ⟨first, state, same⟩ := complete
        obtain ⟨since, inside⟩ := retired first state
        rw [same] at inside
        exact ⟨since, List.mem_append_left _ inside⟩
      | retired sessionId scope ended =>
        obtain ⟨applied, -, session, retire⟩ := retire_eq ended
        rw [retire]
        refine ⟨earlier, later ++ [(now, _)], request, grown, mine, answered, ?_⟩
        rintro same ⟨⟩
        refine ⟨now, List.mem_append_right _ ?_⟩
        rw [session]
        exact List.mem_singleton_self _

theorem completed_of_stored (sound : start.Sound) (empty : start.entries = ∅) (calls : List (MonotonicMs × Call)) :
    ∀ e result retirement, (start.after calls).entries[key]? = some e → e.state = .complete result retirement →
      ∃ r earlier later now original, r.key = key ∧ r.sequence = e.sequence ∧
        Completed start calls r result earlier later now original := by
  induction calls using List.reverseRecOn with
  | nil =>
    intro e result retirement here
    change start.entries[key]? = some e at here
    simp [empty] at here
  | append_singleton calls last ih =>
    obtain ⟨now, call⟩ := last
    intro e' result' retirement' there complete
    rw [after_concat] at there
    obtain ⟨known, settings⟩ := after_sound sound calls
    cases before : (start.after calls).entries[key]? with
    | none =>
      obtain ⟨request, -, -, -, rfl⟩ := perform_birth known before now call there
      cases complete
    | some e =>
      have fate := perform_fate known before now call
      have number := fate.sequence there
      rcases state : e.state with _ | ⟨result, retirement⟩
      · -- only the completion itself gives an entry in flight a result
        rw [there] at fate
        cases fate with
        | kept =>
          rw [state] at complete
          cases complete
        | completed reservation result mine checked answered =>
          cases complete
          refine ⟨reservation, calls, [], now, result', mine, (checkCompletion_ok checked).1.symm, rfl, answered, ?_⟩
          simp [replayOf]
        | claimed =>
          simp only [Entry.claim, state] at complete
          cases complete
        | retired sessionId scope ended =>
          obtain ⟨applied, live, -, -⟩ := retire_eq ended
          rw [state] at live
          cases live
      · obtain ⟨r, earlier, later, since, original, mine, same, split, answered, stored⟩ :=
          ih e result retirement before state
        obtain ⟨retirement₁, next⟩ := fate.stored there state
        rw [complete] at next
        cases next
        refine ⟨r, earlier, later ++ [(now, call)], since, original, mine, same.trans number.symm, by simp [split],
          answered, ?_⟩
        rw [stored, settings.scope, mine, replayOf_concat]
        simp [replayOf]

theorem stored_after (sound : s.Sound) (here : s.entries[key]? = some e)
    (complete : e.state = .complete result retirement) (calls : List (MonotonicMs × Call)) :
    ∀ e', (s.after calls).entries[key]? = some e' → e'.sequence = e.sequence →
      ∃ retirement', e'.state = .complete (replayOf s.scope key calls result) retirement' := by
  induction calls using List.reverseRecOn with
  | nil =>
    intro e' there number
    change s.entries[key]? = some e' at there
    rw [here] at there
    cases there
    exact ⟨retirement, by simpa [replayOf] using complete⟩
  | append_singleton calls call ih =>
    intro e' there number
    obtain ⟨known, settings⟩ := after_sound sound calls
    let r : Reservation := ⟨key, s.storeId, e.sequence, e.method⟩
    have given : r.sequence < (s.after calls).nextSequence :=
      Nat.lt_of_lt_of_le (sound.used key e here) settings.sequence
    by_cases held : (s.after calls).Holds r
    · obtain ⟨e₁, before, same⟩ := held
      change (s.after calls).entries[key]? = some e₁ at before
      obtain ⟨retirement₁, stored⟩ := ih e₁ before same
      rw [after_concat] at there
      obtain ⟨retirement₂, next⟩ := (perform_fate known before call.1 call.2).stored there stored
      refine ⟨retirement₂, ?_⟩
      rw [next, settings.scope, replayOf_concat]
      simp [replayOf]
    · refine absurd ⟨e', ?_, number⟩ (not_holds_after known given held [call])
      rw [← after_append]
      exact there

theorem Loses.fate (sound : s.Sound) (lost : s.Loses now call key e) : Fate s now key e call none := by
  have fate := perform_fate sound lost.1 now call
  cases there : (s.perform now call).2.entries[key]? with
  | none =>
    rw [there] at fate
    exact fate
  | some e' => exact absurd (fate.sequence there) (lost.2 e' there)

theorem Fate.lost (fate : Fate s now key e call none) :
    (∃ sessionId, call = .retireSession sessionId ∧ s.scope = .session ∧ s.sessionId = some sessionId) ∨
      (∃ result, e.state = .complete result .refused) ∨
      ∃ result, e.state = .complete result .terminal ∧ e.aged now s.ttlFloorMs = true := by
  cases fate with
  | released sessionId scope own => exact .inl ⟨sessionId, rfl, scope, own⟩
  | expired terminal =>
    unfold Entry.isExpired at terminal
    split at terminal
    · rename_i result state
      exact .inr (.inr ⟨result, state, terminal⟩)
    · cases terminal
  | evicted request retirable =>
    unfold Entry.isRetirable at retirable
    split at retirable
    · cases retirable
    · cases retirable
    · rename_i result state
      exact .inr (.inl ⟨result, state⟩)
    · rename_i result state
      exact .inr (.inr ⟨result, state, retirable⟩)

/-- An earlier `begin` told its caller to execute. -/
def Executed (start : IdempotencyStore) (calls : List (MonotonicMs × Call)) (r : Reservation) : Prop :=
  ∃ earlier now request later, calls = earlier ++ (now, .begin request) :: later ∧
    ((start.after earlier).begin request now).1 = .ok (.execute r)

theorem begin_execute (sound : s.Sound) {request : IdempotentRequest}
    (executes : (s.begin request now).1 = .ok (.execute r)) :
    s.entries[request.key]? = none ∧ r = ⟨request.key, s.storeId, s.nextSequence, request.method⟩ ∧
      (s.begin request now).2.Holds r ∧ s.nextSequence < (s.begin request now).2.nextSequence := by
  rcases begin_cases sound now request with ⟨-, other⟩ | ⟨fresh, s₁, evicted, -, reserves⟩
  · exact absurd executes (other r)
  · rw [reserves] at executes ⊢
    cases executes
    refine ⟨fresh, rfl, ⟨reserved request now s.nextSequence, ?_, rfl⟩, Nat.lt_succ_self _⟩
    exact ExtTreeMap.getElem?_insert_self

theorem Executed.given (sound : start.Sound) (executed : start.Executed calls r) :
    r.storeId = start.storeId ∧ r.sequence < (start.after calls).nextSequence := by
  obtain ⟨earlier, now, request, later, rfl, executes⟩ := executed
  obtain ⟨known, settings⟩ := after_sound sound earlier
  obtain ⟨-, rfl, -, counted⟩ := begin_execute known executes
  refine ⟨settings.storeId, ?_⟩
  have rest := (after_sound (begin_sound known now request).1 later).2.sequence
  rw [after_append]
  exact Nat.lt_of_lt_of_le counted rest

theorem complete_stale (mine : r.storeId = s.storeId) (gone : ¬ s.Holds r) (result : IdempotencyResult) :
    s.complete r result = (.error .unknownReservation, s) := by
  unfold complete
  rw [if_neg (not_not.mpr mine)]
  cases found : s.entries[r.key]? with
  | none => rfl
  | some e =>
    have other : e.sequence ≠ r.sequence := fun same => gone ⟨e, found, same⟩
    simp [checkCompletion, other]

theorem begin_replay {request : IdempotentRequest} (replays : (s.begin request now).1 = .ok (.replay result)) :
    ∃ e retirement, s.entries[request.key]? = some e ∧ e.state = .complete result retirement := by
  unfold begin at replays
  by_cases owned : request.method.scope = s.scope
  swap
  · simp [owned] at replays
  rw [if_neg (not_not.mpr owned)] at replays
  cases found : s.entries[request.key]? with
  | some e =>
    rw [found] at replays
    change answerDuplicate e request = _ at replays
    unfold answerDuplicate at replays
    split_ifs at replays
    split at replays
    · cases replays
    · rename_i stored retirement state
      cases replays
      exact ⟨e, retirement, rfl, state⟩
  | none =>
    simp only [found] at replays
    split_ifs at replays
    split at replays <;> cases replays

/-- What a store promises after calls. `sequence` tells entries of one key apart: an entry is removed
where the key has no entry of its sequence, and that is for good. -/
structure Promises (start : IdempotencyStore) (calls : List (MonotonicMs × Call)) : Prop where
  indexed : ∀ (n : Nat) (key : IdempotencyKey), (start.after calls).order[n]? = some key ↔
    ∃ e, (start.after calls).entries[key]? = some e ∧ e.sequence = n
  bounded : (start.after calls).len ≤ (start.after calls).capacity
  unchanged : ∀ now call refusal, ((start.after calls).perform now call).1 = .error refusal →
    ((start.after calls).perform now call).2 = start.after calls
  stored : ∀ now request r, ((start.after calls).begin request now).1 = .ok (.execute r) →
    r.key = request.key ∧ ((start.after calls).begin request now).2.Holds r
  once : ∀ r, start.Executed calls r → (start.after calls).Holds r → ∀ now request r', request.key = r.key →
    ((start.after calls).begin request now).1 ≠ .ok (.execute r')
  stale : ∀ r, start.Executed calls r → ¬ (start.after calls).Holds r → ∀ more,
    ¬ (start.after (calls ++ more)).Holds r ∧ ∀ result,
      (start.after (calls ++ more)).complete r result = (.error .unknownReservation, start.after (calls ++ more))
  replayed : ∀ now request result, ((start.after calls).begin request now).1 = .ok (.replay result) →
    ∃ r earlier later since original, r.key = request.key ∧ (start.after calls).Holds r ∧
      Completed start calls r result earlier later since original
  claimed : ∀ (key : IdempotencyKey) e result retirement, (start.after calls).entries[key]? = some e →
    e.state = .complete result retirement → ∀ more e', (start.after (calls ++ more)).entries[key]? = some e' →
      e'.sequence = e.sequence → ∃ retirement', e'.state = .complete (replayOf start.scope key more result) retirement'
  session : start.scope = .session → ∀ now call key e, (start.after calls).Loses now call key e →
    e.state = .inFlight ∨ (∃ applied retirement, e.state = .complete (.applied applied) retirement) →
      ∃ sessionId, call = .retireSession sessionId ∧ start.sessionId = some sessionId
  create : start.scope = .create → ∀ now call key e, (start.after calls).Loses now call key e →
    e.state ≠ .inFlight ∧ ∀ applied retirement, e.state = .complete (.applied applied) retirement →
      (∃ ttl, start.ttlFloorMs = some ttl ∧ ttl ≤ now - e.insertedAt) ∧
        ∃ earlier later request since, Reserved start calls key e earlier later request ∧
          (since, .retireSession applied.sessionId) ∈ later

theorem New.empty (new : start.New) : start.entries = ∅ := by
  cases new <;> rfl

theorem New.ttlFloorMs (new : start.New) (scope : start.scope = .create) : ∃ ttl, start.ttlFloorMs = some ttl := by
  cases new with
  | session => cases scope
  | create storeId limits => exact ⟨limits.createIdempotencyTtlMs, rfl⟩

theorem promises_session (sound : start.Sound) (scope : start.scope = .session)
    (lost : (start.after calls).Loses now call key e)
    (needed : e.state = .inFlight ∨ ∃ applied retirement, e.state = .complete (.applied applied) retirement) :
    ∃ sessionId, call = .retireSession sessionId ∧ start.sessionId = some sessionId := by
  obtain ⟨known, settings⟩ := after_sound sound calls
  have retired := known.retired key e lost.1
  rcases (lost.fate known).lost with ⟨sessionId, called, -, own⟩ | ⟨result, state⟩ | ⟨result, state, -⟩
  · exact ⟨sessionId, called, settings.sessionId ▸ own⟩
  · rcases needed with flight | ⟨applied, retirement, complete⟩
    · rw [flight] at state
      cases state
    · rw [complete] at state
      cases state
      have none := (retired _ _ complete).1.mp rfl
      cases none
  · have create := (retired _ _ state).2 rfl
    rw [settings.scope, scope] at create
    cases create

theorem promises_create (new : start.New) (scope : start.scope = .create)
    (lost : (start.after calls).Loses now call key e) :
    e.state ≠ .inFlight ∧ ∀ applied retirement, e.state = .complete (.applied applied) retirement →
      (∃ ttl, start.ttlFloorMs = some ttl ∧ ttl ≤ now - e.insertedAt) ∧
        ∃ earlier later request since, Reserved start calls key e earlier later request ∧
          (since, .retireSession applied.sessionId) ∈ later := by
  obtain ⟨known, settings⟩ := after_sound new.sound calls
  have retired := known.retired key e lost.1
  rcases (lost.fate known).lost with ⟨sessionId, -, session, -⟩ | ⟨result, state⟩ | ⟨result, state, aged⟩
  · rw [settings.scope, scope] at session
    cases session
  · refine ⟨by simp [state], ?_⟩
    intro applied retirement complete
    rw [state] at complete
    cases complete
    have none := (retired _ _ state).1.mp rfl
    cases none
  · refine ⟨by simp [state], ?_⟩
    intro applied retirement complete
    obtain ⟨ttl, floor⟩ := new.ttlFloorMs scope
    obtain ⟨earlier, later, request, origin⟩ := reserved_of_stored new.sound new.empty calls e lost.1
    rw [state] at complete
    cases complete
    obtain ⟨since, inside⟩ := origin.retired applied state
    refine ⟨⟨ttl, floor, ?_⟩, earlier, later, request, since, origin, inside⟩
    rw [settings.ttlFloorMs, floor] at aged
    simpa [Entry.aged] using aged

theorem after_promises (new : start.New) (calls : List (MonotonicMs × Call)) : Promises start calls := by
  have sound := new.sound
  obtain ⟨known, settings⟩ := after_sound sound calls
  refine ⟨known.indexed, known.bounded, fun now call refusal => perform_refused known now call, ?_, ?_, ?_, ?_, ?_,
    fun scope now call key e => promises_session sound scope, fun scope now call key e => promises_create new scope⟩
  · intro now request r executes
    obtain ⟨-, rfl, held, -⟩ := begin_execute known executes
    exact ⟨rfl, held⟩
  · intro r executed held now request r' mine executes
    obtain ⟨e, here, -⟩ := held
    rw [← mine, (begin_execute known executes).1] at here
    cases here
  · intro r executed gone more
    obtain ⟨own, given⟩ := executed.given sound
    have never : ¬ (start.after (calls ++ more)).Holds r := by
      rw [after_append]
      exact not_holds_after known given gone more
    refine ⟨never, fun result => complete_stale ?_ never result⟩
    rw [own, (after_sound sound (calls ++ more)).2.storeId]
  · intro now request result replays
    obtain ⟨e, retirement, here, complete⟩ := begin_replay replays
    obtain ⟨r, earlier, later, since, original, mine, same, completed⟩ :=
      completed_of_stored sound new.empty calls e result retirement here complete
    refine ⟨r, earlier, later, since, original, mine, ⟨e, ?_, same.symm⟩, completed⟩
    rw [mine]
    exact here
  · intro key e result retirement here complete more e' there number
    rw [after_append] at there
    rw [← settings.scope]
    exact stored_after known here complete more e' there number

theorem after_promises_create : Promises (.create 1 ⟨512, 65536, 128, 32768, 86400000⟩)
    [(5, .begin ⟨⟨1⟩, .create, ⟨.terminalDigest, 2⟩, ⟨3⟩, 4⟩), (9, .evictExpired)] := after_promises (.create _ _) _

end IdempotencyStore

end Bitty.Daemon
