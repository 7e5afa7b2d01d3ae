import Bitty.Daemon.Idempotency.Sound

namespace Bitty.Daemon

open Std

namespace IdempotencyStore

variable {s s' : IdempotencyStore} {key : IdempotencyKey} {e : Entry} {now : MonotonicMs} {n : Nat}

inductive Call
  | begin (request : IdempotentRequest)
  | complete (reservation : Reservation) (result : IdempotencyResult)
  | retireSession (sessionId : SessionId)
  | markControlClaimed (key : IdempotencyKey)
  | evictExpired
  deriving DecidableEq

inductive Answer
  | admitted (admission : Admission)
  | completed
  | retired (count : Nat)
  | marked
  | evicted (count : Nat)

def perform (now : MonotonicMs) (s : IdempotencyStore) : Call → Except IdempotencyRefusal Answer × IdempotencyStore
  | .begin request => ((s.begin request now).1.map .admitted, (s.begin request now).2)
  | .complete reservation result =>
    ((s.complete reservation result).1.map fun _ => .completed, (s.complete reservation result).2)
  | .retireSession sessionId => ((s.retireSession sessionId).1.map .retired, (s.retireSession sessionId).2)
  | .markControlClaimed key => ((s.markControlClaimed key).1.map fun _ => .marked, (s.markControlClaimed key).2)
  | .evictExpired => (.ok (.evicted (s.evictExpired now).1), (s.evictExpired now).2)

inductive Fate (s : IdempotencyStore) (now : MonotonicMs) (key : IdempotencyKey) (e : Entry) :
    Call → Option Entry → Prop
  | kept (call : Call) (unclaimed : call = .markControlClaimed key → s.scope = .create → e.claim = e) :
    Fate s now key e call (some e)
  | completed (reservation : Reservation) (result : IdempotencyResult) (mine : reservation.key = key)
    (checked : checkCompletion reservation result e = .ok ()) (answered : (s.complete reservation result).1 = .ok ()) :
    Fate s now key e (.complete reservation result) (some { e with state := .complete result (retirementOf result) })
  | claimed (scope : s.scope = .create) : Fate s now key e (.markControlClaimed key) (some e.claim)
  | retired (sessionId : SessionId) (scope : s.scope = .create) (ended : e.appliedSession = some sessionId) :
    Fate s now key e (.retireSession sessionId) (some e.retire)
  | released (sessionId : SessionId) (scope : s.scope = .session) (own : s.sessionId = some sessionId) :
    Fate s now key e (.retireSession sessionId) none
  | expired (terminal : e.isExpired now s.ttlFloorMs = true) : Fate s now key e .evictExpired none
  | evicted (request : IdempotentRequest) (retirable : e.isRetirable now s.ttlFloorMs = true) :
    Fate s now key e (.begin request) none

theorem begin_cases (sound : s.Sound) (now : MonotonicMs) (request : IdempotentRequest) :
    ((s.begin request now).2 = s ∧ ∀ r, (s.begin request now).1 ≠ .ok (.execute r)) ∨
      s.entries[request.key]? = none ∧ ∃ s₁ : IdempotencyStore,
        (s₁ = s ∨ ∃ n key e, s.Places n key e ∧ e.isRetirable now s.ttlFloorMs = true ∧ s₁ = s.drop (n, key)) ∧
        s₁.len < s₁.capacity ∧
        s.begin request now = (.ok (.execute ⟨request.key, s.storeId, s.nextSequence, request.method⟩),
          s₁.insert request now s.nextSequence) := by
  unfold begin
  by_cases owned : request.method.scope = s.scope
  swap
  · simp [owned]
  rw [if_neg (not_not.mpr owned)]
  cases found : s.entries[request.key]? with
  | some e =>
    refine .inl ⟨rfl, ?_⟩
    intro r
    show answerDuplicate e request ≠ _
    unfold answerDuplicate
    split_ifs
    · simp
    · simp
    · split <;> simp
  | none =>
    by_cases empty : s.capacity = 0
    · simp [empty]
    by_cases last : s.nextSequence = U64_MAX
    · simp [empty, last]
    rcases makeRoom_cases sound now (Nat.pos_of_ne_zero empty) with
      full | ⟨kept, room⟩ | ⟨n, key, e, placed, retirable, made, room⟩
    · simp [empty, last, full]
    · refine .inr ⟨rfl, s, .inl rfl, room, ?_⟩
      simp [empty, last, kept]
    · refine .inr ⟨rfl, s.drop (n, key), .inr ⟨n, key, e, placed, retirable, rfl⟩, room, ?_⟩
      simp only [empty, last, made, if_false]
      rfl

theorem complete_cases (reservation : Reservation) (result : IdempotencyResult) :
    ((s.complete reservation result).2 = s ∧ (s.complete reservation result).1 ≠ .ok ()) ∨
      ∃ e, s.entries[reservation.key]? = some e ∧ checkCompletion reservation result e = .ok () ∧
        s.complete reservation result = (.ok (),
          { s with entries := s.entries.insert reservation.key
                    { e with state := .complete result (retirementOf result) } }) := by
  unfold complete
  by_cases own : reservation.storeId = s.storeId
  swap
  · simp [own]
  rw [if_neg (not_not.mpr own)]
  cases found : s.entries[reservation.key]? with
  | none => simp
  | some e =>
    cases checked : checkCompletion reservation result e with
    | error refusal => simp [checked]
    | ok _ =>
      refine .inr ⟨e, rfl, checked, ?_⟩
      simp [checked]

theorem markControlClaimed_cases (key : IdempotencyKey) :
    ((s.markControlClaimed key).2 = s ∧ (s.scope = .create → ∀ e, s.entries[key]? = some e → e.claim = e)) ∨
      ∃ e result retirement, s.scope = .create ∧ s.entries[key]? = some e ∧
        e.state = .complete (.applied result) retirement ∧
        s.markControlClaimed key = (.ok (), { s with entries := s.entries.insert key e.claim }) := by
  unfold markControlClaimed
  by_cases scope : s.scope = .create
  swap
  · simp [scope]
  rw [if_neg (not_not.mpr scope)]
  cases found : s.entries[key]? with
  | none => simp
  | some e =>
    rcases state : e.state with _ | ⟨_ | _ | _, retirement⟩
    · refine .inl ⟨by simp [state], ?_⟩
      rintro - e' ⟨⟩
      simp [Entry.claim, state]
    · exact .inr ⟨e, _, retirement, scope, rfl, state, by simp [state]⟩
    · refine .inl ⟨by simp [state], ?_⟩
      rintro - e' ⟨⟩
      simp [Entry.claim, state]
    · refine .inl ⟨by simp [state], ?_⟩
      rintro - e' ⟨⟩
      simp [Entry.claim, state]

theorem retireSession_cases (sound : s.Sound) (sessionId : SessionId) :
    ((s.retireSession sessionId).2 = s ∧ s.scope = .session ∧ s.sessionId ≠ some sessionId) ∨
      (s.scope = .session ∧ s.sessionId = some sessionId ∧
        s.retireSession sessionId = (.ok s.len, { s with entries := ∅, order := ∅ })) ∨
      (s.scope = .create ∧ ∃ count, s.retireSession sessionId = (.ok count,
        { s with entries := s.entries.map fun _ e =>
                  if e.appliedSession = some sessionId then e.retire else e })) := by
  have owner := sound.owner
  unfold retireSession
  cases scope : s.scope with
  | session =>
    obtain ⟨expected, own⟩ := Option.isSome_iff_exists.mp (owner.mp scope)
    by_cases same : sessionId = expected
    · subst same
      exact .inr (.inl ⟨rfl, own, by simp [own]⟩)
    · refine .inl ⟨by simp [own, same], rfl, ?_⟩
      rw [own]
      exact fun equal => same (Option.some.inj equal).symm
  | create =>
    exact .inr (.inr ⟨rfl, (s.entries.filter fun _ e => e.appliedSession = some sessionId).size, by simp⟩)

theorem foldl_drop (places : List (Nat × IdempotencyKey)) (s : IdempotencyStore) :
    places.foldl drop s =
      { s with
        entries := (places.map Prod.snd).foldl (fun t key => t.erase key) s.entries
        order := (places.map Prod.fst).foldl (fun t n => t.erase n) s.order } := by
  induction places generalizing s with
  | nil => rfl
  | cons first rest ih =>
    rw [List.foldl_cons, ih]
    rfl

/-- The entries that `evictExpired` drops, by their places. -/
def expired (s : IdempotencyStore) (now : MonotonicMs) : List (Nat × IdempotencyKey) :=
  s.order.toList.filter (s.listed fun e => e.isExpired now s.ttlFloorMs)

theorem mem_expired (place : Nat × IdempotencyKey) :
    place ∈ s.expired now ↔ ∃ e, s.Places place.1 place.2 e ∧ e.isExpired now s.ttlFloorMs = true := by
  unfold expired
  rw [List.mem_filter, ExtTreeMap.mem_toList_iff_getElem?_eq_some, listed, Option.any_eq_true]
  constructor
  · rintro ⟨found, e, here, chosen⟩
    exact ⟨e, ⟨found, here⟩, chosen⟩
  · rintro ⟨e, ⟨found, here⟩, chosen⟩
    exact ⟨found, e, here, chosen⟩

theorem mem_expired_key (sound : s.Sound) (here : s.entries[key]? = some e) :
    key ∈ (s.expired now).map Prod.snd ↔ e.isExpired now s.ttlFloorMs = true := by
  rw [List.mem_map]
  constructor
  · rintro ⟨place, inside, rfl⟩
    obtain ⟨e', ⟨-, there⟩, chosen⟩ := (mem_expired place).mp inside
    rw [here] at there
    cases there
    exact chosen
  · intro chosen
    exact ⟨(e.sequence, key), (mem_expired _).mpr ⟨e, ⟨(sound.indexed _ _).mpr ⟨e, here, rfl⟩, here⟩, chosen⟩, rfl⟩

theorem mem_expired_sequence (sound : s.Sound) (here : s.entries[key]? = some e) :
    e.sequence ∈ (s.expired now).map Prod.fst ↔ e.isExpired now s.ttlFloorMs = true := by
  rw [List.mem_map]
  constructor
  · rintro ⟨place, inside, equal⟩
    obtain ⟨e', ⟨found, there⟩, chosen⟩ := (mem_expired place).mp inside
    rw [equal, (sound.indexed _ _).mpr ⟨e, here, rfl⟩] at found
    rw [← Option.some.inj found, here] at there
    cases there
    exact chosen
  · intro chosen
    exact ⟨(e.sequence, key), (mem_expired _).mpr ⟨e, ⟨(sound.indexed _ _).mpr ⟨e, here, rfl⟩, here⟩, chosen⟩, rfl⟩

theorem find_evictExpired (key : IdempotencyKey) :
    (s.evictExpired now).2.entries[key]? = if key ∈ (s.expired now).map Prod.snd then none else s.entries[key]? := by
  show ((s.expired now).foldl drop s).entries[key]? = _
  rw [foldl_drop]
  exact TreeMap.find_foldl_erase _ _ _

theorem Sound.evictExpired (sound : s.Sound) : (s.evictExpired now).2.Sound := by
  show ((s.expired now).foldl IdempotencyStore.drop s).Sound
  rw [foldl_drop]
  refine sound.part ?_ ?_
  · intro key e here
    rw [TreeMap.find_foldl_erase] at here
    split_ifs at here
    exact here
  · intro n key
    simp only [TreeMap.find_foldl_erase]
    constructor
    · intro found
      split_ifs at found with dropped
      obtain ⟨e, here, rfl⟩ := (sound.indexed n key).mp found
      refine ⟨e, ?_, rfl⟩
      rw [if_neg fun inside => dropped ((mem_expired_sequence sound here).mpr ((mem_expired_key sound here).mp inside))]
      exact here
    · rintro ⟨e, here, rfl⟩
      split_ifs at here with dropped
      rw [if_neg fun inside => dropped ((mem_expired_key sound here).mpr ((mem_expired_sequence sound here).mp inside))]
      exact (sound.indexed _ _).mpr ⟨e, here, rfl⟩

theorem Sound.replaced {e' : Entry} (sound : s.Sound) (here : s.entries[key]? = some e)
    (number : e'.sequence = e.sequence) (retired : e'.Retired s.scope) :
    ({ s with entries := s.entries.insert key e' } : IdempotencyStore).Sound := by
  refine sound.revalued ?_ ?_ ?_
  · intro other
    rw [TreeMap.find_insert]
    split_ifs with same
    · rw [← same, here]
      exact congrArg some number
    · rfl
  · rw [ExtTreeMap.size_insert, if_pos]
    exact (TreeMap.mem_iff _ _).mpr ⟨e, here⟩
  · intro other e₁ there
    rw [TreeMap.find_insert] at there
    split_ifs at there
    · cases there
      exact retired
    · exact sound.retired other e₁ there

theorem retired_retirementOf (scope : IdempotencyScope) (e : Entry) (result : IdempotencyResult) :
    ({ e with state := .complete result (retirementOf result) } : Entry).Retired scope := by
  intro result' retirement complete
  cases complete
  cases result <;> simp [retirementOf, IdempotencyResult.isApplied]

theorem Sound.placed_fresh {s₁ : IdempotencyStore} (sound : s.Sound) (fresh : s.entries[key]? = none)
    (evicted : s₁ = s ∨ ∃ n key e, s.Places n key e ∧ e.isRetirable now s.ttlFloorMs = true ∧ s₁ = s.drop (n, key)) :
    s₁.Sound ∧ s₁.entries[key]? = none ∧ SameSettings s s₁ ∧ s₁.nextSequence = s.nextSequence := by
  rcases evicted with rfl | ⟨n, victim, e, placed, -, rfl⟩
  · exact ⟨sound, fresh, .refl _, rfl⟩
  · refine ⟨sound.drop placed.1, ?_, ⟨rfl, rfl, rfl, rfl, rfl, Nat.le_refl _⟩, rfl⟩
    rw [find_drop, fresh, ite_self]

theorem begin_sound (sound : s.Sound) (now : MonotonicMs) (request : IdempotentRequest) :
    (s.begin request now).2.Sound ∧ SameSettings s (s.begin request now).2 := by
  rcases begin_cases sound now request with ⟨same, -⟩ | ⟨fresh, s₁, evicted, room, reserves⟩
  · rw [same]
    exact ⟨sound, .refl s⟩
  · obtain ⟨sound₁, fresh₁, settings, sequence⟩ := sound.placed_fresh fresh evicted
    rw [reserves, ← sequence]
    exact ⟨sound₁.insert fresh₁ room, settings.trans ⟨rfl, rfl, rfl, rfl, rfl, Nat.le_succ _⟩⟩

theorem retireSession_sound (sound : s.Sound) (sessionId : SessionId) :
    (s.retireSession sessionId).2.Sound ∧ SameSettings s (s.retireSession sessionId).2 := by
  rcases retireSession_cases sound sessionId with ⟨same, -, -⟩ | ⟨-, -, clears⟩ | ⟨scope, count, marks⟩
  · rw [same]
    exact ⟨sound, .refl s⟩
  · rw [clears]
    refine ⟨sound.part ?_ ?_, ⟨rfl, rfl, rfl, rfl, rfl, Nat.le_refl _⟩⟩
    · intro key e here
      simp at here
    · intro n key
      simp
  · rw [marks]
    refine ⟨sound.revalued ?_ ExtTreeMap.size_map ?_, ⟨rfl, rfl, rfl, rfl, rfl, Nat.le_refl _⟩⟩
    · intro key
      rw [ExtTreeMap.getElem?_map, Option.map_map]
      congr 1
      funext e
      show (if e.appliedSession = some sessionId then e.retire else e).sequence = e.sequence
      split_ifs
      · unfold Entry.retire
        split <;> rfl
      · rfl
    · intro key e here
      rw [ExtTreeMap.getElem?_map] at here
      obtain ⟨e₀, before, rfl⟩ := Option.map_eq_some_iff.mp here
      have retired := sound.retired key e₀ before
      split_ifs with ended
      · intro result retirement complete
        rcases state : e₀.state with _ | ⟨result₀, retirement₀⟩
        · simp [Entry.appliedSession, state] at ended
        · simp only [Entry.retire, state] at complete
          cases complete
          have live : retirement₀ = .live := by
            cases result <;> cases retirement₀ <;> simp [Entry.appliedSession, state] at ended ⊢
          have applied := (retired result retirement₀ state).1
          rw [live] at applied
          exact ⟨by simpa using applied, fun _ => scope⟩
      · exact retired

theorem perform_sound (sound : s.Sound) (now : MonotonicMs) (call : Call) :
    (s.perform now call).2.Sound ∧ SameSettings s (s.perform now call).2 := by
  cases call with
  | begin request => exact begin_sound sound now request
  | complete reservation result =>
    show (s.complete reservation result).2.Sound ∧ SameSettings s (s.complete reservation result).2
    rcases complete_cases (s := s) reservation result with ⟨same, -⟩ | ⟨e, here, -, completes⟩
    · rw [same]
      exact ⟨sound, .refl s⟩
    · rw [completes]
      exact ⟨sound.replaced here rfl (retired_retirementOf s.scope e result), ⟨rfl, rfl, rfl, rfl, rfl, Nat.le_refl _⟩⟩
  | retireSession sessionId => exact retireSession_sound sound sessionId
  | markControlClaimed key =>
    show (s.markControlClaimed key).2.Sound ∧ SameSettings s (s.markControlClaimed key).2
    rcases markControlClaimed_cases (s := s) key with ⟨same, -⟩ | ⟨e, applied, retirement, -, here, state, marks⟩
    · rw [same]
      exact ⟨sound, .refl s⟩
    · rw [marks]
      have retired := sound.retired key e here
      refine ⟨sound.replaced here ?_ ?_, ⟨rfl, rfl, rfl, rfl, rfl, Nat.le_refl _⟩⟩
      · simp [Entry.claim, state]
      · intro result' retirement' complete
        simp only [Entry.claim, state] at complete
        cases complete
        exact retired (.applied applied) _ state
  | evictExpired =>
    refine ⟨sound.evictExpired, ?_⟩
    show SameSettings s ((s.expired now).foldl drop s)
    rw [foldl_drop]
    exact ⟨rfl, rfl, rfl, rfl, rfl, Nat.le_refl _⟩

theorem perform_refused (sound : s.Sound) (now : MonotonicMs) (call : Call) {refusal : IdempotencyRefusal}
    (refused : (s.perform now call).1 = .error refusal) : (s.perform now call).2 = s := by
  cases call with
  | begin request =>
    rcases begin_cases sound now request with ⟨same, -⟩ | ⟨-, s₁, -, -, reserves⟩
    · exact same
    · simp [perform, reserves, Except.map] at refused
  | complete reservation result =>
    rcases complete_cases (s := s) reservation result with ⟨same, -⟩ | ⟨e, -, -, completes⟩
    · exact same
    · simp [perform, completes, Except.map] at refused
  | retireSession sessionId =>
    rcases retireSession_cases sound sessionId with ⟨same, -, -⟩ | ⟨-, -, clears⟩ | ⟨-, count, marks⟩
    · exact same
    · simp [perform, clears, Except.map] at refused
    · simp [perform, marks, Except.map] at refused
  | markControlClaimed key =>
    rcases markControlClaimed_cases (s := s) key with ⟨same, -⟩ | ⟨e, -, -, -, -, -, marks⟩
    · exact same
    · simp [perform, marks, Except.map] at refused
  | evictExpired => cases refused

theorem perform_fate (sound : s.Sound) (here : s.entries[key]? = some e) (now : MonotonicMs) (call : Call) :
    Fate s now key e call (s.perform now call).2.entries[key]? := by
  cases call with
  | begin request =>
    show Fate s now key e _ (s.begin request now).2.entries[key]?
    rcases begin_cases sound now request with ⟨same, -⟩ | ⟨fresh, s₁, evicted, -, reserves⟩
    · rw [same, here]
      exact .kept _ nofun
    · have other : request.key ≠ key := by
        rintro rfl
        rw [fresh] at here
        cases here
      rw [reserves]
      show Fate s now key e _ (s₁.entries.insert request.key _)[key]?
      rw [TreeMap.find_insert, if_neg other]
      rcases evicted with rfl | ⟨n, victim, e', placed, retirable, rfl⟩
      · rw [here]
        exact .kept _ nofun
      · rw [find_drop]
        by_cases same : victim = key
        · subst same
          rw [if_pos rfl]
          rw [placed.2] at here
          cases here
          exact .evicted request retirable
        · rw [if_neg same, here]
          exact .kept _ nofun
  | complete reservation result =>
    show Fate s now key e _ (s.complete reservation result).2.entries[key]?
    rcases complete_cases (s := s) reservation result with ⟨same, -⟩ | ⟨e', there, checked, completes⟩
    · rw [same, here]
      exact .kept _ nofun
    · have answered : (s.complete reservation result).1 = .ok () := by rw [completes]
      rw [completes]
      show Fate s now key e _ (s.entries.insert reservation.key _)[key]?
      rw [TreeMap.find_insert]
      by_cases mine : reservation.key = key
      · rw [if_pos mine]
        rw [mine, here] at there
        cases there
        exact .completed reservation result mine checked answered
      · rw [if_neg mine, here]
        exact .kept _ nofun
  | retireSession sessionId =>
    show Fate s now key e _ (s.retireSession sessionId).2.entries[key]?
    rcases retireSession_cases sound sessionId with ⟨same, -, -⟩ | ⟨scope, own, clears⟩ | ⟨scope, count, marks⟩
    · rw [same, here]
      exact .kept _ nofun
    · rw [clears]
      show Fate s now key e _ (∅ : ExtTreeMap IdempotencyKey Entry)[key]?
      rw [ExtTreeMap.getElem?_empty]
      exact .released sessionId scope own
    · rw [marks]
      show Fate s now key e _ (s.entries.map _)[key]?
      rw [ExtTreeMap.getElem?_map, here, Option.map_some]
      split_ifs with ended
      · exact .retired sessionId scope ended
      · exact .kept _ nofun
  | markControlClaimed marked =>
    show Fate s now key e _ (s.markControlClaimed marked).2.entries[key]?
    rcases markControlClaimed_cases (s := s) marked with ⟨same, still⟩ | ⟨e', _, _, scope, there, -, marks⟩
    · rw [same, here]
      refine .kept _ ?_
      rintro ⟨⟩ scope
      exact still scope e here
    · rw [marks]
      show Fate s now key e _ (s.entries.insert marked _)[key]?
      rw [TreeMap.find_insert]
      by_cases mine : marked = key
      · subst mine
        rw [here] at there
        cases there
        rw [if_pos rfl]
        exact .claimed scope
      · rw [if_neg mine, here]
        refine .kept _ ?_
        rintro ⟨⟩
        exact absurd rfl mine
  | evictExpired =>
    show Fate s now key e _ (s.evictExpired now).2.entries[key]?
    rw [find_evictExpired]
    split_ifs with dropped
    · exact .expired ((mem_expired_key sound here).mp dropped)
    · rw [here]
      exact .kept _ nofun

theorem perform_birth (sound : s.Sound) (fresh : s.entries[key]? = none) (now : MonotonicMs) (call : Call)
    (here : (s.perform now call).2.entries[key]? = some e) :
    ∃ request : IdempotentRequest, call = .begin request ∧ request.key = key ∧
      (s.begin request now).1 = .ok (.execute ⟨key, s.storeId, s.nextSequence, request.method⟩) ∧
      e = reserved request now s.nextSequence := by
  cases call with
  | begin request =>
    change (s.begin request now).2.entries[key]? = some e at here
    rcases begin_cases sound now request with ⟨same, -⟩ | ⟨unused, s₁, evicted, -, reserves⟩
    · rw [same, fresh] at here
      cases here
    · rw [reserves] at here
      change (s₁.entries.insert request.key _)[key]? = some e at here
      rw [TreeMap.find_insert, (sound.placed_fresh fresh evicted).2.1] at here
      split_ifs at here with mine
      subst mine
      cases here
      exact ⟨request, rfl, rfl, by rw [reserves], rfl⟩
  | complete reservation result =>
    change (s.complete reservation result).2.entries[key]? = some e at here
    rcases complete_cases (s := s) reservation result with ⟨same, -⟩ | ⟨e', there, -, completes⟩
    · rw [same, fresh] at here
      cases here
    · rw [completes] at here
      change (s.entries.insert reservation.key _)[key]? = some e at here
      rw [TreeMap.find_insert, fresh] at here
      split_ifs at here with mine
      rw [mine, fresh] at there
      cases there
  | retireSession sessionId =>
    change (s.retireSession sessionId).2.entries[key]? = some e at here
    rcases retireSession_cases sound sessionId with ⟨same, -, -⟩ | ⟨-, -, clears⟩ | ⟨-, count, marks⟩
    · rw [same, fresh] at here
      cases here
    · rw [clears] at here
      simp at here
    · rw [marks] at here
      simp [fresh] at here
  | markControlClaimed marked =>
    change (s.markControlClaimed marked).2.entries[key]? = some e at here
    rcases markControlClaimed_cases (s := s) marked with ⟨same, -⟩ | ⟨e', _, _, -, there, -, marks⟩
    · rw [same, fresh] at here
      cases here
    · rw [marks] at here
      change (s.entries.insert marked _)[key]? = some e at here
      rw [TreeMap.find_insert, fresh] at here
      split_ifs at here with mine
      rw [mine, fresh] at there
      cases there
  | evictExpired =>
    change (s.evictExpired now).2.entries[key]? = some e at here
    rw [find_evictExpired, fresh, ite_self] at here
    cases here

end IdempotencyStore

end Bitty.Daemon
