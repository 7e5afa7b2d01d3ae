import Bitty.Daemon.Idempotency.Store

namespace Bitty.Daemon

open Std

/-- A completed entry is retired the way its result allows: only a create key outlives its session. -/
def Entry.Retired (scope : IdempotencyScope) (e : Entry) : Prop :=
  ∀ result retirement, e.state = .complete result retirement →
    (retirement = .refused ↔ result.isApplied = false) ∧ (retirement = .terminal → scope = .create)

namespace IdempotencyStore

variable {s s' : IdempotencyStore} {key : IdempotencyKey} {e : Entry} {now : MonotonicMs} {n : Nat}

def Places (s : IdempotencyStore) (n : Nat) (key : IdempotencyKey) (e : Entry) : Prop :=
  s.order[n]? = some key ∧ s.entries[key]? = some e

/-- What every store keeps: the order lists each stored key once, under the sequence of its entry. -/
structure Sound (s : IdempotencyStore) : Prop where
  indexed : ∀ (n : Nat) (key : IdempotencyKey),
    s.order[n]? = some key ↔ ∃ e, s.entries[key]? = some e ∧ e.sequence = n
  used : ∀ (key : IdempotencyKey) e, s.entries[key]? = some e → e.sequence < s.nextSequence
  bounded : s.len ≤ s.capacity
  owner : s.scope = .session ↔ s.sessionId.isSome
  retired : ∀ (key : IdempotencyKey) e, s.entries[key]? = some e → e.Retired s.scope

structure SameSettings (s s' : IdempotencyStore) : Prop where
  storeId : s'.storeId = s.storeId
  scope : s'.scope = s.scope
  sessionId : s'.sessionId = s.sessionId
  capacity : s'.capacity = s.capacity
  ttlFloorMs : s'.ttlFloorMs = s.ttlFloorMs
  sequence : s.nextSequence ≤ s'.nextSequence

theorem SameSettings.refl (s : IdempotencyStore) : SameSettings s s := ⟨rfl, rfl, rfl, rfl, rfl, Nat.le_refl _⟩

theorem SameSettings.trans {s₁ s₂ s₃ : IdempotencyStore} (first : SameSettings s₁ s₂) (second : SameSettings s₂ s₃) :
    SameSettings s₁ s₃ where
  storeId := second.storeId.trans first.storeId
  scope := second.scope.trans first.scope
  sessionId := second.sessionId.trans first.sessionId
  capacity := second.capacity.trans first.capacity
  ttlFloorMs := second.ttlFloorMs.trans first.ttlFloorMs
  sequence := Nat.le_trans first.sequence second.sequence

theorem Sound.revalued {entries : ExtTreeMap IdempotencyKey Entry} (sound : s.Sound)
    (sequences : ∀ key : IdempotencyKey, entries[key]?.map Entry.sequence = s.entries[key]?.map Entry.sequence)
    (size : entries.size = s.entries.size)
    (retired : ∀ (key : IdempotencyKey) (e : Entry), entries[key]? = some e → e.Retired s.scope) :
    ({ s with entries := entries } : IdempotencyStore).Sound := by
  have same : ∀ (key : IdempotencyKey) n,
      (∃ e, entries[key]? = some e ∧ e.sequence = n) ↔ ∃ e, s.entries[key]? = some e ∧ e.sequence = n := by
    intro key n
    have known := sequences key
    rw [← Option.map_eq_some_iff, ← Option.map_eq_some_iff, known]
  refine ⟨?_, ?_, ?_, sound.owner, retired⟩
  · intro n key
    rw [same key n]
    exact sound.indexed n key
  · intro key e here
    obtain ⟨e', before, number⟩ := (same key e.sequence).mp ⟨e, here, rfl⟩
    have least := sound.used key e' before
    rw [number] at least
    exact least
  · show entries.size ≤ s.capacity
    rw [size]
    exact sound.bounded

theorem Sound.part {entries : ExtTreeMap IdempotencyKey Entry} {order : ExtTreeMap Nat IdempotencyKey} (sound : s.Sound)
    (sub : ∀ (key : IdempotencyKey) e, entries[key]? = some e → s.entries[key]? = some e)
    (indexed : ∀ (n : Nat) (key : IdempotencyKey),
      order[n]? = some key ↔ ∃ e : Entry, entries[key]? = some e ∧ e.sequence = n) :
    ({ s with entries := entries, order := order } : IdempotencyStore).Sound where
  indexed := indexed
  used key e here := sound.used key e (sub key e here)
  bounded := Nat.le_trans (TreeMap.size_le_of_sub sub) sound.bounded
  owner := sound.owner
  retired key e here := sound.retired key e (sub key e here)

theorem find_drop (place : Nat × IdempotencyKey) (key : IdempotencyKey) :
    (s.drop place).entries[key]? = if place.2 = key then none else s.entries[key]? := TreeMap.find_erase _ _ _

theorem sub_drop (place : Nat × IdempotencyKey) (key : IdempotencyKey) (e : Entry)
    (here : (s.drop place).entries[key]? = some e) : s.entries[key]? = some e := by
  rw [find_drop] at here
  split_ifs at here
  exact here

theorem Sound.drop (sound : s.Sound) (listed : s.order[n]? = some key) : (s.drop (n, key)).Sound := by
  refine sound.part (sub_drop (n, key)) ?_
  intro m other
  show (s.order.erase n)[m]? = some other ↔ _
  rw [TreeMap.find_erase]
  have known := sound.indexed m other
  constructor
  · intro found
    split_ifs at found with same
    obtain ⟨e, here, number⟩ := known.mp found
    refine ⟨e, ?_, number⟩
    have apart : key ≠ other := by
      intro equal
      obtain ⟨e', there, number'⟩ := (sound.indexed n key).mp listed
      rw [equal, here] at there
      cases there
      exact same (number'.symm.trans number)
    show (s.entries.erase key)[other]? = some e
    rw [TreeMap.find_erase, if_neg apart]
    exact here
  · rintro ⟨e, here, number⟩
    change (s.entries.erase key)[other]? = some e at here
    rw [TreeMap.find_erase] at here
    split_ifs at here with same
    have found := known.mpr ⟨e, here, number⟩
    have apart : n ≠ m := by
      intro equal
      rw [← equal, listed] at found
      exact same (Option.some.inj found)
    rw [if_neg apart]
    exact found

theorem len_drop (here : s.entries[key]? = some e) : (s.drop (n, key)).len + 1 = s.len :=
  TreeMap.size_erase_of_find _ _ _ here

theorem evictOldestRetirable_some (evicted : s.evictOldestRetirable now = some s') :
    ∃ n key e, s.Places n key e ∧ e.isRetirable now s.ttlFloorMs = true ∧ s' = s.drop (n, key) := by
  obtain ⟨⟨n, key⟩, found, rfl⟩ := Option.map_eq_some_iff.mp evicted
  have inside := ExtTreeMap.mem_toList_iff_getElem?_eq_some.mp (List.mem_of_find?_eq_some found)
  have chosen := List.find?_some found
  obtain ⟨e, here, retirable⟩ := (Option.any_eq_true _ _).mp chosen
  exact ⟨n, key, e, ⟨inside, here⟩, retirable, rfl⟩

theorem makeRoom_of_room (room : s.len < s.capacity) (rounds : Nat) : s.makeRoom now rounds = (true, s) := by
  cases rounds with
  | zero => simp [makeRoom, room]
  | succ rounds => simp [makeRoom, Nat.not_le_of_lt room]

theorem makeRoom_cases (sound : s.Sound) (now : MonotonicMs) (positive : 0 < s.capacity) :
    s.makeRoom now s.len = (false, s) ∨ (s.makeRoom now s.len = (true, s) ∧ s.len < s.capacity) ∨
      ∃ n key e, s.Places n key e ∧ e.isRetirable now s.ttlFloorMs = true ∧
        s.makeRoom now s.len = (true, s.drop (n, key)) ∧ (s.drop (n, key)).len < s.capacity := by
  have bounded := sound.bounded
  by_cases room : s.len < s.capacity
  · exact .inr (.inl ⟨makeRoom_of_room room _, room⟩)
  · obtain ⟨rounds, count⟩ : ∃ rounds, s.len = rounds + 1 := ⟨s.len - 1, by omega⟩
    rw [count, makeRoom, if_pos (Nat.le_of_not_lt room)]
    cases evicted : s.evictOldestRetirable now with
    | none => exact .inl rfl
    | some s₁ =>
      obtain ⟨n, key, e, placed, retirable, rfl⟩ := evictOldestRetirable_some evicted
      have smaller := len_drop (n := n) placed.2
      have left : (s.drop (n, key)).len < s.capacity := by omega
      exact .inr (.inr ⟨n, key, e, placed, retirable, makeRoom_of_room left rounds, left⟩)

/-- The entry that `begin` reserves. -/
def reserved (request : IdempotentRequest) (now : MonotonicMs) (sequence : Nat) : Entry where
  method := request.method
  target := request.target
  fingerprint := request.fingerprint
  connectionId := request.connectionId
  insertedAt := now
  sequence := sequence
  state := .inFlight

theorem Sound.insert {request : IdempotentRequest} (sound : s.Sound) (fresh : s.entries[request.key]? = none)
    (room : s.len < s.capacity) : (s.insert request now s.nextSequence).Sound := by
  have unused : ∀ (other : IdempotencyKey) e, s.entries[other]? = some e → e.sequence ≠ s.nextSequence := by
    intro other e here
    have least := sound.used other e here
    omega
  have find : ∀ other : IdempotencyKey, (s.insert request now s.nextSequence).entries[other]? =
      if request.key = other then some (reserved request now s.nextSequence) else s.entries[other]? :=
    fun other => TreeMap.find_insert _ _ _ _
  refine ⟨?_, ?_, ?_, sound.owner, ?_⟩
  · intro n other
    show (s.order.insert s.nextSequence request.key)[n]? = some other ↔ _
    rw [TreeMap.find_insert, find]
    by_cases same : request.key = other
    · subst same
      rw [if_pos rfl]
      by_cases number : s.nextSequence = n
      · simp [number, reserved]
      · rw [if_neg number, sound.indexed, fresh]
        simp [reserved, number]
    · rw [if_neg same]
      by_cases number : s.nextSequence = n
      · subst number
        rw [if_pos rfl]
        refine iff_of_false (fun equal => same (Option.some.inj equal)) ?_
        rintro ⟨e, here, equal⟩
        exact unused other e here equal
      · rw [if_neg number, sound.indexed]
  · intro other e here
    rw [find] at here
    show e.sequence < s.nextSequence + 1
    split_ifs at here with same
    · cases here
      exact Nat.lt_succ_self _
    · exact Nat.lt_succ_of_lt (sound.used other e here)
  · show (s.entries.insert request.key _).size ≤ s.capacity
    rw [TreeMap.size_insert_of_fresh _ _ _ fresh]
    exact room
  · intro other e here
    rw [find] at here
    split_ifs at here with same
    · cases here
      intro result retirement impossible
      cases impossible
    · exact sound.retired other e here

end IdempotencyStore

end Bitty.Daemon
