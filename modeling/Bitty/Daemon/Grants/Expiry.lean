import Bitty.Daemon.Grants.Step

namespace Bitty.Daemon

open Std

def Issued.counts (kind : GrantKind) (sessionId : Option SessionId) (now : MonotonicMs) (g : Issued) : Bool :=
  g.kind = kind && (kind = .host || g.sessionId = sessionId) && g.isActive now

namespace GrantStore

variable {digestOf : SecretBearer → BitVec 256} {now later : MonotonicMs} {s : GrantStore} {ledger : List Issued}
variable {g : Issued} {grantId : GrantId} {kind : GrantKind} {sessionId : Option SessionId} {r : GrantRecord}
variable {call : Call} {limits : GrantLimits}

def activeOf (ledger : List Issued) (kind : GrantKind) (sessionId : Option SessionId) (now : MonotonicMs) : Nat :=
  (ledger.filter (Issued.counts kind sessionId now)).length

structure Capped (limits : GrantLimits) (now : MonotonicMs) (s : GrantStore) (ledger : List Issued) : Prop where
  host : activeOf ledger .host none now ≤ limits.maxHost
  observer : ∀ sessionId : SessionId, activeOf ledger .observer (some sessionId) now ≤ limits.maxObserverPerSession
  records : s.grants.size ≤ MAX_GRANT_RECORDS

theorem activeOf_mono {ledger' : List Issued} (fewer : ∀ kind sessionId,
    activeOf ledger' kind sessionId later ≤ activeOf ledger kind sessionId now) (capped : Capped limits now s ledger) :
    Capped limits later s ledger' where
  host := Nat.le_trans (fewer _ _) capped.host
  observer sessionId := Nat.le_trans (fewer _ _) (capped.observer sessionId)
  records := capped.records

theorem Capped.of_le (capped : Capped limits now s ledger) (le : now ≤ later) : Capped limits later s ledger := by
  refine activeOf_mono (fun kind sessionId => ?_) capped
  refine (List.monotone_filter_right ledger fun g chosen => ?_).length_le
  simp only [Issued.counts, Bool.and_eq_true] at chosen ⊢
  exact ⟨chosen.1, Issued.isActive_of_le le chosen.2⟩

theorem activeOf_map_le (ledger : List Issued) (now : MonotonicMs) (f : Issued → Issued)
    (sameKind : ∀ g, (f g).kind = g.kind)
    (sameSession : ∀ g, (f g).sessionId = g.sessionId) (idle : ∀ g, (f g).isActive now = true → g.isActive now = true)
    (kind : GrantKind) (sessionId : Option SessionId) :
    activeOf (ledger.map f) kind sessionId now ≤ activeOf ledger kind sessionId now := by
  unfold activeOf
  rw [List.filter_map, List.length_map]
  refine (List.monotone_filter_right ledger fun g chosen => ?_).length_le
  simp only [Issued.counts, Function.comp_apply, Bool.and_eq_true, sameKind, sameSession] at chosen ⊢
  exact ⟨chosen.1, idle g chosen.2⟩

theorem activeOf_concat_le {cap : Nat} (within : activeOf ledger kind sessionId now ≤ cap)
    (room : g.kind = kind → kind = .host ∨ g.sessionId = sessionId → activeOf ledger kind sessionId now < cap) :
    activeOf (ledger ++ [g]) kind sessionId now ≤ cap := by
  unfold activeOf at within room ⊢
  rw [List.filter_append, List.length_append]
  by_cases counts : g.counts kind sessionId now = true
  · rw [List.filter_cons_of_pos counts, List.filter_nil, List.length_singleton]
    simp only [Issued.counts, Bool.and_eq_true, Bool.or_eq_true, decide_eq_true_eq] at counts
    exact room counts.1.1 counts.1.2
  · rw [List.filter_cons_of_neg counts, List.filter_nil, List.length_nil]
    exact within

theorem size_stored (here : s.grants[grantId]? = some r) (r' : GrantRecord) :
    (s.grants.insert grantId r').size = s.grants.size := by
  rw [ExtTreeMap.size_insert, if_pos]
  exact (TreeMap.mem_iff _ _).mpr ⟨r, here⟩

theorem size_evicted (s : GrantStore) (now : MonotonicMs) : (s.evictExpired now).2.grants.size ≤ s.grants.size :=
  ExtTreeMap.size_filter_le_size

theorem perform_capped (refines : Refines digestOf now s ledger) (injective : Function.Injective digestOf)
    (fresh : call.Fresh ledger) (capped : Capped s.limits now s ledger) :
    Capped s.limits now (perform digestOf now s call).2 (note ledger call (perform digestOf now s call).1) := by
  by_cases draws : call.draw.isSome
  · rcases perform_mint digestOf now s draws with
      ⟨⟨e, failed⟩, same | swept⟩ | ⟨grantId, bearer, g, drawn, told, room, answered, stored, hosts, observers⟩
    · rw [failed, same, note_error]
      exact capped
    · rw [failed, swept, note_error]
      exact ⟨capped.host, capped.observer, Nat.le_trans (size_evicted s now) capped.records⟩
    · obtain ⟨noted, rfl, rfl⟩ := note_told ledger told
      rw [answered, stored, noted]
      refine ⟨activeOf_concat_le capped.host ?_, fun sessionId => activeOf_concat_le (capped.observer sessionId) ?_, ?_⟩
      · intro host _
        have fewer := hosts host
        rw [refines.pending] at fewer
        exact fewer
      · rintro observer (impossible | own)
        · cases impossible
        · have fewer := observers observer
          rw [refines.pending, own] at fewer
          exact fewer
      · have absent : (s.evictExpired now).2.grants[g.grantId]? = none := by
          cases found : (s.evictExpired now).2.grants[g.grantId]? with
          | none => rfl
          | some r =>
            obtain ⟨x, inside, same, -⟩ := refines.evicted.stored _ _ found
            exact absurd (List.mem_map.mpr ⟨x, inside, same⟩) ((fresh _ drawn).1 _ rfl)
        show ((s.evictExpired now).2.grants.insert g.grantId _).size ≤ MAX_GRANT_RECORDS
        rw [TreeMap.size_insert_of_fresh _ _ _ absent]
        exact room
  · cases call with
    | mintHost => exact absurd rfl draws
    | mintObserver => exact absurd rfl draws
    | consume bearer kind peerUid sessionId correlation =>
      rw [perform_consume refines injective]
      cases found : opened ledger bearer kind peerUid sessionId correlation now with
      | none => exact capped
      | some g =>
        obtain ⟨inside, rfl, -, active⟩ := (opened_eq_some refines).mp found
        have fewer := activeOf_mono (activeOf_map_le ledger now
          (fun x => if x.bearer = g.bearer then { x with consumed := true } else x) ?_ ?_ ?_) capped
        · refine ⟨fewer.host, fewer.observer, ?_⟩
          show (s.grants.insert g.grantId _).size ≤ MAX_GRANT_RECORDS
          rw [size_stored (refines.active inside active)]
          exact capped.records
        · intro x
          split_ifs <;> rfl
        · intro x
          split_ifs <;> rfl
        · intro x
          split_ifs
          · simp [Issued.isActive]
          · exact id
    | revoke grantId kind =>
      rw [perform_revoke refines]
      cases found : revoked ledger grantId kind now with
      | none => exact capped
      | some g =>
        obtain ⟨inside, rfl, needed⟩ := revoked_eq_some found
        have fewer := activeOf_mono (activeOf_map_le ledger now
          (fun x => if x.grantId = g.grantId then { x with revoked := true } else x) ?_ ?_ ?_) capped
        · refine ⟨fewer.host, fewer.observer, ?_⟩
          show (s.grants.insert g.grantId _).size ≤ MAX_GRANT_RECORDS
          rw [size_stored (refines.kept g inside needed)]
          exact capped.records
        · intro x
          split_ifs <;> rfl
        · intro x
          split_ifs <;> rfl
        · intro x
          split_ifs
          · simp [Issued.isActive]
          · exact id
    | evictExpired => exact ⟨capped.host, capped.observer, Nat.le_trans (size_evicted s now) capped.records⟩
    | takeExpiredSessions => exact ⟨capped.host, capped.observer, capped.records⟩

end GrantStore

end Bitty.Daemon

namespace Bitty.Daemon

open Std

namespace GrantStore

variable {digestOf : SecretBearer → BitVec 256} {now later : MonotonicMs} {s : GrantStore} {ledger : List Issued}
variable {g : Issued} {grantId : GrantId} {sessionId : SessionId} {r : GrantRecord}
variable {call : Call} {limits : GrantLimits} {calls : List (MonotonicMs × Call)}

/-- A call drops an observer grant because its time ran out. -/
def Drops (digestOf : SecretBearer → BitVec 256) (s : GrantStore) (now : MonotonicMs) (call : Call) (grantId : GrantId)
    (sessionId : SessionId) : Prop :=
  ∃ r, s.grants[grantId]? = some r ∧ r.lapsed now = true ∧ r.sessionId = some sessionId ∧
    (perform digestOf now s call).2.grants[grantId]? = none

theorem find_evictExpired (s : GrantStore) (now : MonotonicMs) (grantId : GrantId) :
    (s.evictExpired now).2.grants[grantId]? = (s.grants[grantId]?).filter fun r => r.retained now :=
  TreeMap.find_filter _ _ _

theorem retained_of_lapsed (lapsed : r.lapsed now = true) : r.retained now = false := by
  unfold GrantRecord.lapsed at lapsed
  simp only [Bool.and_eq_true, decide_eq_true_eq] at lapsed
  unfold GrantRecord.retained
  rw [lapsed.1.1.1]
  have late : ¬ now < r.expiresAtMs := Nat.not_lt.mpr lapsed.2
  simp [GrantRecord.isActive, late]

theorem mem_evictExpired (s : GrantStore) (now : MonotonicMs) (sessionId : SessionId) :
    sessionId ∈ (s.evictExpired now).2.expiredSessions ↔
      sessionId ∈ s.expiredSessions ∨
        ∃ (grantId : GrantId) (r : GrantRecord), s.grants[grantId]? = some r ∧ r.lapsed now = true ∧
          r.sessionId = some sessionId := by
  show sessionId ∈ s.expiredSessions.insertMany _ ↔ _
  rw [ExtTreeSet.mem_insertMany_list, List.contains_iff_mem, List.mem_filterMap]
  refine or_congr_right ⟨?_, ?_⟩
  · rintro ⟨⟨grantId, r⟩, listed, chosen⟩
    split_ifs at chosen with lapsed
    exact ⟨grantId, r, ExtTreeMap.mem_toList_iff_getElem?_eq_some.mp listed, lapsed, chosen⟩
  · rintro ⟨grantId, r, found, lapsed, own⟩
    refine ⟨(grantId, r), ExtTreeMap.mem_toList_iff_getElem?_eq_some.mpr found, ?_⟩
    rw [if_pos lapsed]
    exact own

theorem perform_stored (refines : Refines digestOf now s ledger) (injective : Function.Injective digestOf)
    (here : (perform digestOf now s call).2.grants[grantId]? = some r) :
    s.grants[grantId]?.isSome ∨ ∃ draw, call.draw = some draw ∧ draw.grantId = some grantId := by
  by_cases draws : call.draw.isSome
  · rcases perform_mint digestOf now s draws with
      ⟨-, same | swept⟩ | ⟨newId, bearer, g, drawn, -, -, -, stored, -, -⟩
    · rw [same] at here
      exact .inl (by simp [here])
    · rw [swept, find_evictExpired, Option.filter_eq_some_iff] at here
      exact .inl (by simp [here.1])
    · rw [stored] at here
      change ((s.evictExpired now).2.grants.insert newId _)[grantId]? = some r at here
      rw [TreeMap.find_insert] at here
      split_ifs at here with same
      · exact .inr ⟨_, drawn, congrArg some same⟩
      · rw [find_evictExpired, Option.filter_eq_some_iff] at here
        exact .inl (by simp [here.1])
  · have known : ∀ x : GrantRecord, ∀ told : GrantId, s.grants[told]?.isSome →
        (s.grants.insert told x)[grantId]? = some r → s.grants[grantId]?.isSome := by
      intro x told stored found
      rw [TreeMap.find_insert] at found
      split_ifs at found with same
      · rw [← same]
        exact stored
      · simp [found]
    refine .inl ?_
    cases call with
    | mintHost => exact absurd rfl draws
    | mintObserver => exact absurd rfl draws
    | consume bearer kind peerUid session correlation =>
      rw [perform_consume refines injective] at here
      cases found : opened ledger bearer kind peerUid session correlation now with
      | none =>
        rw [found] at here
        simp [show s.grants[grantId]? = some r from here]
      | some g =>
        rw [found] at here
        obtain ⟨inside, -, -, active⟩ := (opened_eq_some refines).mp found
        exact known _ g.grantId (by simp [refines.active inside active]) here
    | revoke id kind =>
      rw [perform_revoke refines] at here
      cases found : revoked ledger id kind now with
      | none =>
        rw [found] at here
        simp [show s.grants[grantId]? = some r from here]
      | some g =>
        rw [found] at here
        obtain ⟨inside, -, needed⟩ := revoked_eq_some found
        exact known _ g.grantId (by simp [refines.kept g inside needed]) here
    | evictExpired =>
      change (s.evictExpired now).2.grants[grantId]? = some r at here
      rw [find_evictExpired, Option.filter_eq_some_iff] at here
      simp [here.1]
    | takeExpiredSessions => simp [show s.grants[grantId]? = some r from here]

theorem perform_expired (refines : Refines digestOf now s ledger) (injective : Function.Injective digestOf)
    (fresh : call.Fresh ledger) :
    sessionId ∈ (perform digestOf now s call).2.expiredSessions ↔
      call ≠ .takeExpiredSessions ∧
        (sessionId ∈ s.expiredSessions ∨ ∃ grantId, Drops digestOf s now call grantId sessionId) := by
  have still : (∀ (grantId : GrantId) r, s.grants[grantId]? = some r →
      (perform digestOf now s call).2.grants[grantId]?.isSome) → ¬ ∃ grantId, Drops digestOf s now call grantId sessionId := by
    rintro stays ⟨grantId, r, found, -, -, gone⟩
    have here := stays grantId r found
    rw [gone] at here
    cases here
  by_cases draws : call.draw.isSome
  · have mints : call ≠ .takeExpiredSessions := by
      rintro rfl
      cases draws
    rw [and_iff_right mints]
    rcases perform_mint digestOf now s draws with
      ⟨-, same | swept⟩ | ⟨newId, bearer, g, drawn, told, -, -, stored, -, -⟩
    · rw [same]
      refine (or_iff_left (still ?_)).symm
      intro grantId r found
      rw [same, found]
      rfl
    · rw [swept, mem_evictExpired]
      refine or_congr_right (exists_congr fun grantId => ?_)
      unfold Drops
      refine exists_congr fun r => and_congr_right fun found => and_congr_right fun lapsed => (and_iff_left ?_).symm
      rw [swept, find_evictExpired, found, Option.filter_some, retained_of_lapsed lapsed]
      rfl
    · rw [stored]
      show sessionId ∈ (s.evictExpired now).2.expiredSessions ↔ _
      rw [mem_evictExpired]
      refine or_congr_right (exists_congr fun grantId => ?_)
      unfold Drops
      refine exists_congr fun r => and_congr_right fun found => and_congr_right fun lapsed => (and_iff_left ?_).symm
      rw [stored]
      show ((s.evictExpired now).2.grants.insert newId _)[grantId]? = none
      have other : newId ≠ grantId := by
        rintro rfl
        obtain ⟨x, inside, same, -⟩ := refines.stored _ _ found
        exact (fresh _ drawn).1 _ rfl (List.mem_map.mpr ⟨x, inside, same⟩)
      rw [TreeMap.find_insert, if_neg other, find_evictExpired, found, Option.filter_some, retained_of_lapsed lapsed]
      rfl
  · have inserts : ∀ (told : GrantId) (x : GrantRecord) (grantId : GrantId) r, s.grants[grantId]? = some r →
        (s.grants.insert told x)[grantId]?.isSome := by
      intro told x grantId r found
      rw [TreeMap.find_insert]
      split_ifs
      · rfl
      · rw [found]
        rfl
    cases call with
    | mintHost => exact absurd rfl draws
    | mintObserver => exact absurd rfl draws
    | consume bearer kind peerUid session correlation =>
      rw [and_iff_right (by simp), or_iff_left]
      · rw [perform_consume refines injective]
        cases opened ledger bearer kind peerUid session correlation now <;> rfl
      · refine still fun grantId r found => ?_
        rw [perform_consume refines injective]
        cases opened ledger bearer kind peerUid session correlation now with
        | none => simp [found]
        | some g => exact inserts _ _ grantId r found
    | revoke id kind =>
      rw [and_iff_right (by simp), or_iff_left]
      · rw [perform_revoke refines]
        cases revoked ledger id kind now <;> rfl
      · refine still fun grantId r found => ?_
        rw [perform_revoke refines]
        cases revoked ledger id kind now with
        | none => simp [found]
        | some g => exact inserts _ _ grantId r found
    | evictExpired =>
      rw [and_iff_right (by simp)]
      show sessionId ∈ (s.evictExpired now).2.expiredSessions ↔ _
      rw [mem_evictExpired]
      refine or_congr_right (exists_congr fun grantId => ?_)
      unfold Drops
      refine exists_congr fun r => and_congr_right fun found => and_congr_right fun lapsed => (and_iff_left ?_).symm
      show (s.evictExpired now).2.grants[grantId]? = none
      rw [find_evictExpired, found, Option.filter_some, retained_of_lapsed lapsed]
      rfl
    | takeExpiredSessions =>
      simp only [ne_eq, not_true_eq_false, false_and, iff_false]
      exact ExtTreeSet.not_mem_empty

theorem perform_origin (refines : Refines digestOf now s ledger) (injective : Function.Injective digestOf)
    (told : g ∈ note ledger call (perform digestOf now s call).1) :
    (∃ g₀ ∈ ledger, g₀.grantId = g.grantId ∧ g₀.bearer = g.bearer ∧ (g.consumed = false → g.revoked = false → g₀ = g)) ∨
      call.draw = some ⟨some g.grantId, some g.bearer⟩ ∧
        (perform digestOf now s call).2.grants[g.grantId]? = some (g.record digestOf) := by
  have before : g ∈ ledger → ∃ g₀ ∈ ledger, g₀.grantId = g.grantId ∧ g₀.bearer = g.bearer ∧
      (g.consumed = false → g.revoked = false → g₀ = g) := fun inside => ⟨g, inside, rfl, rfl, fun _ _ => rfl⟩
  by_cases draws : call.draw.isSome
  · rcases perform_mint digestOf now s draws with
      ⟨⟨e, failed⟩, -⟩ | ⟨newId, bearer, x, drawn, tells, -, answered, stored, -, -⟩
    · rw [failed, note_error] at told
      exact .inl (before told)
    · obtain ⟨noted, rfl, rfl⟩ := note_told ledger tells
      rw [answered, noted, List.mem_append, List.mem_singleton] at told
      rcases told with inside | rfl
      · exact .inl (before inside)
      · refine .inr ⟨drawn, ?_⟩
        rw [stored]
        exact ExtTreeMap.getElem?_insert_self
  · refine .inl ?_
    cases call with
    | mintHost => exact absurd rfl draws
    | mintObserver => exact absurd rfl draws
    | consume bearer kind peerUid session correlation =>
      rw [perform_consume refines injective] at told
      cases found : opened ledger bearer kind peerUid session correlation now with
      | none =>
        rw [found] at told
        exact before told
      | some x =>
        rw [found] at told
        obtain ⟨g₀, inside, rfl⟩ := List.mem_map.mp told
        refine ⟨g₀, inside, ?_⟩
        split_ifs
        · exact ⟨rfl, rfl, nofun⟩
        · exact ⟨rfl, rfl, fun _ _ => rfl⟩
    | revoke id kind =>
      rw [perform_revoke refines] at told
      cases found : revoked ledger id kind now with
      | none =>
        rw [found] at told
        exact before told
      | some x =>
        rw [found] at told
        obtain ⟨g₀, inside, rfl⟩ := List.mem_map.mp told
        refine ⟨g₀, inside, ?_⟩
        split_ifs
        · exact ⟨rfl, rfl, fun _ impossible => by cases impossible⟩
        · exact ⟨rfl, rfl, fun _ _ => rfl⟩
    | evictExpired => exact before told
    | takeExpiredSessions => exact before told

end GrantStore

end Bitty.Daemon
