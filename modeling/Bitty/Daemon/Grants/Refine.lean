import Bitty.Daemon.Grants.Ledger

namespace Bitty.Daemon

open Std

namespace GrantStore

variable {digestOf : SecretBearer → BitVec 256} {now later : MonotonicMs} {s s' : GrantStore} {ledger : List Issued}
variable {g g' : Issued} {grantId : GrantId} {bearer : SecretBearer} {kind : GrantKind} {peerUid : UInt32}
variable {sessionId : Option SessionId} {correlation : Option GrantCorrelation} {r : GrantRecord}

theorem usable_record (digestOf : SecretBearer → BitVec 256) (g : Issued) :
    (g.record digestOf).usable kind peerUid sessionId correlation now =
      (g.boundTo kind peerUid sessionId correlation && g.isActive now) := rfl

theorem opened_eq (refines : Refines digestOf now s ledger) :
    opened ledger bearer kind peerUid sessionId correlation now =
      (ledger.find? fun g => g.bearer = bearer).filter fun g =>
        g.boundTo kind peerUid sessionId correlation && g.isActive now := by
  unfold opened
  cases first : ledger.find? fun g => g.bearer = bearer with
  | none =>
    refine List.find?_eq_none.mpr fun g inside => ?_
    have other := List.find?_eq_none.mp first g inside
    simp only [decide_eq_true_eq] at other
    simp [other]
  | some g =>
    obtain ⟨inside, mine⟩ := told_of_find first
    rw [Option.filter_some]
    split_ifs with fits
    · cases found : ledger.find? fun g => g.bearer = bearer && g.boundTo kind peerUid sessionId correlation &&
          g.isActive now with
      | none =>
        have other := List.find?_eq_none.mp found g inside
        simp only [Bool.and_eq_true] at fits
        simp [mine, fits.1, fits.2] at other
      | some g' =>
        have same := List.find?_some found
        simp only [Bool.and_eq_true, decide_eq_true_eq] at same
        rw [refines.same_bearer (List.mem_of_find?_eq_some found) inside (same.1.1.trans mine.symm)]
    · refine List.find?_eq_none.mpr fun g' told => ?_
      intro chosen
      simp only [Bool.and_eq_true, decide_eq_true_eq] at chosen
      obtain rfl := refines.same_bearer told inside (chosen.1.1.trans mine.symm)
      exact fits (by simp [chosen.1.2, chosen.2])

theorem opened_eq_some (refines : Refines digestOf now s ledger) :
    opened ledger bearer kind peerUid sessionId correlation now = some g ↔
      g ∈ ledger ∧ g.bearer = bearer ∧ g.boundTo kind peerUid sessionId correlation = true ∧ g.isActive now = true := by
  constructor
  · intro found
    have same := List.find?_some found
    simp only [Bool.and_eq_true, decide_eq_true_eq] at same
    exact ⟨List.mem_of_find?_eq_some found, same.1.1, same.1.2, same.2⟩
  · rintro ⟨inside, rfl, bound, active⟩
    rw [opened_eq refines, refines.find_told inside]
    simp [bound, active]

theorem Refines.active (refines : Refines digestOf now s ledger) (inside : g ∈ ledger) (active : g.isActive now = true) :
    s.grants[g.grantId]? = some (g.record digestOf) := refines.kept g inside (Issued.not_isSpent_of_isActive active)

theorem validateTo_eq (refines : Refines digestOf now s ledger) (injective : Function.Injective digestOf) :
    s.validateTo digestOf bearer kind peerUid sessionId correlation now =
      match opened ledger bearer kind peerUid sessionId correlation now with
      | none => .error .unusable
      | some g => .ok g.grantId := by
  unfold validateTo
  rw [lastMatch_eq refines injective, opened_eq refines]
  cases first : ledger.find? fun g => g.bearer = bearer with
  | none => rfl
  | some g =>
    have inside := List.mem_of_find?_eq_some first
    simp only [Option.bind_some, Option.filter_some]
    cases found : s.grants[g.grantId]? with
    | none =>
      have idle : g.isActive now = false := by
        by_contra active
        rw [refines.active inside (by simpa using active)] at found
        cases found
      simp [idle]
    | some r =>
      obtain rfl := refines.stored_of_id inside found
      simp only [usable_record]
      split_ifs with fits
      · simp [fits, Issued.record]
      · simp [fits]

theorem consumeTo_eq (refines : Refines digestOf now s ledger) (injective : Function.Injective digestOf) :
    s.consumeTo digestOf bearer kind peerUid sessionId correlation now =
      match opened ledger bearer kind peerUid sessionId correlation now with
      | none => (.error .unusable, s)
      | some g => (.ok ⟨g.grantId, kind, sessionId⟩,
          { s with grants := s.grants.insert g.grantId (({ g with consumed := true } : Issued).record digestOf) }) := by
  unfold consumeTo
  rw [lastMatch_eq refines injective, opened_eq refines]
  cases first : ledger.find? fun g => g.bearer = bearer with
  | none => rfl
  | some g =>
    have inside := List.mem_of_find?_eq_some first
    simp only [Option.bind_some, Option.filter_some]
    cases found : s.grants[g.grantId]? with
    | none =>
      have idle : g.isActive now = false := by
        by_contra active
        rw [refines.active inside (by simpa using active)] at found
        cases found
      simp [idle]
    | some r =>
      obtain rfl := refines.stored_of_id inside found
      have own : (g.record digestOf).grantId = g.grantId := rfl
      simp only [Option.map_some, own, found, usable_record]
      split_ifs <;> simp [Issued.record]

theorem revokeKind_eq (refines : Refines digestOf now s ledger) (kind : GrantKind) (grantId : GrantId) :
    s.revokeKind grantId kind now =
      match ledger.find? fun g => g.grantId = grantId && g.kind = kind && (g.record digestOf).revocable kind now with
      | none => (.notActive, s)
      | some g => (.revoked,
          { s with grants := s.grants.insert g.grantId (({ g with revoked := true } : Issued).record digestOf) }) := by
  unfold revokeKind
  cases first : ledger.find? fun g => g.grantId = grantId && g.kind = kind && (g.record digestOf).revocable kind now with
  | none =>
    have nobody := List.find?_eq_none.mp first
    cases found : s.grants[grantId]? with
    | none => rfl
    | some r =>
      obtain ⟨g, inside, rfl, rfl⟩ := refines.stored _ _ found
      have other := nobody g inside
      have same : (g.record digestOf).kind = g.kind := rfl
      show (if (g.record digestOf).kind ≠ kind ∨ ¬ (g.record digestOf).revocable kind now = true then _ else _) = _
      rw [if_pos]
      rw [same]
      by_contra fits
      simp only [ne_eq, not_or, not_not] at fits
      exact other (by simp [fits.1, fits.2])
  | some g =>
    have inside := List.mem_of_find?_eq_some first
    have chosen := List.find?_some first
    simp only [Bool.and_eq_true, decide_eq_true_eq] at chosen
    obtain ⟨⟨rfl, rfl⟩, revocable⟩ := chosen
    have needed : g.isSpent now = false := by
      unfold GrantRecord.revocable at revocable
      rcases Bool.or_eq_true_iff.mp revocable with active | host
      · exact Issued.not_isSpent_of_isActive active
      · simp only [Bool.and_eq_true, decide_eq_true_eq] at host
        simp only [Issued.isSpent, host.1.1.1]
        simpa [Issued.record] using host.2
    rw [refines.kept g inside needed]
    have same : (g.record digestOf).kind = g.kind := rfl
    show (if (g.record digestOf).kind ≠ g.kind ∨ ¬ (g.record digestOf).revocable g.kind now = true then _ else _) = _
    rw [if_neg (by simp [same, revocable])]
    simp [Issued.record]

theorem hostGrantBoundTo_iff (refines : Refines digestOf now s ledger) :
    s.hostGrantBoundTo grantId peerUid correlation now = true ↔
      ∃ g ∈ ledger, g.grantId = grantId ∧ g.kind = .host ∧ g.peerUid = peerUid ∧
        correlationMatches g.correlation correlation = true ∧ g.revoked = false ∧ now < g.expiresAtMs := by
  unfold hostGrantBoundTo
  rw [Option.any_eq_true]
  constructor
  · rintro ⟨r, found, fits⟩
    obtain ⟨g, inside, rfl, rfl⟩ := refines.stored _ _ found
    simp only [Bool.and_eq_true, decide_eq_true_eq, Bool.not_eq_true'] at fits
    exact ⟨g, inside, rfl, fits.1.1.1.1, fits.1.1.1.2, fits.1.1.2, fits.1.2, fits.2⟩
  · rintro ⟨g, inside, rfl, host, peer, bound, unrevoked, before⟩
    have needed : g.isSpent now = false := by
      unfold Issued.isSpent
      rw [host]
      simpa using before
    refine ⟨g.record digestOf, refines.kept g inside needed, ?_⟩
    simp [Issued.record, host, peer, bound, unrevoked, before]

theorem Refines.evicted (refines : Refines digestOf now s ledger) : Refines digestOf now (s.evictExpired now).2 ledger where
  ids := refines.ids
  bearers := refines.bearers
  stored grantId r here := by
    change (s.grants.filter _)[grantId]? = some r at here
    rw [TreeMap.find_filter, Option.filter_eq_some_iff] at here
    exact refines.stored grantId r here.1
  kept g inside needed := by
    show (s.grants.filter _)[g.grantId]? = _
    rw [TreeMap.find_filter, refines.kept g inside needed, Option.filter_some, Issued.retained_record, needed]
    rfl

theorem size_evictExpired (refines : Refines digestOf now s ledger) :
    (s.evictExpired now).2.grants.size = (ledger.filter fun g => (g.record digestOf).retained now).length := by
  refine refines.size_filter (fun r => r.retained now) ?_
  intro g inside retained
  rw [Issued.retained_record] at retained
  simpa using retained

theorem mint_cases (digestOf : SecretBearer → BitVec 256) (s : GrantStore) (kind : GrantKind)
    (sessionId : Option SessionId) (peerUid : UInt32) (correlation : Option GrantCorrelation) (now : MonotonicMs)
    (ttlMs : Nat) (draw : Draw) :
    ((∃ e, (s.mint digestOf kind sessionId peerUid correlation now ttlMs draw).1 = .error e) ∧
        (s.mint digestOf kind sessionId peerUid correlation now ttlMs draw).2 = (s.evictExpired now).2) ∨
      ∃ grantId bearer, draw = ⟨some grantId, some bearer⟩ ∧ (s.evictExpired now).2.grants.size < MAX_GRANT_RECORDS ∧
        s.mint digestOf kind sessionId peerUid correlation now ttlMs draw =
          (.ok ⟨grantId, bearer, now.saturatingAdd ttlMs⟩,
            { (s.evictExpired now).2 with
              grants := (s.evictExpired now).2.grants.insert grantId
                (Issued.record digestOf ⟨grantId, bearer, kind, sessionId, peerUid, correlation,
                  now.saturatingAdd ttlMs, false, false⟩) }) := by
  unfold mint
  by_cases full : MAX_GRANT_RECORDS ≤ (s.evictExpired now).2.grants.size
  · simp [full]
  rcases draw with ⟨_ | grantId, _ | bearer⟩
  · simp [full]
  · simp [full]
  · simp [full]
  · simp only [full, if_false]
    split_ifs with large
    · exact .inl ⟨⟨_, rfl⟩, rfl⟩
    · exact .inr ⟨grantId, bearer, rfl, Nat.lt_of_not_le full, rfl⟩

theorem Refines.grown (refines : Refines digestOf now s ledger) (newId : g.grantId ∉ ledger.map Issued.grantId)
    (newBearer : g.bearer ∉ ledger.map Issued.bearer) :
    Refines digestOf now { s with grants := s.grants.insert g.grantId (g.record digestOf) } (ledger ++ [g]) where
  ids := by
    rw [List.map_append, List.nodup_append]
    refine ⟨refines.ids, by simp, ?_⟩
    rintro a inside b single rfl
    rw [List.map_singleton, List.mem_singleton] at single
    exact newId (single ▸ inside)
  bearers := by
    rw [List.map_append, List.nodup_append]
    refine ⟨refines.bearers, by simp, ?_⟩
    rintro a inside b single rfl
    rw [List.map_singleton, List.mem_singleton] at single
    exact newBearer (single ▸ inside)
  stored grantId r here := by
    change (s.grants.insert g.grantId _)[grantId]? = some r at here
    rw [TreeMap.find_insert] at here
    split_ifs at here with same
    · exact ⟨g, by simp, same, (Option.some.inj here).symm⟩
    · obtain ⟨g', inside, own, equal⟩ := refines.stored grantId r here
      exact ⟨g', List.mem_append_left _ inside, own, equal⟩
  kept g' inside needed := by
    show (s.grants.insert g.grantId _)[g'.grantId]? = _
    rw [TreeMap.find_insert]
    rcases List.mem_append.mp inside with told | single
    · have other : g.grantId ≠ g'.grantId := by
        intro same
        exact newId (same ▸ List.mem_map_of_mem told)
      rw [if_neg other]
      exact refines.kept g' told needed
    · rw [List.mem_singleton] at single
      rw [single, if_pos rfl]

theorem Refines.updated (refines : Refines digestOf now s ledger) (inside : g ∈ ledger) (sameId : g'.grantId = g.grantId)
    (sameBearer : g'.bearer = g.bearer) :
    Refines digestOf now { s with grants := s.grants.insert g.grantId (g'.record digestOf) }
      (ledger.map fun x => if x = g then g' else x) where
  ids := by
    rw [List.map_map]
    convert refines.ids using 1
    refine List.map_congr_left fun x _ => ?_
    show (if x = g then g' else x).grantId = x.grantId
    split_ifs with same
    · rw [same, sameId]
    · rfl
  bearers := by
    rw [List.map_map]
    convert refines.bearers using 1
    refine List.map_congr_left fun x _ => ?_
    show (if x = g then g' else x).bearer = x.bearer
    split_ifs with same
    · rw [same, sameBearer]
    · rfl
  stored grantId r here := by
    change (s.grants.insert g.grantId _)[grantId]? = some r at here
    rw [TreeMap.find_insert] at here
    split_ifs at here with same
    · refine ⟨g', List.mem_map.mpr ⟨g, inside, if_pos rfl⟩, sameId.trans same, (Option.some.inj here).symm⟩
    · obtain ⟨x, told, own, equal⟩ := refines.stored grantId r here
      refine ⟨x, List.mem_map.mpr ⟨x, told, if_neg ?_⟩, own, equal⟩
      rintro rfl
      exact same own
  kept y changed needed := by
    show (s.grants.insert g.grantId _)[y.grantId]? = _
    obtain ⟨x, told, rfl⟩ := List.mem_map.mp changed
    rw [TreeMap.find_insert]
    by_cases same : x = g
    · simp only [same, if_true, sameId]
    · have other : g.grantId ≠ x.grantId := fun equal => same (refines.same_id told inside equal.symm)
      simp only [same, if_false] at needed ⊢
      rw [if_neg other]
      exact refines.kept x told needed

end GrantStore

end Bitty.Daemon
