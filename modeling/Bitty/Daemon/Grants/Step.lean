import Bitty.Daemon.Grants.Refine

namespace Bitty.Daemon

open Std

namespace GrantStore

variable {digestOf : SecretBearer → BitVec 256} {now later : MonotonicMs} {s s' : GrantStore} {ledger : List Issued}
variable {g g' : Issued} {grantId : GrantId} {bearer : SecretBearer} {kind : GrantKind} {peerUid : UInt32}
variable {sessionId : Option SessionId} {correlation : Option GrantCorrelation} {r : GrantRecord} {call : Call}

def Call.Fresh (call : Call) (ledger : List Issued) : Prop :=
  ∀ draw, call.draw = some draw →
    (∀ grantId, draw.grantId = some grantId → grantId ∉ ledger.map Issued.grantId) ∧
      ∀ bearer, draw.bearer = some bearer → bearer ∉ ledger.map Issued.bearer

theorem note_error (call : Call) (e : MintError) : note ledger call (.minted (.error e)) = ledger := by
  cases call <;> rfl

def Call.told (now : MonotonicMs) (limits : GrantLimits) : Call → GrantId → SecretBearer → Option Issued
  | .mintHost peerUid correlation ttlMs _, grantId, bearer =>
    some ⟨grantId, bearer, .host, none, peerUid, correlation, now.saturatingAdd (ttlMs.getD limits.hostTtlMs), false, false⟩
  | .mintObserver sessionId peerUid correlation ttlMs _, grantId, bearer =>
    some ⟨grantId, bearer, .observer, some sessionId, peerUid, correlation,
      now.saturatingAdd (ttlMs.getD limits.observerTtlMs), false, false⟩
  | _, _, _ => none

theorem perform_mint (digestOf : SecretBearer → BitVec 256) (now : MonotonicMs) (s : GrantStore) (draws : call.draw.isSome) :
    ((∃ e, (perform digestOf now s call).1 = .minted (.error e)) ∧
        ((perform digestOf now s call).2 = s ∨ (perform digestOf now s call).2 = (s.evictExpired now).2)) ∨
      ∃ grantId bearer g, call.draw = some ⟨some grantId, some bearer⟩ ∧
        call.told now s.limits grantId bearer = some g ∧
        (s.evictExpired now).2.grants.size < MAX_GRANT_RECORDS ∧
        (perform digestOf now s call).1 = .minted (.ok ⟨grantId, bearer, g.expiresAtMs⟩) ∧
        (perform digestOf now s call).2 =
          { (s.evictExpired now).2 with
            grants := (s.evictExpired now).2.grants.insert grantId (g.record digestOf) } ∧
        (g.kind = .host → s.pending .host none now < s.limits.maxHost) ∧
        (g.kind = .observer → s.pending .observer g.sessionId now < s.limits.maxObserverPerSession) := by
  cases call with
  | mintHost peerUid correlation ttlMs draw =>
    simp only [perform, mintHostWith]
    by_cases full : s.limits.maxHost ≤ s.pending .host none now
    · rw [if_pos full]
      exact .inl ⟨⟨_, rfl⟩, .inl rfl⟩
    · rw [if_neg full]
      rcases mint_cases digestOf s .host none peerUid correlation now (ttlMs.getD s.limits.hostTtlMs) draw with
        ⟨⟨e, failed⟩, swept⟩ | ⟨grantId, bearer, rfl, room, minted⟩
      · exact .inl ⟨⟨e, by simp [failed]⟩, .inr (by simp [swept])⟩
      · refine .inr ⟨grantId, bearer, _, rfl, rfl, room, ?_⟩
        rw [minted]
        exact ⟨rfl, rfl, fun _ => Nat.lt_of_not_le full, nofun⟩
  | mintObserver sessionId peerUid correlation ttlMs draw =>
    simp only [perform, mintObserverWith]
    by_cases full : s.limits.maxObserverPerSession ≤ s.pending .observer (some sessionId) now
    · rw [if_pos full]
      exact .inl ⟨⟨_, rfl⟩, .inl rfl⟩
    · rw [if_neg full]
      rcases mint_cases digestOf s .observer (some sessionId) peerUid correlation now
        (ttlMs.getD s.limits.observerTtlMs) draw with
        ⟨⟨e, failed⟩, swept⟩ | ⟨grantId, bearer, rfl, room, minted⟩
      · exact .inl ⟨⟨e, by simp [failed]⟩, .inr (by simp [swept])⟩
      · refine .inr ⟨grantId, bearer, _, rfl, rfl, room, ?_⟩
        rw [minted]
        exact ⟨rfl, rfl, nofun, fun _ => Nat.lt_of_not_le full⟩
  | consume => cases draws
  | revoke => cases draws
  | evictExpired => cases draws
  | takeExpiredSessions => cases draws

theorem note_told (ledger : List Issued) {limits : GrantLimits} (told : call.told now limits grantId bearer = some g) :
    note ledger call (.minted (.ok ⟨grantId, bearer, g.expiresAtMs⟩)) = ledger ++ [g] ∧ g.grantId = grantId ∧
      g.bearer = bearer := by
  cases call <;> cases told <;> exact ⟨rfl, rfl, rfl⟩

theorem perform_consume (refines : Refines digestOf now s ledger) (injective : Function.Injective digestOf) :
    (perform digestOf now s (.consume bearer kind peerUid sessionId correlation)) =
      match opened ledger bearer kind peerUid sessionId correlation now with
      | none => (.consumed (.error .unusable), s)
      | some g => (.consumed (.ok ⟨g.grantId, kind, sessionId⟩),
          { s with grants := s.grants.insert g.grantId (({ g with consumed := true } : Issued).record digestOf) }) := by
  show Prod.map _ _ (s.consumeTo digestOf bearer kind peerUid sessionId correlation now) = _
  rw [consumeTo_eq refines injective]
  cases opened ledger bearer kind peerUid sessionId correlation now <;> rfl

def revoked (ledger : List Issued) (grantId : GrantId) (kind : GrantKind) (now : MonotonicMs) : Option Issued :=
  ledger.find? fun g => g.grantId = grantId && g.kind = kind &&
    (g.isActive now || (kind = .host && g.consumed && !g.revoked && now < g.expiresAtMs))

theorem perform_revoke (refines : Refines digestOf now s ledger) :
    (perform digestOf now s (.revoke grantId kind)) =
      match revoked ledger grantId kind now with
      | none => (.revocation .notActive, s)
      | some g => (.revocation .revoked,
          { s with grants := s.grants.insert g.grantId (({ g with revoked := true } : Issued).record digestOf) }) := by
  have same := revokeKind_eq refines kind grantId
  change s.revokeKind grantId kind now = match revoked ledger grantId kind now with | none => _ | some g => _ at same
  show Prod.map _ _ (s.revokeKind grantId kind now) = _
  rw [same]
  cases revoked ledger grantId kind now <;> rfl

theorem revoked_eq_some (found : revoked ledger grantId kind now = some g) :
    g ∈ ledger ∧ g.grantId = grantId ∧ g.isSpent now = false := by
  have inside := List.mem_of_find?_eq_some found
  have chosen := List.find?_some found
  simp only [Bool.and_eq_true, Bool.or_eq_true, decide_eq_true_eq] at chosen
  obtain ⟨⟨own, rfl⟩, revocable⟩ := chosen
  refine ⟨inside, own, ?_⟩
  rcases revocable with active | host
  · exact Issued.not_isSpent_of_isActive active
  · unfold Issued.isSpent
    rw [host.1.1.1]
    simpa using host.2

theorem map_bearer (refines : Refines digestOf now s ledger) (inside : g ∈ ledger) (f : Issued → Issued) :
    (ledger.map fun x => if x.bearer = g.bearer then f x else x) = ledger.map fun x => if x = g then f g else x := by
  refine List.map_congr_left fun x told => ?_
  by_cases same : x = g
  · simp [same]
  · have other : x.bearer ≠ g.bearer := fun equal => same (refines.same_bearer told inside equal)
    rw [if_neg same, if_neg other]

theorem map_id (refines : Refines digestOf now s ledger) (inside : g ∈ ledger) (f : Issued → Issued) :
    (ledger.map fun x => if x.grantId = g.grantId then f x else x) = ledger.map fun x => if x = g then f g else x := by
  refine List.map_congr_left fun x told => ?_
  by_cases same : x = g
  · simp [same]
  · have other : x.grantId ≠ g.grantId := fun equal => same (refines.same_id told inside equal)
    rw [if_neg same, if_neg other]

theorem perform_refines (refines : Refines digestOf now s ledger) (injective : Function.Injective digestOf)
    (fresh : call.Fresh ledger) :
    Refines digestOf now (perform digestOf now s call).2 (note ledger call (perform digestOf now s call).1) := by
  by_cases draws : call.draw.isSome
  · rcases perform_mint digestOf now s draws with
      ⟨⟨e, failed⟩, same | swept⟩ | ⟨grantId, bearer, g, drawn, told, -, answered, stored, -, -⟩
    · rw [failed, same, note_error]
      exact refines
    · rw [failed, swept, note_error]
      exact refines.evicted
    · obtain ⟨noted, rfl, rfl⟩ := note_told ledger told
      obtain ⟨newId, newBearer⟩ := fresh _ drawn
      rw [answered, stored, noted]
      exact refines.evicted.grown (newId _ rfl) (newBearer _ rfl)
  · cases call with
    | mintHost => exact absurd rfl draws
    | mintObserver => exact absurd rfl draws
    | consume bearer kind peerUid sessionId correlation =>
      rw [perform_consume refines injective]
      cases found : opened ledger bearer kind peerUid sessionId correlation now with
      | none => exact refines
      | some g =>
        obtain ⟨inside, rfl, -, -⟩ := (opened_eq_some refines).mp found
        show Refines digestOf now _ (ledger.map _)
        rw [map_bearer refines inside fun x => { x with consumed := true }]
        exact refines.updated inside rfl rfl
    | revoke grantId kind =>
      rw [perform_revoke refines]
      cases found : revoked ledger grantId kind now with
      | none => exact refines
      | some g =>
        obtain ⟨inside, rfl, -⟩ := revoked_eq_some found
        show Refines digestOf now _ (ledger.map _)
        rw [map_id refines inside fun x => { x with revoked := true }]
        exact refines.updated inside rfl rfl
    | evictExpired => exact refines.evicted
    | takeExpiredSessions => exact ⟨refines.ids, refines.bearers, refines.stored, refines.kept⟩

theorem perform_limits (refines : Refines digestOf now s ledger) (injective : Function.Injective digestOf) (call : Call) :
    (perform digestOf now s call).2.limits = s.limits := by
  by_cases draws : call.draw.isSome
  · rcases perform_mint digestOf now s draws with
      ⟨-, same | swept⟩ | ⟨grantId, bearer, g, -, -, -, -, stored, -, -⟩
    · rw [same]
    · rw [swept]
      rfl
    · rw [stored]
      rfl
  · cases call with
    | mintHost => exact absurd rfl draws
    | mintObserver => exact absurd rfl draws
    | consume =>
      rw [perform_consume refines injective]
      split <;> rfl
    | revoke =>
      rw [perform_revoke refines]
      split <;> rfl
    | evictExpired => rfl
    | takeExpiredSessions => rfl

def Call.tells : Call → Bool
  | .evictExpired | .takeExpiredSessions => false
  | _ => true

theorem mint_congr (sizes : (s.evictExpired now).2.grants.size = (s'.evictExpired now).2.grants.size)
    (limits : s.limits = s'.limits) (ttlMs : Nat) (draw : Draw) :
    (s.mint digestOf kind sessionId peerUid correlation now ttlMs draw).1 =
      (s'.mint digestOf kind sessionId peerUid correlation now ttlMs draw).1 := by
  have kept : (s.evictExpired now).2.limits = (s'.evictExpired now).2.limits := limits
  unfold mint
  simp only [sizes, kept]
  split_ifs
  · rfl
  · rcases draw with ⟨_ | grantId, _ | bearer⟩
    · rfl
    · rfl
    · rfl
    · simp only
      split_ifs <;> rfl

theorem perform_answer (refines : Refines digestOf now s ledger) (refines' : Refines digestOf now s' ledger)
    (injective : Function.Injective digestOf) (limits : s.limits = s'.limits) (tells : call.tells) :
    (perform digestOf now s call).1 = (perform digestOf now s' call).1 := by
  have sizes : (s.evictExpired now).2.grants.size = (s'.evictExpired now).2.grants.size := by
    rw [size_evictExpired refines, size_evictExpired refines']
  have pendings : ∀ kind sessionId, s.pending kind sessionId now = s'.pending kind sessionId now := by
    intro kind sessionId
    rw [refines.pending, refines'.pending]
  cases call with
  | mintHost peerUid correlation ttlMs draw =>
    simp only [perform, mintHostWith, limits, pendings]
    split_ifs
    · rfl
    · exact congrArg Answer.minted (mint_congr sizes limits _ draw)
  | mintObserver sessionId peerUid correlation ttlMs draw =>
    simp only [perform, mintObserverWith, limits, pendings]
    split_ifs
    · rfl
    · exact congrArg Answer.minted (mint_congr sizes limits _ draw)
  | consume bearer kind peerUid sessionId correlation =>
    rw [perform_consume refines injective, perform_consume refines' injective]
    cases opened ledger bearer kind peerUid sessionId correlation now <;> rfl
  | revoke grantId kind =>
    rw [perform_revoke refines, perform_revoke refines']
    cases revoked ledger grantId kind now <;> rfl
  | evictExpired => cases tells
  | takeExpiredSessions => cases tells

theorem note_refused {answer : Answer} (refused : answer.isRefusal = true) : note ledger call answer = ledger := by
  cases answer with
  | minted result =>
    cases result with
    | error e => exact note_error call e
    | ok m => cases refused
  | consumed result =>
    cases result with
    | error e => cases call <;> rfl
    | ok m => cases refused
  | revocation outcome =>
    cases outcome with
    | revoked => cases refused
    | notActive => cases call <;> rfl
  | evicted count => cases refused
  | sessions ids => cases refused

theorem note_silent {answer : Answer} (silent : call.tells = false) : note ledger call answer = ledger := by
  cases call <;> first | rfl | cases silent

theorem note_keeps (call : Call) (answer : Answer) (inside : g ∈ ledger) :
    ∃ g' ∈ note ledger call answer, g'.grantId = g.grantId ∧ g'.bearer = g.bearer ∧
      (g.consumed = true → g'.consumed = true) := by
  unfold note
  split
  · exact ⟨g, List.mem_append_left _ inside, rfl, rfl, id⟩
  · exact ⟨g, List.mem_append_left _ inside, rfl, rfl, id⟩
  · refine ⟨_, List.mem_map_of_mem inside, ?_⟩
    split_ifs
    · exact ⟨rfl, rfl, fun _ => rfl⟩
    · exact ⟨rfl, rfl, id⟩
  · refine ⟨_, List.mem_map_of_mem inside, ?_⟩
    split_ifs
    · exact ⟨rfl, rfl, id⟩
    · exact ⟨rfl, rfl, id⟩
  · exact ⟨g, inside, rfl, rfl, id⟩

end GrantStore

end Bitty.Daemon
