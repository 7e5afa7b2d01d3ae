import Bitty.Daemon.Grants.Run

namespace Bitty.Daemon

open Std

namespace GrantStore

variable {digestOf : SecretBearer → BitVec 256} {limits : GrantLimits} {now : MonotonicMs}
variable {calls : List (MonotonicMs × Call)} {g : Issued} {grantId : GrantId} {sessionId : SessionId}

theorem lapsed_of_spent (observer : g.kind = .observer) (unconsumed : g.consumed = false) (unrevoked : g.revoked = false)
    (spent : g.isSpent now = true) : (g.record digestOf).lapsed now = true := by
  have idle : g.isActive now = false := by simpa [Issued.isSpent, observer] using spent
  have late : g.expiresAtMs ≤ now := by
    by_contra early
    simp [Issued.isActive, unconsumed, unrevoked, Nat.lt_of_not_le early] at idle
  simp [GrantRecord.lapsed, Issued.record, observer, unconsumed, unrevoked, late]

theorem dropped_of_absent (injective : Function.Injective digestOf) (orderly : Orderly calls)
    (told : g ∈ (after digestOf limits calls).2) (observer : g.kind = .observer) (session : g.sessionId = some sessionId)
    (unconsumed : g.consumed = false) (unrevoked : g.revoked = false)
    (gone : (after digestOf limits calls).1.grants[g.grantId]? = none) :
    ∃ before t call between, calls = before ++ (t, call) :: between ∧
      Drops digestOf (after digestOf limits before).1 t call g.grantId sessionId := by
  induction calls using List.reverseRecOn with
  | nil => cases told
  | append_singleton calls last ih =>
    obtain ⟨t, call⟩ := last
    obtain ⟨sound, fresh⟩ := sound_before limits injective orderly
    have next := (sound.step injective fresh).refines
    rw [after_concat] at told gone
    rcases perform_origin sound.refines injective told with ⟨g₀, inside, -, -, same⟩ | ⟨-, stored⟩
    · obtain rfl := same unconsumed unrevoked
      cases found : (after digestOf limits calls).1.grants[g₀.grantId]? with
      | none =>
        obtain ⟨before, t', call', between, rfl, drops⟩ :=
          ih (orderly.sublist (List.sublist_append_left _ _)) inside found
        exact ⟨before, t', call', between ++ [(t, call)], by simp, drops⟩
      | some r =>
        obtain rfl := sound.refines.stored_of_id inside found
        refine ⟨calls, t, call, [], rfl, g₀.record digestOf, found, ?_, session, gone⟩
        refine lapsed_of_spent observer unconsumed unrevoked ?_
        by_contra needed
        rw [next.kept g₀ told (by simpa using needed)] at gone
        cases gone
    · rw [stored] at gone
      cases gone

theorem not_drops_again (injective : Function.Injective digestOf) {before middle rest : List (MonotonicMs × Call)}
    {t t' : MonotonicMs} {call call' : Call} {sessionId' : SessionId}
    (orderly : Orderly (before ++ (t, call) :: (middle ++ (t', call') :: rest)))
    (drops : Drops digestOf (after digestOf limits before).1 t call grantId sessionId) :
    ¬ Drops digestOf (after digestOf limits (before ++ (t, call) :: middle)).1 t' call' grantId sessionId' := by
  rintro ⟨r', found, -, -, -⟩
  obtain ⟨r, stored, -, -, gone⟩ := drops
  obtain ⟨sound, fresh⟩ := sound_before limits injective orderly
  obtain ⟨g, inside, same, -⟩ := sound.refines.stored _ _ stored
  obtain ⟨g', told, same', -, -⟩ :=
    note_keeps call (perform digestOf t (after digestOf limits before).1 call).1 inside
  have part : ((before ++ [(t, call)]) ++ middle).Sublist (before ++ (t, call) :: (middle ++ (t', call') :: rest)) := by
    rw [List.append_assoc]
    exact (List.Sublist.cons_cons _ (List.sublist_append_left _ _)).append_left before
  rw [← same] at gone found
  have known : ∃ x ∈ (after digestOf limits (before ++ [(t, call)])).2, x.grantId = g.grantId := by
    rw [after_concat]
    exact ⟨g', told, same'⟩
  have dropped : (after digestOf limits (before ++ [(t, call)])).1.grants[g.grantId]? = none := by
    rw [after_concat]
    exact gone
  have absent := (absent_after injective (orderly.sublist part) known dropped).1
  rw [List.append_assoc, List.singleton_append, found] at absent
  cases absent

theorem drop_unique (injective : Function.Injective digestOf) (orderly : Orderly calls)
    {before₁ before₂ between₁ between₂ : List (MonotonicMs × Call)} {t₁ t₂ : MonotonicMs} {call₁ call₂ : Call}
    (split₁ : calls = before₁ ++ (t₁, call₁) :: between₁) (split₂ : calls = before₂ ++ (t₂, call₂) :: between₂)
    (drops₁ : Drops digestOf (after digestOf limits before₁).1 t₁ call₁ grantId sessionId)
    (drops₂ : Drops digestOf (after digestOf limits before₂).1 t₂ call₂ grantId sessionId) :
    before₁ = before₂ ∧ (t₁, call₁) :: between₁ = (t₂, call₂) :: between₂ := by
  rcases List.append_eq_append_iff.mp (split₁.symm.trans split₂) with ⟨more, longer, rest⟩ | ⟨more, longer, rest⟩
  · cases more with
    | nil => exact ⟨by simpa using longer.symm, by simpa using rest⟩
    | cons first more =>
      obtain ⟨rfl, rfl⟩ := List.cons.inj rest
      rw [longer] at drops₂
      rw [split₁] at orderly
      exact absurd drops₂ (not_drops_again injective orderly drops₁)
  · cases more with
    | nil => exact ⟨by simpa using longer, by simpa using rest.symm⟩
    | cons first more =>
      obtain ⟨rfl, rfl⟩ := List.cons.inj rest
      rw [longer] at drops₁
      rw [split₂] at orderly
      exact absurd drops₁ (not_drops_again injective orderly drops₂)

theorem first_take_unique {m₁ m₂ more₁ more₂ : List (MonotonicMs × Call)} {t₁ t₂ : MonotonicMs}
    (same : m₁ ++ (t₁, .takeExpiredSessions) :: more₁ = m₂ ++ (t₂, .takeExpiredSessions) :: more₂)
    (silent₁ : ∀ c ∈ m₁, c.2 ≠ .takeExpiredSessions) (silent₂ : ∀ c ∈ m₂, c.2 ≠ .takeExpiredSessions) : m₁ = m₂ := by
  rcases List.append_eq_append_iff.mp same with ⟨more, longer, rest⟩ | ⟨more, longer, rest⟩
  · cases more with
    | nil => simpa using longer.symm
    | cons first more =>
      obtain ⟨rfl, -⟩ := List.cons.inj rest
      exact absurd rfl (silent₂ (t₁, .takeExpiredSessions) (by simp [longer]))
  · cases more with
    | nil => simpa using longer
    | cons first more =>
      obtain ⟨rfl, -⟩ := List.cons.inj rest
      exact absurd rfl (silent₁ (t₂, .takeExpiredSessions) (by simp [longer]))

theorem reported_once (injective : Function.Injective digestOf) (orderly : Orderly calls)
    {before middle more : List (MonotonicMs × Call)} {t t' : MonotonicMs}
    (split : calls = before ++ (t, .evictExpired) :: (middle ++ (t', .takeExpiredSessions) :: more))
    (told : g ∈ (after digestOf limits before).2) (observer : g.kind = .observer) (session : g.sessionId = some sessionId)
    (unconsumed : g.consumed = false) (unrevoked : g.revoked = false) (late : g.expiresAtMs ≤ t) :
    ∃! earlier, Reports digestOf limits calls g.grantId sessionId earlier := by
  have swept : Orderly (before ++ [(t, .evictExpired)]) := by
    rw [split] at orderly
    exact orderly.upTo
  have gone : (after digestOf limits (before ++ [(t, .evictExpired)])).1.grants[g.grantId]? = none := by
    rw [after_concat]
    show (evictExpired t _).2.grants[g.grantId]? = none
    rw [find_evictExpired]
    cases found : (after digestOf limits before).1.grants[g.grantId]? with
    | none => rfl
    | some r =>
      obtain rfl := (sound_before limits injective swept).1.refines.stored_of_id told found
      have idle : g.isActive t = false := by simp [Issued.isActive, Nat.not_lt.mpr late]
      rw [Option.filter_some, Issued.retained_record]
      simp [Issued.isSpent, observer, idle]
  have still : g ∈ (after digestOf limits (before ++ [(t, .evictExpired)])).2 := by
    rw [after_concat]
    exact told
  obtain ⟨b, u, call, between, splitDrop, drops⟩ :=
    dropped_of_absent injective swept still observer session unconsumed unrevoked gone
  have whole : calls = b ++ (u, call) :: (between ++ (middle ++ (t', .takeExpiredSessions) :: more)) := by
    rw [split, ← List.singleton_append, ← List.append_assoc, splitDrop]
    simp
  obtain ⟨⟨v, taking⟩, takes⟩ : ∃ c, (between ++ (middle ++ (t', .takeExpiredSessions) :: more)).find?
      (fun c => c.2 = .takeExpiredSessions) = some c := by
    rw [← Option.isSome_iff_exists, List.find?_isSome]
    exact ⟨(t', .takeExpiredSessions), by simp, by simp⟩
  obtain ⟨is, m, rest, same, silent⟩ := List.find?_eq_some_iff_append.mp takes
  obtain rfl : taking = .takeExpiredSessions := of_decide_eq_true is
  rw [same] at whole
  have quiet : ∀ c ∈ m, c.2 ≠ .takeExpiredSessions := fun c inside => by simpa using silent c inside
  refine ⟨b ++ (u, call) :: m, ⟨⟨v, rest, by simp [whole]⟩, b, u, call, m, rfl, quiet, drops⟩, ?_⟩
  rintro earlier ⟨⟨v', rest', splitTake⟩, b', u', call', m', rfl, quiet', drops'⟩
  have whole' : calls = b' ++ (u', call') :: (m' ++ (v', .takeExpiredSessions) :: rest') := by simp [splitTake]
  obtain ⟨rfl, same'⟩ := drop_unique injective orderly whole' whole drops' drops
  obtain ⟨head, tails⟩ := List.cons.inj same'
  rw [head, first_take_unique tails quiet' quiet]

theorem told_congr (injective : Function.Injective digestOf) {calls' more : List (MonotonicMs × Call)}
    (orderly : Orderly (calls ++ more)) (orderly' : Orderly (calls' ++ more))
    (same : (after digestOf limits calls).2 = (after digestOf limits calls').2) :
    (after digestOf limits (calls ++ more)).2 = (after digestOf limits (calls' ++ more)).2 := by
  induction more using List.reverseRecOn with
  | nil => simpa using same
  | append_singleton more last ih =>
    obtain ⟨t, call⟩ := last
    rw [← List.append_assoc] at orderly orderly' ⊢
    rw [← List.append_assoc]
    have alike := ih (orderly.sublist (List.sublist_append_left _ _)) (orderly'.sublist (List.sublist_append_left _ _))
    obtain ⟨sound, -⟩ := sound_before limits injective orderly
    obtain ⟨sound', -⟩ := sound_before limits injective orderly'
    rw [after_concat, after_concat, ← alike]
    show note _ _ _ = note _ _ _
    by_cases tells : call.tells = true
    · have refines' := sound'.refines
      rw [← alike] at refines'
      rw [perform_answer sound.refines refines' injective (sound.limits.trans sound'.limits.symm) tells]
    · rw [note_silent (by simpa using tells), note_silent (by simpa using tells)]

/-- Two stores answer the questions about grants alike at an instant. -/
structure AnswersAlike (digestOf : SecretBearer → BitVec 256) (now : MonotonicMs) (s s' : GrantStore) : Prop where
  validate : ∀ bearer kind peerUid sessionId correlation,
    s.validateTo digestOf bearer kind peerUid sessionId correlation now =
      s'.validateTo digestOf bearer kind peerUid sessionId correlation now
  consume : ∀ bearer kind peerUid sessionId correlation,
    (s.consumeTo digestOf bearer kind peerUid sessionId correlation now).1 =
      (s'.consumeTo digestOf bearer kind peerUid sessionId correlation now).1
  hostGrantBound : ∀ grantId peerUid correlation,
    s.hostGrantBoundTo grantId peerUid correlation now = s'.hostGrantBoundTo grantId peerUid correlation now
  revoke : ∀ grantId kind, (s.revokeKind grantId kind now).1 = (s'.revokeKind grantId kind now).1

theorem answersAlike {s s' : GrantStore} {ledger : List Issued} (refines : Refines digestOf now s ledger)
    (refines' : Refines digestOf now s' ledger) (injective : Function.Injective digestOf) :
    AnswersAlike digestOf now s s' where
  validate _ _ _ _ _ := by rw [validateTo_eq refines injective, validateTo_eq refines' injective]
  consume bearer kind peerUid sessionId correlation := by
    rw [consumeTo_eq refines injective, consumeTo_eq refines' injective]
    cases opened ledger bearer kind peerUid sessionId correlation now <;> rfl
  hostGrantBound _ _ _ := by rw [Bool.eq_iff_iff, hostGrantBoundTo_iff refines, hostGrantBoundTo_iff refines']
  revoke grantId kind := by
    rw [revokeKind_eq refines, revokeKind_eq refines']
    split <;> rfl

theorem consumed_after (digestOf : SecretBearer → BitVec 256) (limits : GrantLimits) {bearer : SecretBearer}
    (more : List (MonotonicMs × Call))
    (consumed : ∃ g ∈ (after digestOf limits calls).2, g.bearer = bearer ∧ g.consumed = true) :
    ∃ g ∈ (after digestOf limits (calls ++ more)).2, g.bearer = bearer ∧ g.consumed = true := by
  induction more using List.reverseRecOn with
  | nil => simpa using consumed
  | append_singleton more last ih =>
    obtain ⟨t, call⟩ := last
    obtain ⟨g, inside, same, used⟩ := ih
    rw [← List.append_assoc, after_concat]
    obtain ⟨g', told, -, bearer', used'⟩ :=
      note_keeps call (perform digestOf t (after digestOf limits (calls ++ more)).1 call).1 inside
    exact ⟨g', told, bearer'.trans same, used' used⟩

def Consumed (digestOf : SecretBearer → BitVec 256) (limits : GrantLimits) (calls : List (MonotonicMs × Call))
    (bearer : SecretBearer) : Prop :=
  ∃ earlier t kind peerUid sessionId correlation later grant,
    calls = earlier ++ (t, .consume bearer kind peerUid sessionId correlation) :: later ∧
      (perform digestOf t (after digestOf limits earlier).1 (.consume bearer kind peerUid sessionId correlation)).1 =
        .consumed (.ok grant)

theorem Consumed.told {bearer : SecretBearer} (injective : Function.Injective digestOf) (orderly : Orderly calls)
    (consumed : Consumed digestOf limits calls bearer) :
    ∃ g ∈ (after digestOf limits calls).2, g.bearer = bearer ∧ g.consumed = true := by
  obtain ⟨earlier, t, kind, peerUid, session, correlation, later, grant, rfl, answered⟩ := consumed
  obtain ⟨sound, -⟩ := sound_before limits injective orderly
  rw [← List.singleton_append, ← List.append_assoc]
  refine consumed_after digestOf limits later ?_
  rw [after_concat, answered]
  rw [perform_consume sound.refines injective] at answered
  cases found : opened (after digestOf limits earlier).2 bearer kind peerUid session correlation t with
  | none =>
    rw [found] at answered
    cases answered
  | some g =>
    obtain ⟨inside, rfl, -, -⟩ := (opened_eq_some sound.refines).mp found
    exact ⟨{ g with consumed := true }, List.mem_map.mpr ⟨g, inside, if_pos rfl⟩, rfl, rfl⟩

theorem validateTo_iff {s : GrantStore} {ledger : List Issued} {bearer : SecretBearer} {kind : GrantKind}
    {peerUid : UInt32} {session : Option SessionId} {correlation : Option GrantCorrelation}
    (refines : Refines digestOf now s ledger) (injective : Function.Injective digestOf) :
    s.validateTo digestOf bearer kind peerUid session correlation now = .ok grantId ↔
      ∃ g ∈ ledger, g.grantId = grantId ∧ g.bearer = bearer ∧ g.boundTo kind peerUid session correlation = true ∧
        g.consumed = false ∧ g.revoked = false ∧ now < g.expiresAtMs := by
  have active : ∀ g : Issued, g.isActive now = true ↔ g.consumed = false ∧ g.revoked = false ∧ now < g.expiresAtMs := by
    intro g
    simp [Issued.isActive, and_assoc]
  rw [validateTo_eq refines injective]
  constructor
  · intro answered
    cases found : opened ledger bearer kind peerUid session correlation now with
    | none =>
      rw [found] at answered
      cases answered
    | some g =>
      rw [found] at answered
      cases answered
      obtain ⟨inside, own, bound, live⟩ := (opened_eq_some refines).mp found
      exact ⟨g, inside, rfl, own, bound, (active g).mp live⟩
  · rintro ⟨g, inside, rfl, own, bound, live⟩
    rw [(opened_eq_some refines).mpr ⟨inside, own, bound, (active g).mpr live⟩]

/-- What a grant store promises at an instant after orderly calls, in terms of what its answers told. -/
structure Promises (digestOf : SecretBearer → BitVec 256) (limits : GrantLimits) (calls : List (MonotonicMs × Call))
    (now : MonotonicMs) : Prop where
  once : ∀ bearer, Consumed digestOf limits calls bearer → ∀ kind peerUid session correlation grant,
    ((after digestOf limits calls).1.consumeTo digestOf bearer kind peerUid session correlation now).1 ≠ .ok grant
  agree : ∀ bearer kind peerUid session correlation,
    ((after digestOf limits calls).1.consumeTo digestOf bearer kind peerUid session correlation now).1 =
      ((after digestOf limits calls).1.validateTo digestOf bearer kind peerUid session correlation now).map
        fun grantId => ⟨grantId, kind, session⟩
  valid : ∀ bearer kind peerUid session correlation grantId,
    (after digestOf limits calls).1.validateTo digestOf bearer kind peerUid session correlation now = .ok grantId ↔
      ∃ g ∈ (after digestOf limits calls).2, g.grantId = grantId ∧ g.bearer = bearer ∧
        g.boundTo kind peerUid session correlation = true ∧ g.consumed = false ∧ g.revoked = false ∧
          now < g.expiresAtMs
  capped : Capped limits now (after digestOf limits calls).1 (after digestOf limits calls).2
  hostBound : ∀ grantId peerUid correlation,
    (after digestOf limits calls).1.hostGrantBoundTo grantId peerUid correlation now = true ↔
      ∃ g ∈ (after digestOf limits calls).2, g.grantId = grantId ∧ g.kind = .host ∧ g.peerUid = peerUid ∧
        correlationMatches g.correlation correlation = true ∧ g.revoked = false ∧ now < g.expiresAtMs
  refused : ∀ earlier t call later, calls = earlier ++ (t, call) :: later →
    (perform digestOf t (after digestOf limits earlier).1 call).1.isRefusal = true →
      AnswersAlike digestOf now (after digestOf limits calls).1 (after digestOf limits (earlier ++ later)).1
  taken : ∀ sessionId, sessionId ∈ (after digestOf limits calls).1.takeExpiredSessions.1 ↔
    ∃ grantId, Owed digestOf limits calls grantId sessionId
  reported : ∀ before t middle t' more,
    calls = before ++ (t, .evictExpired) :: (middle ++ (t', .takeExpiredSessions) :: more) →
      ∀ g ∈ (after digestOf limits before).2, g.kind = .observer → g.consumed = false → g.revoked = false →
        g.expiresAtMs ≤ t → ∀ sessionId, g.sessionId = some sessionId →
          ∃! earlier, Reports digestOf limits calls g.grantId sessionId earlier

theorem bearers_promised (injective : Function.Injective digestOf) (orderly : Orderly calls)
    (latest : ∀ call ∈ calls, call.1 ≤ now) : Promises digestOf limits calls now := by
  have sound := after_sound limits injective orderly latest
  have refines := sound.refines
  refine ⟨?_, ?_, fun _ _ _ _ _ _ => validateTo_iff refines injective, sound.capped,
    fun _ _ _ => hostGrantBoundTo_iff refines, ?_, ?_, ?_⟩
  · intro bearer consumed kind peerUid session correlation grant answered
    obtain ⟨g, inside, rfl, used⟩ := consumed.told injective orderly
    rw [consumeTo_eq refines injective] at answered
    cases found : opened (after digestOf limits calls).2 g.bearer kind peerUid session correlation now with
    | none =>
      rw [found] at answered
      cases answered
    | some g' =>
      obtain ⟨inside', same, -, active⟩ := (opened_eq_some refines).mp found
      obtain rfl := refines.same_bearer inside' inside same
      simp [Issued.isActive, used] at active
  · intro bearer kind peerUid session correlation
    rw [consumeTo_eq refines injective, validateTo_eq refines injective]
    cases opened (after digestOf limits calls).2 bearer kind peerUid session correlation now <;> rfl
  · intro earlier t call later split refusal
    subst split
    have shorter : Orderly (earlier ++ later) :=
      orderly.sublist ((List.sublist_cons_self _ _).append_left earlier)
    have sound' := after_sound limits injective shorter fun c inside => latest c (by
      rcases List.mem_append.mp inside with first | second
      · exact List.mem_append_left _ first
      · exact List.mem_append_right _ (List.mem_cons_of_mem _ second))
    have same : (after digestOf limits (earlier ++ [(t, call)])).2 = (after digestOf limits earlier).2 := by
      rw [after_concat]
      exact note_refused refusal
    have whole : earlier ++ (t, call) :: later = (earlier ++ [(t, call)]) ++ later := by simp
    have alike : (after digestOf limits (earlier ++ (t, call) :: later)).2 =
        (after digestOf limits (earlier ++ later)).2 := by
      rw [whole] at orderly ⊢
      exact told_congr injective orderly shorter same
    rw [alike] at refines
    exact answersAlike refines sound'.refines injective
  · intro sessionId
    rw [← expired_iff injective orderly]
    exact ExtTreeSet.mem_toList
  · intro before t middle t' more split g told observer unconsumed unrevoked late sessionId session
    exact reported_once injective orderly split told observer session unconsumed unrevoked late

def sampleDigest (bearer : SecretBearer) : BitVec 256 := Equiv.swap 9
  0x363c2a86136a3b86cbece38d3bd5d846eaadf07e8e3c4ff33d0f101777b38f1f#256 bearer.bytes

theorem sampleDigest_injective : Function.Injective sampleDigest := by
  intro a b same
  have bytes := (Equiv.swap _ _).injective same
  cases a
  cases b
  exact congrArg SecretBearer.mk bytes

theorem bearers_promised_host : Promises sampleDigest ⟨60000, 60000, 8, 8, 256⟩
    [(5, .mintHost 1000 none none ⟨some ⟨7⟩, some ⟨9⟩⟩), (6, .consume ⟨9⟩ .host 1000 none none), (7, .evictExpired),
      (7, .takeExpiredSessions)] 9 :=
  bearers_promised sampleDigest_injective ⟨by decide, by decide, by decide⟩ (by decide)

end GrantStore

end Bitty.Daemon
