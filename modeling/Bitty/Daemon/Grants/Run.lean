import Bitty.Daemon.Grants.Expiry

namespace Bitty.Daemon

open Std

namespace GrantStore

variable {digestOf : SecretBearer → BitVec 256} {limits : GrantLimits} {now : MonotonicMs}
variable {calls : List (MonotonicMs × Call)} {g : Issued} {grantId : GrantId} {sessionId : SessionId}

def after (digestOf : SecretBearer → BitVec 256) (limits : GrantLimits) (calls : List (MonotonicMs × Call)) :
    GrantStore × List Issued :=
  calls.foldl (fun h call => ((perform digestOf call.1 h.1 call.2).2,
    note h.2 call.2 (perform digestOf call.1 h.1 call.2).1)) (new limits, [])

/-- Calls in the order of their instants, for which the source of randomness never repeats itself. -/
structure Orderly (calls : List (MonotonicMs × Call)) : Prop where
  ordered : calls.Pairwise fun first second => first.1 ≤ second.1
  ids : (calls.filterMap fun call => call.2.draw.bind Draw.grantId).Nodup
  bearers : (calls.filterMap fun call => call.2.draw.bind Draw.bearer).Nodup

theorem Orderly.sublist {calls' : List (MonotonicMs × Call)} (orderly : Orderly calls) (part : calls'.Sublist calls) :
    Orderly calls' where
  ordered := orderly.ordered.sublist part
  ids := orderly.ids.sublist (part.filterMap _)
  bearers := orderly.bearers.sublist (part.filterMap _)

theorem after_concat (digestOf : SecretBearer → BitVec 256) (limits : GrantLimits) (calls : List (MonotonicMs × Call))
    (now : MonotonicMs) (call : Call) :
    after digestOf limits (calls ++ [(now, call)]) =
      ((perform digestOf now (after digestOf limits calls).1 call).2,
        note (after digestOf limits calls).2 call (perform digestOf now (after digestOf limits calls).1 call).1) :=
  List.foldl_concat _ _ _ _

structure Sound (digestOf : SecretBearer → BitVec 256) (limits : GrantLimits) (calls : List (MonotonicMs × Call))
    (now : MonotonicMs) (h : GrantStore × List Issued) : Prop where
  refines : Refines digestOf now h.1 h.2
  capped : Capped limits now h.1 h.2
  limits : h.1.limits = limits
  drawn : ∀ g ∈ h.2, g.grantId ∈ calls.filterMap (fun call => call.2.draw.bind Draw.grantId) ∧
    g.bearer ∈ calls.filterMap fun call => call.2.draw.bind Draw.bearer

variable {h : GrantStore × List Issued}

theorem Sound.of_le {later : MonotonicMs} (sound : Sound digestOf limits calls now h)
    (le : now ≤ later) : Sound digestOf limits calls later h :=
  ⟨sound.refines.of_le le, sound.capped.of_le le, sound.limits, sound.drawn⟩

variable {call : Call}

theorem Sound.fresh {calls' : List (MonotonicMs × Call)}
    (sound : Sound digestOf limits calls now h) (orderly : Orderly (calls' ++ [(now, call)]))
    (part : calls.Sublist calls') : call.Fresh h.2 := by
  intro draw drawn
  have ids := orderly.ids
  have bearers := orderly.bearers
  rw [List.filterMap_append, List.nodup_append] at ids bearers
  constructor
  · intro grantId own told
    obtain ⟨g, inside, rfl⟩ := List.mem_map.mp told
    refine ids.2.2 _ ((part.filterMap _).subset (sound.drawn g inside).1) g.grantId ?_ rfl
    simp [drawn, own]
  · intro bearer own told
    obtain ⟨g, inside, rfl⟩ := List.mem_map.mp told
    refine bearers.2.2 _ ((part.filterMap _).subset (sound.drawn g inside).2) g.bearer ?_ rfl
    simp [drawn, own]

theorem Sound.step (sound : Sound digestOf limits calls now h)
    (injective : Function.Injective digestOf) (fresh : call.Fresh h.2) :
    Sound digestOf limits (calls ++ [(now, call)]) now
      ((perform digestOf now h.1 call).2, note h.2 call (perform digestOf now h.1 call).1) where
  refines := perform_refines sound.refines injective fresh
  capped := by
    have capped := sound.capped
    rw [← sound.limits] at capped ⊢
    exact perform_capped sound.refines injective fresh capped
  limits := (perform_limits sound.refines injective call).trans sound.limits
  drawn g told := by
    rw [List.filterMap_append, List.filterMap_append, List.mem_append, List.mem_append]
    rcases perform_origin sound.refines injective told with ⟨g₀, inside, sameId, sameBearer, -⟩ | ⟨drawn, -⟩
    · rw [← sameId, ← sameBearer]
      exact ⟨.inl (sound.drawn g₀ inside).1, .inl (sound.drawn g₀ inside).2⟩
    · exact ⟨.inr (by simp [drawn]), .inr (by simp [drawn])⟩

theorem after_sound (limits : GrantLimits) (injective : Function.Injective digestOf) (orderly : Orderly calls)
    (latest : ∀ call ∈ calls, call.1 ≤ now) : Sound digestOf limits calls now (after digestOf limits calls) := by
  induction calls using List.reverseRecOn generalizing now with
  | nil =>
    refine ⟨⟨List.nodup_nil, List.nodup_nil, ?_, nofun⟩, ⟨Nat.zero_le _, fun _ => Nat.zero_le _, ?_⟩, rfl, nofun⟩
    · intro grantId r here
      simp [after, new] at here
    · simp [after, new]
  | append_singleton calls last ih =>
    obtain ⟨t, call⟩ := last
    have ordered := orderly.ordered
    rw [List.pairwise_append] at ordered
    have before := ih (orderly.sublist (List.sublist_append_left _ _)) fun c inside => ordered.2.2 c inside (t, call) (by simp)
    rw [after_concat]
    exact (before.step injective (before.fresh orderly (.refl _))).of_le (latest (t, call) (by simp))

variable {earlier : List (MonotonicMs × Call)}

theorem Orderly.latest {later : List (MonotonicMs × Call)}
    (orderly : Orderly (earlier ++ (now, call) :: later)) : ∀ c ∈ earlier, c.1 ≤ now := by
  intro c inside
  have ordered := orderly.ordered
  rw [List.pairwise_append] at ordered
  exact ordered.2.2 c inside (now, call) (by simp)

theorem Orderly.upTo {later : List (MonotonicMs × Call)}
    (orderly : Orderly (earlier ++ (now, call) :: later)) : Orderly (earlier ++ [(now, call)]) :=
  orderly.sublist ((List.Sublist.cons_cons _ (List.nil_sublist later)).append_left earlier)

theorem sound_before (limits : GrantLimits) (injective : Function.Injective digestOf)
    {later : List (MonotonicMs × Call)}
    (orderly : Orderly (earlier ++ (now, call) :: later)) :
    Sound digestOf limits earlier now (after digestOf limits earlier) ∧ call.Fresh (after digestOf limits earlier).2 := by
  have sound := after_sound limits injective (orderly.sublist (List.sublist_append_left _ _)) orderly.latest
  exact ⟨sound, sound.fresh orderly.upTo (.refl _)⟩

/-- A session is owed a report for a grant that was dropped since the sessions were last taken. -/
def Owed (digestOf : SecretBearer → BitVec 256) (limits : GrantLimits) (calls : List (MonotonicMs × Call))
    (grantId : GrantId) (sessionId : SessionId) : Prop :=
  ∃ before t call between, calls = before ++ (t, call) :: between ∧ (∀ c ∈ between, c.2 ≠ .takeExpiredSessions) ∧
    Drops digestOf (after digestOf limits before).1 t call grantId sessionId

def Reports (digestOf : SecretBearer → BitVec 256) (limits : GrantLimits) (calls : List (MonotonicMs × Call))
    (grantId : GrantId) (sessionId : SessionId) (earlier : List (MonotonicMs × Call)) : Prop :=
  (∃ t more, calls = earlier ++ (t, .takeExpiredSessions) :: more) ∧ Owed digestOf limits earlier grantId sessionId

theorem owed_concat (calls : List (MonotonicMs × Call)) (call : Call) :
    Owed digestOf limits (calls ++ [(now, call)]) grantId sessionId ↔
      (call ≠ .takeExpiredSessions ∧ Owed digestOf limits calls grantId sessionId) ∨
        Drops digestOf (after digestOf limits calls).1 now call grantId sessionId := by
  constructor
  · rintro ⟨before, t, c, between, split, silent, drops⟩
    rcases List.eq_nil_or_concat between with rfl | ⟨rest, last, rfl⟩
    · obtain ⟨rfl, same⟩ := List.append_inj' split rfl
      cases same
      exact .inr drops
    · rw [List.concat_eq_append] at split silent
      rw [← List.cons_append, ← List.append_assoc] at split
      obtain ⟨rfl, same⟩ := List.append_inj' split rfl
      cases same
      refine .inl ⟨silent (now, call) (by simp), before, t, c, rest, rfl, ?_, drops⟩
      exact fun x inside => silent x (List.mem_append_left _ inside)
  · rintro (⟨other, before, t, c, between, rfl, silent, drops⟩ | drops)
    · refine ⟨before, t, c, between ++ [(now, call)], by simp, ?_, drops⟩
      intro x inside
      rcases List.mem_append.mp inside with early | last
      · exact silent x early
      · rw [List.mem_singleton] at last
        rw [last]
        exact other
    · exact ⟨calls, now, call, [], rfl, nofun, drops⟩

theorem expired_iff (injective : Function.Injective digestOf) (orderly : Orderly calls) :
    sessionId ∈ (after digestOf limits calls).1.expiredSessions ↔
      ∃ grantId, Owed digestOf limits calls grantId sessionId := by
  induction calls using List.reverseRecOn with
  | nil =>
    refine iff_of_false ExtTreeSet.not_mem_empty ?_
    rintro ⟨grantId, before, t, call, between, split, -, -⟩
    simp at split
  | append_singleton calls last ih =>
    obtain ⟨t, call⟩ := last
    obtain ⟨sound, fresh⟩ := sound_before limits injective orderly
    have known := ih (orderly.sublist (List.sublist_append_left _ _))
    rw [after_concat, perform_expired sound.refines injective fresh, known]
    simp only [owed_concat]
    by_cases takes : call = .takeExpiredSessions
    · subst takes
      simp only [ne_eq, not_true_eq_false, false_and, false_or, false_iff]
      rintro ⟨grantId, r, found, -, -, gone⟩
      change (after digestOf limits calls).1.grants[grantId]? = none at gone
      rw [found] at gone
      cases gone
    · simp only [ne_eq, takes, not_false_eq_true, true_and]
      exact exists_or.symm

theorem absent_after (injective : Function.Injective digestOf) {later : List (MonotonicMs × Call)}
    (orderly : Orderly (earlier ++ later)) (told : ∃ g ∈ (after digestOf limits earlier).2, g.grantId = grantId)
    (gone : (after digestOf limits earlier).1.grants[grantId]? = none) :
    (after digestOf limits (earlier ++ later)).1.grants[grantId]? = none ∧
      ∃ g ∈ (after digestOf limits (earlier ++ later)).2, g.grantId = grantId := by
  induction later using List.reverseRecOn with
  | nil =>
    rw [List.append_nil]
    exact ⟨gone, told⟩
  | append_singleton later last ih =>
    obtain ⟨t, call⟩ := last
    rw [← List.append_assoc] at orderly ⊢
    obtain ⟨sound, fresh⟩ := sound_before limits injective orderly
    obtain ⟨absent, g, inside, rfl⟩ := ih (orderly.sublist (List.sublist_append_left _ _))
    rw [after_concat]
    constructor
    · cases found : (perform digestOf t (after digestOf limits (earlier ++ later)).1 call).2.grants[g.grantId]? with
      | none => rfl
      | some r =>
        rcases perform_stored sound.refines injective found with stored | ⟨draw, drawn, own⟩
        · rw [absent] at stored
          cases stored
        · exact absurd (List.mem_map_of_mem inside) ((fresh draw drawn).1 g.grantId own)
    · obtain ⟨g', told', same, -⟩ := note_keeps call _ inside
      exact ⟨g', told', same⟩

end GrantStore

end Bitty.Daemon
