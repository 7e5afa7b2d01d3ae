import Bitty.Daemon.Orphan.Recoverable

namespace Bitty.Daemon

open Std Text

namespace OrphanJournal

open Mutation

variable {j j' : OrphanJournal} {s : SessionId} {r r' : OrphanRecord} {disk : Disk} {now : UInt64}
variable {around : Surroundings} {live : SessionId → Bool} {verified : VerifiedOrphan}
variable {directory : Directory} {limits : OrphanJournalLimits} {bootId : BootId} {bootOriginMs : UInt64}
variable {calls : List (Disk × Call)}

/-- A record names what the reaper may act on: its cgroup, or the process that is observed to be
the one it was committed with. -/
def Identified (around : Surroundings) (s : SessionId) (r : OrphanRecord) : Prop :=
  (∃ path, r.containment = some (.cgroup path)) ∨
    (r.orphanClass = .committed ∧ r.containment = some .subreaper ∧
      ∃ identity, r.identity = some identity ∧
        around.observe s identity.pid = .present identity.startTime identity.processGroup identity.uid)

theorem observe_of_matches {identity : ProcessIdentity} {observation : ProcessObservation}
    (same : identity.matchesObservation observation = true) :
    observation = .present identity.startTime identity.processGroup identity.uid := by
  cases observation with
  | absent => cases same
  | unreadable => cases same
  | present startTime processGroup uid =>
    simp only [ProcessIdentity.matchesObservation, Bool.decide_and, Bool.and_eq_true, decide_eq_true_eq] at same
    obtain ⟨rfl, rfl, rfl⟩ := same
    rfl

theorem Exact.cases (called : Exact around s r verified) :
    (∃ boot, r.bootId = some boot ∧ around.bootId = some boot ∧ verified.bootId = boot) ∧ r.orphanClass ≠ .unverified ∧
      ((∃ path, r.containment = some (.cgroup path)) ∨
        r.containment = some .subreaper ∧ ∃ identity, r.identity = some identity ∧
          around.observe s identity.pid = .present identity.startTime identity.processGroup identity.uid) := by
  unfold Exact classify at called
  split at called
  · rename_i recordBoot probeBoot booted probed
    split at called
    · cases called
    · rename_i same
      obtain rfl : recordBoot = probeBoot := Decidable.not_not.mp same
      split at called
      · cases called
      · rename_i sound
        split at called
        · cases called
        · rename_i contained
          split at called
          · cases called
          · rename_i identity known
            split at called
            · rename_i observed
              obtain rfl := Disposition.exact.inj called
              exact ⟨⟨_, booted, probed, rfl⟩, sound, .inr ⟨contained, identity, known, observe_of_matches observed⟩⟩
            · cases called
        · rename_i path contained
          obtain rfl := Disposition.exact.inj called
          exact ⟨⟨_, booted, probed, rfl⟩, sound, .inl ⟨path, contained⟩⟩
        · cases called
        · cases called
        · cases called
  · cases called

theorem Stale.cases (stale : Stale around s r) :
    ∃ recordBoot probeBoot, r.bootId = some recordBoot ∧ around.bootId = some probeBoot ∧ recordBoot ≠ probeBoot := by
  unfold Stale classify at stale
  split at stale
  · rename_i recordBoot probeBoot booted probed
    split at stale
    · rename_i other
      exact ⟨recordBoot, probeBoot, booted, probed, other⟩
    · split at stale
      · cases stale
      · split at stale
        · cases stale
        · split at stale
          · cases stale
          · split at stale <;> cases stale
        · cases stale
        · cases stale
        · cases stale
        · cases stale
  · cases stale

theorem Exact.identified (sync : j.InSync) (here : j.records[s]? = some r) (called : Exact around s r verified) :
    Identified around s r := by
  obtain ⟨-, sound, cgroup | ⟨contained, identity, known, observed⟩⟩ := called.cases
  · exact .inl cgroup
  · refine .inr ⟨?_, contained, identity, known, observed⟩
    cases orphanClass : r.orphanClass with
    | reserved =>
      rw [sync.no_identity here orphanClass] at known
      cases known
    | committed => rfl
    | unverified => exact absurd orphanClass sound

theorem Moves.quarantined (moves : Moves j j') (here : j.records[s]? = some r) (quarantined : r.orphanClass = .unverified)
    (there : j'.records[s]? = some r') : r'.orphanClass = .unverified := by
  induction moves generalizing r' with
  | refl =>
    rw [here] at there
    obtain rfl := Option.some.inj there
    exact quarantined
  | tail _ last ih =>
    obtain ⟨a, move⟩ := last
    by_cases other : s = a
    · subst other
      cases move with
      | stay => exact ih there
      | put stored before same kept =>
        rw [records_put, if_pos rfl] at there
        obtain rfl := Option.some.inj there
        exact kept (ih before)
      | forget =>
        rw [records_forget, if_pos rfl] at there
        cases there
    · rw [move.other other] at there
      exact ih there

theorem perform_quarantined (sync : j.InSync) {call : Call} (ran : j.perform disk call = some j')
    (here : j.records[s]? = some r) (quarantined : r.orphanClass = .unverified) (there : j'.records[s]? = some r') :
    r'.orphanClass = .unverified := by
  rcases perform_cases sync ran with moves | ⟨a, text, generation, now, containment, absent, -, -, rfl⟩ | reloaded
  · exact moves.quarantined here quarantined there
  · have other : a ≠ s := by
      rintro rfl
      rw [absent] at here
      cases here
    rw [records_put, if_neg other, here] at there
    obtain rfl := Option.some.inj there
    exact quarantined
  · rw [reloaded.2.2 s, here] at there
    obtain rfl := Option.some.inj there
    exact quarantined

def HeldThroughout (s : SessionId) (start : Option OrphanJournal) (calls : List (Disk × Call)) : Prop :=
  ∀ n ≤ calls.length, ∃ j, after start (calls.take n) = some j ∧ j.records[s]?.isSome = true

/-- The record of a session was in quarantine at some time since it was reserved: after it, the
session has had a record at every time until the last one. -/
def WasQuarantined (s : SessionId) (start : Option OrphanJournal) (calls : List (Disk × Call)) : Prop :=
  ∃ before since j r, calls = before ++ since ∧ after start before = some j ∧ j.records[s]? = some r ∧
    r.orphanClass = .unverified ∧ HeldThroughout s (after start before) since

theorem quarantined_throughout (sync : j.InSync) (here : j.records[s]? = some r) (quarantined : r.orphanClass = .unverified)
    (calls : List (Disk × Call)) (held : HeldThroughout s (some j) calls) (ran : after (some j) calls = some j')
    (there : j'.records[s]? = some r') : r'.orphanClass = .unverified := by
  induction calls generalizing j r with
  | nil =>
    obtain rfl := Option.some.inj ran
    rw [here] at there
    obtain rfl := Option.some.inj there
    exact quarantined
  | cons call calls ih =>
    obtain ⟨j₁, first, isSome⟩ := held 1 (by simp)
    have performed : j.perform call.1 call.2 = some j₁ := first
    obtain ⟨r₁, found⟩ := Option.isSome_iff_exists.mp isSome
    have rest : after (some j₁) calls = some j' := by
      rw [← ran, ← performed]
      rfl
    refine ih (perform_sync sync performed).1 found (perform_quarantined sync performed here quarantined found) ?_ rest
    intro n short
    obtain ⟨j₂, reached, isSome⟩ := held (n + 1) (by simpa using short)
    refine ⟨j₂, ?_, isSome⟩
    rw [← reached, ← performed]
    rfl

structure Proven (start : Option OrphanJournal) (calls : List (Disk × Call)) (j : OrphanJournal) (around : Surroundings)
    (live : SessionId → Bool) (r : OrphanRecord) (s : SessionId) : Prop where
  held : j.records[s]? = some r
  stored : j.directory[s]?.map (loadRecord j.limits s) = some r
  boot : ∃ boot, r.bootId = some boot ∧ around.bootId = some boot
  dead : live s = false
  unquarantined : ¬ WasQuarantined s start calls
  identified : Identified around s r

def OfBoot (r : OrphanRecord) : Call → Prop
  | .reapExcluding around _ _ => ∀ boot, around.bootId = some boot → r.bootId = some boot
  | _ => True

def Released (disk : Disk) (j : OrphanJournal) (s : SessionId) (r : OrphanRecord) : Call → Prop
  | .reapExcluding around now live =>
    around.reap s = .swept ∧ ∃ verified, (r, verified) ∈ (reapExcluding disk around now live j).2.calls
  | .settle sessionId cleanup _ => sessionId = s ∧ (cleanup = .swept ∨ cleanup = .notStarted)
  | _ => False

theorem Move.eq_of_gone (move : Move s j j') {a : SessionId} (here : j.records[a]? = some r) (gone : j'.records[a]? = none) :
    a = s := by
  by_contra other
  rw [move.other other, here] at gone
  cases gone

theorem settle_gone (sync : j.InSync) {a : SessionId} {cleanup : CleanupClass} (here : j.records[s]? = some r)
    (gone : (settle disk a cleanup now j).2.records[s]? = none) : a = s ∧ (cleanup = .swept ∨ cleanup = .notStarted) := by
  have move := settle_move sync (Prod.mk.eta (p := settle disk a cleanup now j)).symm
  obtain rfl := move.eq_of_gone here gone
  refine ⟨rfl, ?_⟩
  cases cleanup with
  | swept => exact .inl rfl
  | notStarted => exact .inr rfl
  | groupSignalled | unverified =>
    unfold settle at gone
    rw [here] at gone
    exact absurd gone (quarantine_stays sync here Prod.mk.eta.symm)

theorem commit_stays (here : j.records[s]? = some r) {a : SessionId} (identity : ProcessIdentity) :
    (commit disk a identity j).2.records[s]? ≠ none := by
  intro gone
  unfold commit at gone
  split at gone
  · rw [here] at gone
    cases gone
  · rename_i r₀ found
    split at gone
    · rw [here] at gone
      cases gone
    · rcases store_change_cases (Prod.mk.eta (p := (do
          store disk (r₀.committed identity)
          change fun j => { j with records := j.records.insert a (r₀.committed identity) } : JournalM Unit) j)).symm with
        ⟨e, -, same⟩ | ⟨text, -, -, -, written⟩
      · rw [same, here] at gone
        cases gone
      · rw [written] at gone
        change (j.records.insert a (r₀.committed identity))[s]? = none at gone
        rw [TreeMap.find_insert] at gone
        split at gone
        · cases gone
        · rw [here] at gone
          cases gone

theorem retire_gone {a : SessionId} (here : j.records[s]? = some r)
    (gone : (retire disk a j).2.records[s]? = none) : r.orphanClass = .unverified := by
  have move := retire_move (Prod.mk.eta (p := retire disk a j)).symm
  obtain rfl := move.eq_of_gone here gone
  unfold retire at gone
  rw [here] at gone
  dsimp only at gone
  split at gone
  · rw [here] at gone
    cases gone
  · rename_i quarantined
    exact Decidable.not_not.mp quarantined

theorem collectExpired_gone (sync : j.InSync) (here : j.records[s]? = some r)
    (gone : (collectExpired disk now j).2.records[s]? = none) : r.orphanClass = .unverified := by
  rw [collectExpired_journal] at gone
  by_cases chosen : s ∈ ((j.records.toList.map Prod.snd).filter (j.isExpired now)).map (·.sessionId)
  · obtain ⟨r₁, member, named⟩ := List.mem_map.mp chosen
    obtain ⟨listed, expired⟩ := List.mem_filter.mp member
    obtain ⟨⟨a, r₂⟩, entry, rfl⟩ := List.mem_map.mp listed
    have found := ExtTreeMap.mem_toList_iff_getElem?_eq_some.mp entry
    have same : a = s := (sync.named found).symm.trans named
    rw [same, here] at found
    obtain rfl := Option.some.inj found
    simp only [isExpired, Bool.decide_and, Bool.and_eq_true, decide_eq_true_eq] at expired
    exact expired.1
  · rw [removeAll_other Prod.mk.eta.symm chosen, here] at gone
    cases gone

theorem perform_gone (sync : j.InSync) {call : Call} (ran : j.perform disk call = some j') (here : j.records[s]? = some r)
    (active : r.orphanClass ≠ .unverified) (current : OfBoot r call) (gone : j'.records[s]? = none) :
    Released disk j s r call := by
  cases call with
  | reserve a generation now containment =>
    obtain rfl := Option.some.inj ran
    rcases reserve_cases (Prod.mk.eta (p := reserve disk a generation now containment j)).symm with
      same | ⟨text, absent, -, -, written⟩
    · rw [same, here] at gone
      cases gone
    · rw [written, records_put] at gone
      split at gone
      · cases gone
      · rw [here] at gone
        cases gone
  | commit a identity =>
    obtain rfl := Option.some.inj ran
    exact absurd gone (commit_stays here identity)
  | reapExcluding around now live =>
    obtain rfl := Option.some.inj ran
    rcases (reapExcluding_swept sync disk around now live).left s r here gone with stale | ⟨verified, -, swept, logged⟩
    · obtain ⟨recordBoot, probeBoot, booted, probed, other⟩ := stale.cases
      rw [current probeBoot probed] at booted
      exact absurd (Option.some.inj booted).symm other
    · exact ⟨swept, verified, logged⟩
  | collectExpired now =>
    obtain rfl := Option.some.inj ran
    exact absurd (collectExpired_gone sync here gone) active
  | retire a =>
    obtain rfl := Option.some.inj ran
    exact absurd (retire_gone here gone) active
  | settle a cleanup now =>
    obtain rfl := Option.some.inj ran
    exact settle_gone sync here gone
  | restart bootId bootOriginMs =>
    rw [(restart_cases sync ran).2.2 s, here] at gone
    cases gone

/-- What a journal promises after operations: the reaper is called for proven records only, and a
record of the current boot leaves it from a class other than quarantine only where it was swept or
settled. -/
structure Guarded (start : Option OrphanJournal) (calls : List (Disk × Call)) (j : OrphanJournal) : Prop where
  signals : ∀ disk around now live r verified,
    (r, verified) ∈ (reapExcluding disk around now live j).2.calls → ∃ s, Proven start calls j around live r s
  releases : ∀ disk call j' (s : SessionId) r, j.perform disk call = some j' → j.records[s]? = some r →
    (r.orphanClass = .reserved ∨ r.orphanClass = .committed) → OfBoot r call → j'.records[s]? = none →
    Released disk j s r call

theorem run_guarded (ran : run directory limits bootId bootOriginMs calls = some j) :
    Guarded (openAt directory limits bootId bootOriginMs).toOption calls j := by
  obtain ⟨sync, -⟩ := run_sync ran
  constructor
  · intro disk around now live r verified logged
    rcases (reapExcluding_swept sync disk around now live).calls _ logged with before | ⟨s, -, here, dead, called⟩
    · cases before
    · refine ⟨s, here, (sync s).symm.trans here, ?_, dead, ?_, called.identified sync here⟩
      · obtain ⟨boot, booted, probed, -⟩ := called.cases.1
        exact ⟨boot, booted, probed⟩
      · rintro ⟨before, since, j₀, r₀, rfl, reached, found, quarantined, held⟩
        have earlier : run directory limits bootId bootOriginMs before = some j₀ := reached
        have later : after (some j₀) since = some j := by
          rw [← reached, ← after_append]
          exact ran
        rw [reached] at held
        exact called.cases.2.1 (quarantined_throughout (run_sync earlier).1 found quarantined since held later here)
  · intro disk call j' s r performed here active current gone
    refine perform_gone sync performed here ?_ current gone
    rintro quarantined
    rw [quarantined] at active
    rcases active with impossible | impossible <;> cases impossible

def sampleReservation : List (Disk × Call) :=
  [(fun _ => true, .reserve ⟨7⟩ 1 5 (.cgroup (bytes "/sys/fs/cgroup/bittyd-7".toList)))]

def sampleSurroundings : Surroundings := ⟨some sampleBoot, fun _ _ => .absent, fun _ => .swept⟩

theorem run_guarded_sample : ∃ j, run ∅ sampleLimits sampleBoot 0 sampleReservation = some j ∧
    (reapExcluding (fun _ => true) sampleSurroundings 9 (fun _ => false) j).1 = .ok ⟨1, 0, 0⟩ ∧
    Guarded (openAt ∅ sampleLimits sampleBoot 0).toOption sampleReservation j := by
  have found : (run ∅ sampleLimits sampleBoot 0 sampleReservation).bind (fun j =>
      (reapExcluding (fun _ => true) sampleSurroundings 9 (fun _ => false) j).1.toOption) = some ⟨1, 0, 0⟩ := by
    decide +kernel
  obtain ⟨j, ran, reaped⟩ := Option.bind_eq_some_iff.mp found
  refine ⟨j, ran, ?_, run_guarded ran⟩
  cases result : (reapExcluding (fun _ => true) sampleSurroundings 9 (fun _ => false) j).1 with
  | error e =>
    rw [result] at reaped
    cases reaped
  | ok report =>
    rw [result] at reaped
    exact congrArg Except.ok (Option.some.inj reaped)

end OrphanJournal

end Bitty.Daemon
