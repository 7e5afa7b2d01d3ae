import Bitty.Package.Perform

namespace Bitty.Package

namespace Environment

variable {env env' start : Environment}

structure Step where
  before : Environment
  operation : Operation
  answer : Reply
  after : Environment

inductive Run : Environment → List Step → Environment → Prop
  | done (env : Environment) : Run env [] env
  | step {env mid env' : Environment} {op : Operation} {answer : Reply} {later : List Step}
      (performed : env.perform op = some (answer, mid)) (rest : Run mid later env') :
      Run env (⟨env, op, answer, mid⟩ :: later) env'

variable {steps : List Step} {s : Step}

theorem Run.sound (run : Run start steps env') (sound : start.Sound) : env'.Sound := by
  induction run with
  | done env => exact sound
  | step performed rest ih => exact ih (sound.perform performed)

theorem Run.append {mid : Environment} {later : List Step} (run : Run start steps mid) (rest : Run mid later env') :
    Run start (steps ++ later) env' := by
  induction run with
  | done env => exact rest
  | step performed _ ih => exact .step performed (ih rest)

theorem Run.performed (run : Run start steps env') (member : s ∈ steps) :
    s.before.perform s.operation = some (s.answer, s.after) := by
  induction run with
  | done env => cases member
  | step performed rest ih =>
    rcases List.mem_cons.mp member with rfl | later
    · exact performed
    · exact ih later

theorem Run.invariant (Keeps : Environment → Prop)
    (kept : ∀ {env env' op answer}, Keeps env → env.perform op = some (answer, env') → Keeps env')
    (run : Run start steps env') (begins : Keeps start) (member : s ∈ steps) : Keeps s.before := by
  induction run with
  | done env => cases member
  | step performed rest ih =>
    rcases List.mem_cons.mp member with rfl | later
    · exact begins
    · exact ih (kept begins performed) later

theorem Run.sound_before (run : Run start steps env') (sound : start.Sound) (member : s ∈ steps) : s.before.Sound :=
  run.invariant Sound Sound.perform sound member

theorem Sound.policy_perform (sound : env.Sound) {op : Operation} {answer : Reply}
    (performed : env.perform op = some (answer, env')) : env'.policy = env.policy := by
  obtain ⟨base, prepared, ⟨-, rfl⟩ | ⟨id, -, -, -, rfl, -⟩⟩ := sound.perform_cases performed
  · exact prepared.policy
  · exact (prepared.sound sound).policy_committed.trans prepared.policy

theorem Run.policy_before (run : Run start steps env') (sound : start.Sound) (member : s ∈ steps) :
    s.before.policy = start.policy := by
  refine (run.invariant (fun env => env.Sound ∧ env.policy = start.policy) ?_ ⟨sound, rfl⟩ member).2
  intro env env' op answer kept performed
  exact ⟨kept.1.perform performed, (kept.1.policy_perform performed).trans kept.2⟩

theorem accepted_new : Lockfile.new.Accepted where
  version := rfl
  canonicalVersion := by decide
  room := by decide
  packages := nofun
  once := List.nodup_nil

theorem Sound.perform_staging (sound : env.Sound) (room : env.nextId ≠ U64_MAX) {lock : Lockfile}
    (accepted : lock.Accepted) (caps : CapabilitySnapshot) (activatedAt : Nat) :
    env.perform (.stage lock caps activatedAt) = some (.staged env.nextId, env.staged lock caps activatedAt) := by
  rw [Environment.perform, sound.stage_accepted accepted room]
  rfl

theorem Sound.perform_stagingWith (sound : env.Sound) (room : env.nextId ≠ U64_MAX) {lock : Lockfile}
    (accepted : lock.Accepted) (caps : CapabilitySnapshot) (activatedAt : Nat) (manifest : PackageManifest) :
    env.perform (.stageWithManifests lock caps activatedAt [manifest]) =
      some (.staged env.nextId, (env.registerManifest manifest).staged lock caps activatedAt) := by
  have registered : (env.registerManifest manifest).Sound := sound.registered _
  have staging := registered.stage_accepted accepted room caps activatedAt
  rw [Environment.perform, stageWithManifests, List.foldl_cons, List.foldl_nil, staging]
  rfl

theorem Sound.activatable_of_bare (sound : env.Sound) (bare : ∀ name, env.manifests name = none) {id : Nat}
    {g : Generation} (here : env.get id = some g) (hosts : HostVersions) : env.Activatable g hosts where
  integrity := sound.verified g (sound.get_iff.mp here).1
  compatible pkg _ := by rw [compatible, bare]

theorem perform_activatable {id : Nat} {g : Generation} {hosts : HostVersions} (here : env.get id = some g)
    (activatable : env.Activatable g hosts) : ∃ report : ActivationReport, report.succeeded = true ∧
      env.perform (.activate id hosts none) = some (.reported report, env.committed id) := by
  rcases env.activate_cases id hosts none with ⟨-, -, refused⟩ | ⟨⟨report, answer, succeeded, -⟩, kept, -⟩
  · exact absurd ⟨g, here, activatable, rfl⟩ refused
  · refine ⟨report, succeeded, ?_⟩
    rw [perform, reply, answer, kept]

theorem Sound.perform_activation (sound : env.Sound) (bare : ∀ name, env.manifests name = none) {id : Nat}
    (member : id ∈ env.ids) (hosts : HostVersions) :
    ∃ report : ActivationReport, report.succeeded = true ∧
      env.perform (.activate id hosts none) = some (.reported report, env.committed id) := by
  obtain ⟨g, here⟩ := sound.get_of_mem member
  exact perform_activatable here (sound.activatable_of_bare bare here hosts)

theorem Sound.perform_simulated (sound : env.Sound) {id : Nat} (member : id ∈ env.ids) (hosts : HostVersions)
    (phase : ActivationPhase) :
    ∃ report : ActivationReport, report.succeeded = false ∧
      env.perform (.activate id hosts (some phase)) = some (.reported report, env) := by
  obtain ⟨g, here⟩ := sound.get_of_mem member
  rcases env.activate_cases id hosts (some phase) with ⟨fails, kept, -⟩ | ⟨-, -, -, -, -, plain⟩
  · cases answer : (env.activate id hosts (some phase)).1 with
    | error e => simp [activate, here] at answer
    | ok report =>
      refine ⟨report, fails report answer, ?_⟩
      rw [Environment.perform, reply, answer, kept]
  · cases plain

theorem Sound.committed_within (sound : env.Sound) (within : env.excess = 0) (id : Nat) :
    env.committed id = { env with current := some id } := by
  rw [sound.committed_eq, pruned, within]
  simp [Environment.without]

end Environment

end Bitty.Package

namespace Bitty.Package

open Std Text Checks

theorem mem_take_iff_of_ascending {ids : List Nat} {p : Nat} (ascending : ids.Pairwise (· < ·)) (member : p ∈ ids)
    (n : Nat) : p ∈ ids.take n ↔ (ids.filter (· < p)).length < n := by
  induction ids generalizing n with
  | nil => cases member
  | cons q rest ih =>
    obtain ⟨first, later⟩ := List.pairwise_cons.mp ascending
    cases n with
    | zero => simp
    | succ n =>
      rw [List.take_succ_cons, List.mem_cons]
      by_cases here : p = q
      · subst here
        have none : rest.filter (· < p) = [] := by
          refine List.filter_eq_nil_iff.mpr fun a inRest => ?_
          have above := first a inRest
          simp only [decide_eq_true_eq]
          omega
        rw [List.filter_cons_of_neg (by simp), none]
        simp
      · have inRest : p ∈ rest := (List.mem_cons.mp member).resolve_left here
        have below := first p inRest
        rw [List.filter_cons_of_pos (by simpa using below), List.length_cons, or_iff_right here, ih later inRest]
        omega

namespace Environment

variable {env env' start : Environment} {op : Operation} {steps : List Step} {s : Step}

structure Step.TargetSurvives (s : Step) : Prop where
  retained : ∀ p, s.before.current = some p → s.after.current ≠ some p → p ∈ s.after.ids
  removed : ∀ q ∈ s.before.ids, q ∉ s.after.ids → s.after.current ≠ some q ∧ s.before.current ≠ some q

/-- The current generation is the requested one, or enough others are older for the pruning to stop before it. -/
def Spares (env : Environment) (op : Operation) : Prop :=
  ∀ p id, env.current = some p → env.requested op = some id →
    p = id ∨ env.generations.length + op.staging - env.policy.maxGenerations ≤
      (env.ids.filter fun q => q ≠ id ∧ q < p).length

theorem Sound.mem_committed_iff (sound : env.Sound) {id p : Nat} (member : p ∈ env.ids) :
    p ∈ (env.committed id).ids ↔ p = id ∨ env.excess ≤ (env.ids.filter fun q => q ≠ id ∧ q < p).length := by
  rw [sound.mem_committed, and_iff_right member]
  by_cases here : p = id
  · simp [here, not_mem_pruned]
  · have inside : p ∈ env.ids.filter (· ≠ id) := List.mem_filter.mpr ⟨member, decide_eq_true here⟩
    have older : (env.ids.filter (· ≠ id)).filter (· < p) = env.ids.filter fun q => q ≠ id ∧ q < p := by
      rw [List.filter_filter]
      exact List.filter_congr fun a _ => Bool.eq_iff_iff.mpr (by simp [and_comm])
    rw [pruned, mem_take_iff_of_ascending (sound.ascending.filter _) inside, older, Nat.not_lt, or_iff_right here]

theorem requested_others {base : Environment} {id : Nat} (same : base.ids = env.ids ++ List.replicate op.staging env.nextId)
    (wanted : env.requested op = some id) {p : Nat} :
    (base.ids.filter fun q => q ≠ id ∧ q < p) = env.ids.filter fun q => q ≠ id ∧ q < p := by
  have new : (List.replicate op.staging env.nextId).filter (fun q => decide (q ≠ id ∧ q < p)) = [] := by
    refine List.filter_eq_nil_iff.mpr fun q member => ?_
    cases op with
    | rollbackPerPlugin targetId pluginId =>
      have first : q = env.nextId := List.eq_of_mem_replicate member
      have second : env.nextId = id := Option.some.inj wanted
      simp [first, second]
    | _ => cases member
  rw [same, List.filter_append, new, List.append_nil]

theorem Sound.target_survives (sound : env.Sound) {answer : Reply} (performed : env.perform op = some (answer, env'))
    (succeeds : answer.Succeeds) : Step.TargetSurvives ⟨env, op, answer, env'⟩ ↔ env.Spares op := by
  obtain ⟨base, prepared, ⟨failed, -⟩ | ⟨id, wanted, member, -, rfl, same⟩⟩ := sound.perform_cases performed
  · exact absurd succeeds failed
  have whole := prepared.sound sound
  have surplus : base.excess = env.generations.length + op.staging - env.policy.maxGenerations := by
    rw [excess, prepared.policy, ← length_ids, same, List.length_append, List.length_replicate, length_ids]
  have kept {p : Nat} (here : env.current = some p) : p ∈ (base.committed id).ids ↔
      p = id ∨ env.generations.length + op.staging - env.policy.maxGenerations ≤
        (env.ids.filter fun q => q ≠ id ∧ q < p).length := by
    have inBase : p ∈ base.ids := same ▸ List.mem_append_left _ (sound.current p here)
    rw [whole.mem_committed_iff inBase, surplus, requested_others same wanted]
  have now : (base.committed id).current = some id := whole.current_committed
  have stays : id ∈ (base.committed id).ids := (whole.committed member).current id now
  constructor
  · intro survives p other here asked
    obtain rfl : id = other := Option.some.inj (wanted.symm.trans asked)
    refine (kept here).mp ?_
    by_cases current : (base.committed id).current = some p
    · exact (whole.committed member).current p current
    · exact survives.retained p here current
  · intro spares
    have survives (p : Nat) (here : env.current = some p) : p ∈ (base.committed id).ids :=
      (kept here).mpr (spares p id here wanted)
    refine ⟨fun p here _ => survives p here, fun q _ gone => ⟨?_, ?_⟩⟩
    · intro current
      obtain rfl : id = q := Option.some.inj (now.symm.trans current)
      exact gone stays
    · exact fun current => gone (survives q current)

theorem Sound.target_survives_of_failed (sound : env.Sound) {answer : Reply}
    (performed : env.perform op = some (answer, env')) (failed : ¬answer.Succeeds) :
    Step.TargetSurvives ⟨env, op, answer, env'⟩ := by
  obtain ⟨base, prepared, ⟨-, rfl⟩ | ⟨-, -, -, succeeds, -⟩⟩ := sound.perform_cases performed
  · have kept {q : Nat} (member : q ∈ env.ids) : q ∈ env'.ids := by
      obtain ⟨g, inside, rfl⟩ := mem_ids.mp member
      exact mem_ids.mpr ⟨g, prepared.kept inside, rfl⟩
    exact ⟨fun p here _ => kept (sound.current p here), fun q member gone => absurd (kept member) gone⟩
  · exact absurd succeeds failed

def narrow : Environment := ⟨none, [], fun _ => none, 1, ⟨2⟩⟩

def narrowFirst : Environment := { narrow.staged .new ∅ 0 with current := some 1 }

def narrowFull : Environment := (narrowFirst.staged .new ∅ 0).staged .new ∅ 0

theorem withPolicy_narrow : withPolicy ⟨2⟩ = .ok narrow := rfl

theorem narrow_first : ∃ steps, Run narrow steps narrowFirst := by
  have sound := sound_withPolicy withPolicy_narrow
  have staging := sound.perform_staging (by decide) accepted_new ∅ 0
  have sound₁ := sound.perform staging
  have inside : 1 ∈ (narrow.staged .new ∅ 0).ids := by decide
  obtain ⟨report, -, activation⟩ := sound₁.perform_activation (fun _ => rfl) inside rollbackHosts
  rw [sound₁.committed_within (by decide)] at activation
  exact ⟨_, .step staging (.step activation (.done narrowFirst))⟩

theorem narrow_full : ∃ steps, Run narrow steps narrowFull := by
  obtain ⟨steps, run⟩ := narrow_first
  have sound := run.sound (sound_withPolicy withPolicy_narrow)
  have staging := sound.perform_staging (by decide) accepted_new ∅ 0
  have sound₁ := sound.perform staging
  have inside : 2 ∈ (narrowFirst.staged .new ∅ 0).ids := by decide
  obtain ⟨report, -, failing⟩ := sound₁.perform_simulated inside rollbackHosts .wake
  have again := sound₁.perform_staging (by decide) accepted_new ∅ 0
  exact ⟨_, run.append (.step staging (.step failing (.step again (.done narrowFull))))⟩

theorem narrow_displaced : ∃ steps before op answer after, Run narrow (steps ++ [⟨before, op, answer, after⟩]) after ∧
    answer.Succeeds ∧ before.current = some 1 ∧ after.current = some 3 ∧ after.ids = [2, 3] ∧ ¬before.Spares op := by
  obtain ⟨steps, run⟩ := narrow_full
  have sound := run.sound (sound_withPolicy withPolicy_narrow)
  have inside : 3 ∈ narrowFull.ids := by decide
  obtain ⟨report, succeeded, activation⟩ := sound.perform_activation (fun _ => rfl) inside rollbackHosts
  refine ⟨steps, narrowFull, _, _, _, run.append (.step activation (.done _)), ⟨report, rfl, succeeded⟩, rfl,
    sound.current_committed, ?_, ?_⟩
  · rw [sound.committed_eq, ids_without]
    rfl
  · intro spares
    rcases spares 1 3 rfl rfl with same | few
    · cases same
    · revert few
      decide

/-- In every run the generation that was current outlives a successful operation exactly when its pruning spares it,
and every other operation. -/
theorem Run.target_survives_iff {policy : RetentionPolicy} (created : withPolicy policy = .ok start)
    (run : Run start steps env') (member : s ∈ steps) :
    (s.answer.Succeeds → (s.TargetSurvives ↔ s.before.Spares s.operation)) ∧
      (¬s.answer.Succeeds → s.TargetSurvives) := by
  have sound := run.sound_before (sound_withPolicy created) member
  exact ⟨sound.target_survives (run.performed member), sound.target_survives_of_failed (run.performed member)⟩

theorem Run.target_survives_iff_narrow : ∃ steps before op answer after,
    Run narrow (steps ++ [⟨before, op, answer, after⟩]) after ∧ answer.Succeeds ∧ ¬before.Spares op ∧
      ¬Step.TargetSurvives ⟨before, op, answer, after⟩ := by
  obtain ⟨steps, before, op, answer, after, run, succeeds, -, -, -, hurt⟩ := narrow_displaced
  have survives := (run.target_survives_iff withPolicy_narrow (List.mem_append_right _ List.mem_cons_self)).1 succeeds
  exact ⟨steps, before, op, answer, after, run, succeeds, hurt, fun kept => hurt (survives.mp kept)⟩

theorem Run.target_displaced : ¬∀ (policy : RetentionPolicy) (start env' : Environment) (steps : List Step),
    withPolicy policy = .ok start → 2 ≤ policy.maxGenerations → Run start steps env' →
      ∀ s ∈ steps, s.answer.Succeeds → s.TargetSurvives := by
  intro claimed
  obtain ⟨steps, before, op, answer, after, run, succeeds, first, third, ids, -⟩ := narrow_displaced
  have survives := claimed _ _ _ _ withPolicy_narrow (by decide) run _
    (List.mem_append_right _ List.mem_cons_self) succeeds
  have kept := survives.retained 1 first (by rw [third]; decide)
  rw [ids] at kept
  revert kept
  decide

end Environment

end Bitty.Package
