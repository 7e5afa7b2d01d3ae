import Bitty.Package.Canonical
import Bitty.Package.Survival

namespace Bitty.Package

namespace Environment

variable {env env' base start : Environment} {op : Operation} {answer : Reply} {id : Nat} {g : Generation}
  {steps : List Step} {s : Step}

def Standing (env : Environment) : Prop :=
  ∀ id, env.current = some id → ∃ g, env.get id = some g ∧ g.verifyIntegrity = .ok ()

def Step.newIds (s : Step) : List Nat := s.after.ids.filter (· ∉ s.before.ids)

structure Step.RolledBack (s : Step) (targetId : Nat) (pluginId : Text) (target current new : Generation) : Prop where
  atTarget : s.before.get targetId = some target
  atCurrent : ∃ id, s.before.current = some id ∧ s.before.get id = some current
  atNew : s.after.current = some new.id ∧ s.after.get new.id = some new
  fresh : new.id ∉ s.before.ids
  merged : Merged pluginId current target new

structure Step.AllOrNothing (policy : RetentionPolicy) (s : Step) : Prop where
  standing : s.after.Standing
  failed : s.answer.Fails →
    s.after.current = s.before.current ∧ ∀ id g, s.before.get id = some g → s.after.get id = some g
  succeeded : s.answer.Succeeds → (∃ id, s.before.requested s.operation = some id ∧ s.after.current = some id) ∧
    s.after.generations.length ≤ policy.maxGenerations
  rolledBack : ∀ targetId pluginId, s.operation = .rollbackPerPlugin targetId pluginId → s.answer.Succeeds →
    ∃ target current new, s.RolledBack targetId pluginId target current new

theorem Sound.standing (sound : env.Sound) : env.Standing := by
  intro id here
  obtain ⟨g, found⟩ := sound.get_of_mem (sound.current id here)
  exact ⟨g, found, sound.verified g (sound.get_iff.mp found).1⟩

theorem Prepared.get (prepared : env.Prepared base) (sound : env.Sound) (found : env.get id = some g) :
    base.get id = some g := by
  obtain ⟨member, same⟩ := sound.get_iff.mp found
  exact (prepared.sound sound).get_iff.mpr ⟨prepared.kept member, same⟩

theorem Sound.get_committed (sound : env.Sound) (found : env.get id = some g) : (env.committed id).get id = some g := by
  obtain ⟨member, same⟩ := sound.get_iff.mp found
  have inIds : id ∈ env.ids := mem_ids.mpr ⟨g, member, same⟩
  refine (sound.committed inIds).get_iff.mpr ⟨?_, same⟩
  rw [sound.committed_eq]
  exact List.mem_filter.mpr ⟨member, decide_eq_true (same ▸ not_mem_pruned)⟩

variable {targetId : Nat} {pluginId : Text}

theorem Sound.merged (sound : env.Sound) {target current new : Generation}
    {pkg : LockedPackage} {lock : Lockfile} (merges : env.Merges targetId pluginId target pkg current lock)
    (locked : new.lock = lock)
    (granted : new.capabilitySnapshot = mergedSnapshot pluginId target.capabilitySnapshot current.capabilitySnapshot) :
    Merged pluginId current target new := by
  have named : pkg.id.asStr = pluginId := by simpa using List.find?_some merges.inTarget
  obtain ⟨version, canonicalVersion, entry, entries⟩ := mergedLock_ok named merges.merged
  obtain ⟨c, -, atCurrent⟩ := merges.atCurrent
  have accepted := (Generation.verifyIntegrity_ok.mp (sound.verified current (sound.get_iff.mp atCurrent).1)).2
  refine ⟨locked ▸ entries, ?_, ?_, locked ▸ canonicalVersion, fun name apart => ?_, ?_⟩
  · rw [locked, entry, merges.inTarget]
  · rw [locked, version, accepted.version]
  · rw [granted]
    exact mergedSnapshot_other apart _ _
  · rw [granted]
    exact mergedSnapshot_self _ _ _

theorem Sound.rolledBack (sound : env.Sound)
    (performed : env.perform (.rollbackPerPlugin targetId pluginId) = some (answer, env')) (succeeds : answer.Succeeds) :
    ∃ target current new,
      Step.RolledBack ⟨env, .rollbackPerPlugin targetId pluginId, answer, env'⟩ targetId pluginId target current new := by
  obtain ⟨outcome, run, same⟩ := Option.map_eq_some_iff.mp performed
  obtain ⟨rfl, rfl⟩ := Prod.mk.inj same
  rcases sound.rollbackPerPlugin_cases run with
    ⟨fails, -⟩ | ⟨target, pkg, current, lock, merges, accepted, base, rfl, ⟨fails, -⟩ | ⟨-, kept⟩⟩
  · exact absurd (reply_fails.mpr fails) succeeds.not_fails
  · exact absurd (reply_fails.mpr fails) succeeds.not_fails
  have whole := sound.staged accepted (mergedSnapshot pluginId target.capabilitySnapshot current.capabilitySnapshot)
    (target.activatedAt + 1)
  have found := whole.get_iff.mpr ⟨List.mem_append_right _ (List.mem_singleton_self _), rfl⟩
  have last := whole.get_committed found
  rw [← kept] at last
  refine ⟨target, current, _, merges.atTarget, merges.atCurrent, ⟨?_, last⟩, ?_, ?_⟩
  · rw [kept]
    exact whole.current_committed
  · exact fun old => Nat.lt_irrefl _ (sound.fresh _ old)
  · exact sound.merged merges rfl rfl

theorem Sound.allOrNone (sound : env.Sound) (performed : env.perform op = some (answer, env')) :
    Step.AllOrNothing env.policy ⟨env, op, answer, env'⟩ where
  standing := (sound.perform performed).standing
  failed fails := by
    obtain ⟨base, prepared, ⟨-, rfl⟩ | ⟨-, -, -, succeeds, -⟩⟩ := sound.perform_cases performed
    · exact ⟨prepared.current, fun id g found => prepared.get sound found⟩
    · exact absurd fails succeeds.not_fails
  succeeded succeeds := by
    obtain ⟨base, prepared, ⟨failed, -⟩ | ⟨id, wanted, member, -, rfl, -⟩⟩ := sound.perform_cases performed
    · exact absurd succeeds failed
    · have whole := prepared.sound sound
      exact ⟨⟨id, wanted, whole.current_committed⟩, prepared.policy ▸ whole.length_committed member⟩
  rolledBack targetId pluginId asked succeeds := by
    obtain rfl : op = .rollbackPerPlugin targetId pluginId := asked
    exact sound.rolledBack performed succeeds

theorem Prepared.ids (prepared : env.Prepared base) :
    base.ids = env.ids ∧ base.nextId = env.nextId ∨
      base.ids = env.ids ++ [env.nextId] ∧ base.nextId = env.nextId + 1 := by
  cases prepared with
  | plain => exact .inl ⟨rfl, rfl⟩
  | registered manifests => exact .inl ⟨rfl, rfl⟩
  | staged accepted manifests caps activatedAt => exact .inr ⟨ids_staged, rfl⟩

theorem Sound.newIds (sound : env.Sound) (performed : env.perform op = some (answer, env')) :
    env.nextId ≤ env'.nextId ∧ (Step.newIds ⟨env, op, answer, env'⟩).Pairwise (· < ·) ∧
      ∀ id ∈ Step.newIds ⟨env, op, answer, env'⟩, env.nextId ≤ id ∧ id < env'.nextId := by
  have whole := sound.perform performed
  have added : ∃ base, env.Prepared base ∧ env'.ids ⊆ base.ids ∧ env'.nextId = base.nextId := by
    obtain ⟨base, prepared, ⟨-, rfl⟩ | ⟨id, -, -, -, rfl, -⟩⟩ := sound.perform_cases performed
    · exact ⟨env', prepared, List.Subset.refl _, rfl⟩
    · have sound := prepared.sound sound
      exact ⟨base, prepared, fun q member => (sound.mem_committed.mp member).1, sound.nextId_committed⟩
  obtain ⟨base, prepared, inside, counter⟩ := added
  refine ⟨?_, whole.ascending.filter _, fun id new => ⟨?_, ?_⟩⟩
  · rcases prepared.ids with ⟨-, next⟩ | ⟨-, next⟩
    · omega
    · omega
  · have here := inside (List.mem_of_mem_filter new)
    have absent : id ∉ env.ids := by simpa using (List.mem_filter.mp new).2
    rcases prepared.ids with ⟨same, -⟩ | ⟨same, -⟩
    · exact absurd (same ▸ here) absent
    · rw [same] at here
      have last : id = env.nextId := by simpa [absent] using here
      omega
  · exact whole.fresh id (List.mem_of_mem_filter new)

theorem Run.newIds (run : Run start steps env') (sound : start.Sound) :
    (steps.flatMap Step.newIds).Pairwise (· < ·) ∧ ∀ id ∈ steps.flatMap Step.newIds, start.nextId ≤ id := by
  induction run with
  | done env => exact ⟨List.Pairwise.nil, nofun⟩
  | step performed rest ih =>
    obtain ⟨grows, ascending, between⟩ := sound.newIds performed
    obtain ⟨later, above⟩ := ih (sound.perform performed)
    rw [List.flatMap_cons]
    refine ⟨List.pairwise_append.mpr ⟨ascending, later, fun a first b second => ?_⟩, fun id member => ?_⟩
    · have below := (between a first).2
      have next := above b second
      omega
    · rcases List.mem_append.mp member with first | second
      · exact (between id first).1
      · have next := above id second
        omega

theorem Sound.perform_rollback (sound : env.Sound) (bare : ∀ name, env.manifests name = none)
    (room : env.nextId ≠ U64_MAX) {target current : Generation} {pkg : LockedPackage}
    {lock : Lockfile} (merges : env.Merges targetId pluginId target pkg current lock) (accepted : lock.Accepted)
    (time : target.activatedAt ≠ U64_MAX) : ∃ (report : ActivationReport) (env' : Environment), report.succeeded = true ∧
      env.perform (.rollbackPerPlugin targetId pluginId) = some (.reported report, env') := by
  obtain ⟨c, isCurrent, atCurrent⟩ := merges.atCurrent
  have intact := sound.verified target (sound.get_iff.mp merges.atTarget).1
  have sources : env.rollbackSources targetId pluginId = .ok (target, pkg, current) := by
    simp [rollbackSources, merges.atTarget, intact, merges.inTarget, isCurrent, atCurrent]
  have staging := sound.stage_accepted accepted room
    (mergedSnapshot pluginId target.capabilitySnapshot current.capabilitySnapshot) (target.activatedAt + 1)
  have whole := sound.staged accepted
    (mergedSnapshot pluginId target.capabilitySnapshot current.capabilitySnapshot) (target.activatedAt + 1)
  have last : env.nextId ∈ (env.staged lock (mergedSnapshot pluginId target.capabilitySnapshot
      current.capabilitySnapshot) (target.activatedAt + 1)).ids := by
    rw [ids_staged]
    exact List.mem_append_right _ (List.mem_singleton_self _)
  obtain ⟨report, succeeded, activation⟩ := whole.perform_activation bare last rollbackHosts
  refine ⟨report, _, succeeded, Eq.trans ?_ activation⟩
  simp only [Environment.perform, rollbackPerPlugin, sources, merges.merged, if_neg time, staging, Option.map_some]

def ample : Environment := ⟨none, [], fun _ => none, 1, ⟨3⟩⟩

theorem withPolicy_ample : withPolicy ⟨3⟩ = .ok ample := rfl

def relabelled : Lockfile := ⟨LOCKFILE_VERSION, [Generation.sampleDep], "bitty-manifest-v2".toList⟩

theorem accepted_relabelled : relabelled.Accepted := Lockfile.validate_ok.mp (by decide)

def relabelledFirst : Environment := { ample.staged relabelled ∅ 0 with current := some 1 }

theorem relabelled_first : ∃ steps, Run ample steps relabelledFirst := by
  have sound := sound_withPolicy withPolicy_ample
  have staging := sound.perform_staging (by decide) accepted_relabelled ∅ 0
  have sound₁ := sound.perform staging
  have inside : 1 ∈ (ample.staged relabelled ∅ 0).ids := by decide
  obtain ⟨report, -, activation⟩ := sound₁.perform_activation (fun _ => rfl) inside rollbackHosts
  rw [sound₁.committed_within (by decide)] at activation
  exact ⟨_, .step staging (.step activation (.done relabelledFirst))⟩

def relabelledGeneration : Generation := ⟨1, relabelled, computeGenerationRoot 1 relabelled ∅ 0, ∅, 0, none⟩

theorem relabelled_rolledBack : ∃ steps targetId pluginId answer after,
    Run ample (steps ++ [⟨relabelledFirst, .rollbackPerPlugin targetId pluginId, answer, after⟩]) after ∧ answer.Succeeds := by
  obtain ⟨steps, run⟩ := relabelled_first
  have sound := run.sound (sound_withPolicy withPolicy_ample)
  have merges : relabelledFirst.Merges 1 Generation.sampleDep.id.asStr relabelledGeneration Generation.sampleDep
      relabelledGeneration { Lockfile.new with packages := [Generation.sampleDep] } :=
    ⟨rfl, by decide, ⟨1, rfl, rfl⟩, by decide⟩
  obtain ⟨report, after, succeeded, rollback⟩ := sound.perform_rollback (fun _ => rfl) (by decide) merges
    (Lockfile.validate_ok.mp (by decide)) (by decide)
  exact ⟨steps, 1, _, _, after, run.append (.step rollback (.done after)), report, rfl, succeeded⟩

/-- In every run each operation is all or nothing, and no identifier is used again. -/
theorem Run.allOrNothing {policy : RetentionPolicy} (created : withPolicy policy = .ok start) (run : Run start steps env') :
    (∀ s ∈ steps, s.AllOrNothing policy) ∧ env'.Standing ∧ (steps.flatMap Step.newIds).Pairwise (· < ·) := by
  have sound := sound_withPolicy created
  have same : start.policy = policy := by
    simp only [withPolicy, Checks.seq_ok, Except.ok.injEq] at created
    rw [← created.2]
  refine ⟨fun s member => ?_, (run.sound sound).standing, (run.newIds sound).1⟩
  have whole := (run.sound_before sound member).allOrNone (run.performed member)
  rwa [run.policy_before sound member, same] at whole

theorem Run.allOrNothing_relabelled : ∃ steps s after, Run ample (steps ++ [s]) after ∧ s.answer.Succeeds ∧
    s.AllOrNothing ⟨3⟩ ∧ after.Standing := by
  obtain ⟨steps, targetId, pluginId, answer, after, run, succeeds⟩ := relabelled_rolledBack
  obtain ⟨whole, standing, -⟩ := run.allOrNothing withPolicy_ample
  exact ⟨steps, _, after, run, succeeds, whole _ (List.mem_append_right _ List.mem_cons_self), standing⟩

/-- A rollback of one package does not keep the canonical form of the current lockfile. -/
theorem Run.canonicalVersion_lost : ¬∀ (policy : RetentionPolicy) (start env' : Environment) (steps : List Step),
    withPolicy policy = .ok start → Run start steps env' → ∀ s ∈ steps, ∀ targetId pluginId,
      s.operation = .rollbackPerPlugin targetId pluginId → s.answer.Succeeds →
        ∃ target current new, s.RolledBack targetId pluginId target current new ∧
          new.lock.canonicalVersion = current.lock.canonicalVersion := by
  intro claimed
  obtain ⟨steps, targetId, pluginId, answer, after, run, succeeds⟩ := relabelled_rolledBack
  obtain ⟨target, current, new, rolledBack, same⟩ := claimed _ _ _ _ withPolicy_ample run _
    (List.mem_append_right _ List.mem_cons_self) targetId pluginId rfl succeeds
  obtain ⟨id, isCurrent, atCurrent⟩ := rolledBack.atCurrent
  obtain rfl : 1 = id := Option.some.inj isCurrent
  obtain rfl : relabelledGeneration = current := Option.some.inj atCurrent
  rw [rolledBack.merged.canonicalVersion] at same
  revert same
  decide

end Environment

end Bitty.Package
