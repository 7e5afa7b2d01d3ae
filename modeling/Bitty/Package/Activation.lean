import Bitty.Package.Environment

namespace Bitty.Package

open Text Checks

theorem runPhase_toBool (phase : ActivationPhase) (simulated : Option ActivationPhase) (failed : Bool) :
    (runPhase phase simulated failed).toBool = (!failed && decide (simulated ≠ some phase)) := by
  refine Bool.eq_iff_iff.mpr (toBool_iff.trans ?_)
  simp [runPhase]

namespace Environment

variable {env env' : Environment} {g : Generation} {id : Nat} {hosts : HostVersions}
  {simulated : Option ActivationPhase}

/-- The generation passes its own check and the checks of its packages' manifests. -/
structure Activatable (env : Environment) (g : Generation) (hosts : HostVersions) : Prop where
  integrity : g.verifyIntegrity = .ok ()
  compatible : ∀ pkg ∈ g.lock.packages, env.compatible hosts pkg = .ok ()

theorem preflight_ok :
    env.preflight g hosts simulated = .ok () ↔ env.Activatable g hosts ∧ simulated ≠ some .preflight := by
  simp only [preflight, seq_ok, mapError_ok, refuseIf_ok, each_ok]
  constructor
  · rintro ⟨integrity, phase, compatible⟩
    exact ⟨⟨integrity, compatible⟩, phase⟩
  · rintro ⟨⟨integrity, compatible⟩, phase⟩
    exact ⟨integrity, phase, compatible⟩

def committed (env : Environment) (id : Nat) : Environment := ({ env with current := some id } : Environment).prune.2

theorem transact_cases (env : Environment) (g : Generation) (id : Nat) (hosts : HostVersions)
    (simulated : Option ActivationPhase) :
    (env.transact g id hosts simulated).1.generationId = id ∧
      (env.transact g id hosts simulated).1.previous = env.current ∧
      (((env.transact g id hosts simulated).1.succeeded = false ∧ (env.transact g id hosts simulated).2 = env ∧
          ¬(env.Activatable g hosts ∧ simulated = none)) ∨
        ((env.transact g id hosts simulated).1.succeeded = true ∧ env.Activatable g hosts ∧ simulated = none ∧
          (env.transact g id hosts simulated).2 = env.committed id)) := by
  have passed : (env.preflight g hosts simulated).toBool = true ↔ env.Activatable g hosts ∧ simulated ≠ some .preflight :=
    toBool_iff.trans preflight_ok
  cases checked : (env.preflight g hosts simulated).toBool with
  | false =>
    have refused : ¬(env.Activatable g hosts ∧ simulated = none) := by
      rintro ⟨activatable, rfl⟩
      rw [passed.mpr ⟨activatable, nofun⟩] at checked
      cases checked
    simp [transact, runPhase_toBool, checked, refused]
  | true =>
    obtain ⟨activatable, phase⟩ := passed.mp checked
    cases simulated with
    | none => simp [transact, runPhase_toBool, checked, activatable, committed]
    | some failing =>
      cases failing with
      | preflight => exact absurd rfl phase
      | quiesce => simp [transact, runPhase_toBool, checked]
      | commit => simp [transact, runPhase_toBool, checked]
      | wake => simp [transact, runPhase_toBool, checked]
      | confirm => simp [transact, runPhase_toBool, checked]

def Succeeds (answer : Except PackageError ActivationReport) (id : Nat) : Prop :=
  ∃ report, answer = .ok report ∧ report.succeeded = true ∧ report.generationId = id

def Fails (answer : Except PackageError ActivationReport) : Prop := ∀ report, answer = .ok report → report.succeeded = false

theorem Succeeds.not_fails {answer : Except PackageError ActivationReport} (succeeds : Succeeds answer id) :
    ¬Fails answer := by
  obtain ⟨report, rfl, succeeded, -⟩ := succeeds
  intro fails
  rw [fails report rfl] at succeeded
  cases succeeded

theorem activate_cases (env : Environment) (id : Nat) (hosts : HostVersions) (simulated : Option ActivationPhase) :
    (Fails (env.activate id hosts simulated).1 ∧ (env.activate id hosts simulated).2 = env ∧
        ¬∃ g, env.get id = some g ∧ env.Activatable g hosts ∧ simulated = none) ∨
      (Succeeds (env.activate id hosts simulated).1 id ∧ (env.activate id hosts simulated).2 = env.committed id ∧
        ∃ g, env.get id = some g ∧ env.Activatable g hosts ∧ simulated = none) := by
  unfold activate
  cases here : env.get id with
  | none => exact .inl ⟨nofun, rfl, nofun⟩
  | some g =>
    obtain ⟨named, -, ⟨failed, kept, refused⟩ | ⟨succeeded, activatable, plain, kept⟩⟩ :=
      env.transact_cases g id hosts simulated
    · refine .inl ⟨?_, kept, ?_⟩
      · rintro report same
        obtain rfl := Except.ok.inj same
        exact failed
      · rintro ⟨other, same, rest⟩
        obtain rfl := Option.some.inj same
        exact refused rest
    · exact .inr ⟨⟨_, rfl, succeeded, named⟩, kept, g, rfl, activatable, plain⟩

theorem rollbackFull_cases (env : Environment) (id : Nat) (simulated : Option ActivationPhase) :
    (Fails (env.rollbackFull id simulated).1 ∧ (env.rollbackFull id simulated).2 = env ∧
        ¬∃ g, env.get id = some g ∧ env.Activatable g rollbackHosts ∧ simulated = none) ∨
      (Succeeds (env.rollbackFull id simulated).1 id ∧ (env.rollbackFull id simulated).2 = env.committed id ∧
        ∃ g, env.get id = some g ∧ env.Activatable g rollbackHosts ∧ simulated = none) := by
  unfold rollbackFull
  cases here : env.get id with
  | none => exact .inl ⟨nofun, rfl, nofun⟩
  | some g =>
    dsimp only
    cases verified : g.verifyIntegrity with
    | error e =>
      refine .inl ⟨nofun, rfl, ?_⟩
      rintro ⟨other, same, activatable, -⟩
      obtain rfl := Option.some.inj same
      rw [activatable.integrity] at verified
      cases verified
    | ok u =>
      have cases := env.activate_cases id rollbackHosts simulated
      rwa [here] at cases

end Environment

end Bitty.Package

namespace Bitty.Package

namespace Environment

variable {env : Environment} {id : Nat} {g : Generation}

def excess (env : Environment) : Nat := env.generations.length - env.policy.maxGenerations

def without (env : Environment) (ids : List Nat) : Environment :=
  { env with generations := env.generations.filter fun g => g.id ∉ ids }

theorem ids_remove (env : Environment) (id : Nat) : (env.remove id).ids = env.ids.filter (· ≠ id) := by
  rw [ids, ids, List.filter_map]
  rfl

theorem length_ids (env : Environment) : env.ids.length = env.generations.length := List.length_map _

theorem others_remove (env : Environment) (id : Nat) : (env.remove id).others = env.others.filter (· ≠ id) := by
  rw [others, ids_remove, others, List.filter_filter, List.filter_filter]
  refine List.filter_congr fun a _ => Bool.and_comm _ _

theorem length_remove (once : env.ids.Nodup) (member : id ∈ env.ids) :
    (env.remove id).generations.length + 1 = env.generations.length := by
  have filtered : env.ids.filter (· ≠ id) = env.ids.erase id := by
    rw [once.erase_eq_filter]
    exact List.filter_congr fun a _ => Bool.eq_iff_iff.mpr (by simp)
  have positive := List.length_pos_of_mem member
  rw [← length_ids, ← length_ids, ids_remove, filtered, List.length_erase_of_mem member]
  omega

theorem pruneLoop_eq (rounds : Nat) (once : env.ids.Nodup) (enough : env.excess ≤ rounds) :
    pruneLoop rounds env = (env.others.take env.excess, env.without (env.others.take env.excess)) := by
  induction rounds generalizing env with
  | zero =>
    have within : env.excess = 0 := by omega
    simp [pruneLoop, within, without]
  | succ rounds ih =>
    unfold pruneLoop
    by_cases surplus : env.policy.maxGenerations < env.generations.length
    · rw [if_pos surplus]
      cases oldest : env.others with
      | nil => simp [without]
      | cons o rest =>
        have inOthers : o ∈ env.others := oldest ▸ List.mem_cons_self
        have member : o ∈ env.ids := List.mem_of_mem_filter inOthers
        have shorter := length_remove once member
        have fewer : env.excess = (env.remove o).excess + 1 := by
          unfold excess
          change _ = (env.remove o).generations.length - env.policy.maxGenerations + 1
          omega
        have tail : (env.remove o).others = rest := by
          have apart := once.filter (fun id => decide (some id ≠ env.current))
          change env.others.Nodup at apart
          rw [oldest, List.nodup_cons] at apart
          rw [others_remove, oldest, List.filter_cons_of_neg (by simp)]
          refine List.filter_eq_self.mpr fun a inRest => ?_
          simp only [ne_eq, decide_not, Bool.not_eq_true', decide_eq_false_iff_not]
          rintro rfl
          exact apart.1 inRest
        have again : (env.remove o).ids.Nodup := by
          rw [ids_remove]
          exact once.filter _
        have run := ih again (by omega)
        dsimp only [List.head?_cons]
        rw [run, tail, fewer, List.take_succ_cons]
        refine Prod.ext rfl ?_
        simp only [without, remove, List.filter_filter, List.mem_cons, not_or]
        congr 1
        exact List.filter_congr fun g _ => by simp [Bool.and_comm]
    · rw [if_neg surplus]
      have within : env.excess = 0 := by
        unfold excess
        omega
      simp [within, without]

theorem prune_eq (once : env.ids.Nodup) : env.prune.2 = env.without (env.others.take env.excess) := by
  have enough : env.excess ≤ env.generations.length := Nat.sub_le _ _
  rw [prune, pruneLoop_eq _ once enough]

theorem ids_without (env : Environment) (gone : List Nat) : (env.without gone).ids = env.ids.filter (· ∉ gone) := by
  rw [ids, ids, List.filter_map]
  rfl

theorem mem_ids : id ∈ env.ids ↔ ∃ g ∈ env.generations, g.id = id := List.mem_map

theorem mem_ids_without {gone : List Nat} : id ∈ (env.without gone).ids ↔ id ∈ env.ids ∧ id ∉ gone := by
  simp [ids_without]

end Environment

end Bitty.Package

namespace Bitty.Package

open Text Checks

namespace Environment

variable {env env' base : Environment} {id : Nat} {g : Generation}

structure Sound (env : Environment) : Prop where
  ascending : env.ids.Pairwise (· < ·)
  fresh : ∀ id ∈ env.ids, id < env.nextId
  verified : ∀ g ∈ env.generations, g.verifyIntegrity = .ok ()
  current : ∀ id, env.current = some id → id ∈ env.ids
  positive : 0 < env.policy.maxGenerations

theorem Sound.once (sound : env.Sound) : env.ids.Nodup := sound.ascending.imp Nat.ne_of_lt

theorem Sound.get_iff (sound : env.Sound) : env.get id = some g ↔ g ∈ env.generations ∧ g.id = id := by
  constructor
  · intro found
    exact ⟨List.mem_of_find?_eq_some found, by simpa using List.find?_some found⟩
  · rintro ⟨member, rfl⟩
    cases found : env.get g.id with
    | none =>
      have absent := List.find?_eq_none.mp found g member
      simp at absent
    | some h =>
      have same : h.id = g.id := by simpa using List.find?_some found
      exact congrArg some (List.inj_on_of_nodup_map sound.once (List.mem_of_find?_eq_some found) member same)

theorem Sound.get_of_mem (sound : env.Sound) (member : id ∈ env.ids) : ∃ g, env.get id = some g := by
  obtain ⟨g, inside, rfl⟩ := mem_ids.mp member
  exact ⟨g, sound.get_iff.mpr ⟨inside, rfl⟩⟩

theorem sound_withPolicy {policy : RetentionPolicy} (created : withPolicy policy = .ok env) : env.Sound := by
  simp only [withPolicy, seq_ok, RetentionPolicy.validate, refuseIf_ok, Except.ok.injEq] at created
  obtain ⟨⟨positive, -⟩, rfl⟩ := created
  refine ⟨List.Pairwise.nil, List.forall_mem_nil _, List.forall_mem_nil _, ?_, Nat.pos_of_ne_zero positive⟩
  rintro _ ⟨⟩

theorem Sound.without (sound : env.Sound) {gone : List Nat} (kept : ∀ id, env.current = some id → id ∉ gone) :
    (env.without gone).Sound where
  ascending := by
    rw [ids_without]
    exact sound.ascending.filter _
  fresh id member := sound.fresh id (mem_ids_without.mp member).1
  verified g member := sound.verified g (List.mem_of_mem_filter member)
  current id here := mem_ids_without.mpr ⟨sound.current id here, kept id here⟩
  positive := sound.positive

theorem Sound.pointed (sound : env.Sound) (member : id ∈ env.ids) : ({ env with current := some id } : Environment).Sound where
  ascending := sound.ascending
  fresh := sound.fresh
  verified := sound.verified
  current _ here := Option.some.inj here ▸ member
  positive := sound.positive

def pruned (env : Environment) (id : Nat) : List Nat := (env.ids.filter (· ≠ id)).take env.excess

theorem Sound.committed_eq (sound : env.Sound) :
    env.committed id = ({ env with current := some id } : Environment).without (env.pruned id) := by
  have others : ({ env with current := some id } : Environment).others = env.ids.filter (· ≠ id) :=
    List.filter_congr fun a _ => by simp
  have removed : ({ env with current := some id } : Environment).others.take
      ({ env with current := some id } : Environment).excess = env.pruned id := by
    rw [others]
    rfl
  have once : ({ env with current := some id } : Environment).ids.Nodup := sound.once
  rw [committed, prune_eq once, removed]

theorem not_mem_pruned : id ∉ env.pruned id := by
  intro member
  have other := (List.mem_filter.mp (List.mem_of_mem_take member)).2
  simp at other

theorem Sound.committed (sound : env.Sound) (member : id ∈ env.ids) : (env.committed id).Sound := by
  rw [sound.committed_eq]
  refine (sound.pointed member).without fun id' here => ?_
  obtain rfl := Option.some.inj here
  exact not_mem_pruned

theorem Sound.mem_committed (sound : env.Sound) {q : Nat} :
    q ∈ (env.committed id).ids ↔ q ∈ env.ids ∧ q ∉ env.pruned id := by
  rw [sound.committed_eq]
  exact mem_ids_without

theorem Sound.current_committed (sound : env.Sound) : (env.committed id).current = some id := by
  rw [sound.committed_eq]
  rfl

theorem Sound.nextId_committed (sound : env.Sound) : (env.committed id).nextId = env.nextId := by
  rw [sound.committed_eq]
  rfl

theorem Sound.manifests_committed (sound : env.Sound) : (env.committed id).manifests = env.manifests := by
  rw [sound.committed_eq]
  rfl

theorem Sound.policy_committed (sound : env.Sound) : (env.committed id).policy = env.policy := by
  rw [sound.committed_eq]
  rfl

theorem Sound.length_committed (sound : env.Sound) (member : id ∈ env.ids) :
    (env.committed id).generations.length ≤ env.policy.maxGenerations := by
  have apart : (env.ids.filter (· ≠ id)).length + 1 = env.ids.length := by
    have filtered : env.ids.filter (· ≠ id) = env.ids.erase id := by
      rw [sound.once.erase_eq_filter]
      exact List.filter_congr fun a _ => Bool.eq_iff_iff.mpr (by simp)
    have positive := List.length_pos_of_mem member
    rw [filtered, List.length_erase_of_mem member]
    omega
  have total : (env.pruned id).length = env.excess := by
    have room := sound.positive
    rw [pruned, List.length_take, excess, ← length_ids]
    omega
  have distinct : (env.pruned id).Nodup := (sound.once.filter _).sublist (List.take_sublist _ _)
  have inside : env.pruned id ⊆ env.ids := fun q inPruned => List.mem_of_mem_filter (List.mem_of_mem_take inPruned)
  have gone : (env.ids.filter (· ∈ env.pruned id)).length = (env.pruned id).length := by
    refine List.Perm.length_eq ?_
    refine (List.perm_ext_iff_of_nodup (sound.once.filter _) distinct).mpr fun q => ?_
    simp only [List.mem_filter, decide_eq_true_eq]
    exact ⟨And.right, fun inPruned => ⟨inside inPruned, inPruned⟩⟩
  have split := List.length_eq_length_filter_add (l := env.ids) (· ∈ env.pruned id)
  have kept : (env.committed id).ids = env.ids.filter (· ∉ env.pruned id) := by
    rw [sound.committed_eq]
    exact ids_without _ _
  have same : (env.ids.filter fun q => !decide (q ∈ env.pruned id)) = env.ids.filter (· ∉ env.pruned id) :=
    List.filter_congr fun a _ => by simp
  rw [same, ← kept, gone, total, length_ids, length_ids, excess] at split
  omega

def staged (env : Environment) (lock : Lockfile) (caps : CapabilitySnapshot) (activatedAt : Nat) : Environment :=
  { env with
    nextId := env.nextId + 1
    generations := env.generations ++ [⟨env.nextId, lock, computeGenerationRoot env.nextId lock caps activatedAt, caps,
      activatedAt, env.current⟩] }

theorem Sound.insert (sound : env.Sound) (g : Generation) (new : g.id = env.nextId) :
    (env.insert g).generations = env.generations ++ [g] := by
  have below : env.generations.filter (fun h => decide (h.id < g.id)) = env.generations := by
    refine List.filter_eq_self.mpr fun h member => ?_
    have fresh := sound.fresh h.id (mem_ids.mpr ⟨h, member, rfl⟩)
    exact decide_eq_true (by omega)
  have above : env.generations.filter (fun h => decide (g.id < h.id)) = [] := by
    refine List.filter_eq_nil_iff.mpr fun h member => ?_
    have fresh := sound.fresh h.id (mem_ids.mpr ⟨h, member, rfl⟩)
    simp only [decide_eq_true_eq]
    omega
  change env.generations.filter _ ++ g :: env.generations.filter _ = _
  rw [below, above]

variable {lock : Lockfile}

theorem Sound.stage_accepted (sound : env.Sound) (accepted : lock.Accepted)
    (room : env.nextId ≠ U64_MAX) (caps : CapabilitySnapshot) (activatedAt : Nat) :
    env.stage lock caps activatedAt = some (.ok env.nextId, env.staged lock caps activatedAt) := by
  rw [stage, Lockfile.validate_ok.mpr accepted]
  simp only [if_neg room]
  rw [Generation.new_accepted accepted, Environment.staged, ← sound.insert _ rfl]
  rfl

theorem Sound.stage_cases (sound : env.Sound) {caps : CapabilitySnapshot} {activatedAt : Nat}
    {answer : Except PackageError Nat} (run : env.stage lock caps activatedAt = some (answer, env')) :
    (∃ e, answer = .error e ∧ env' = env) ∨
      answer = .ok env.nextId ∧ lock.Accepted ∧ env' = env.staged lock caps activatedAt := by
  cases valid : lock.validate with
  | error e =>
    rw [stage, valid] at run
    obtain ⟨rfl, rfl⟩ := Prod.mk.inj (Option.some.inj run)
    exact .inl ⟨e, rfl, rfl⟩
  | ok u =>
    have accepted := Lockfile.validate_ok.mp valid
    by_cases full : env.nextId = U64_MAX
    · rw [stage, valid] at run
      simp [full] at run
    · obtain ⟨rfl, rfl⟩ := Prod.mk.inj (Option.some.inj ((sound.stage_accepted accepted full _ _).symm.trans run))
      exact .inr ⟨rfl, accepted, rfl⟩

theorem ids_staged {caps : CapabilitySnapshot} {activatedAt : Nat} :
    (env.staged lock caps activatedAt).ids = env.ids ++ [env.nextId] := by
  simp [ids, staged]

theorem Sound.staged (sound : env.Sound) (accepted : lock.Accepted) (caps : CapabilitySnapshot)
    (activatedAt : Nat) : (env.staged lock caps activatedAt).Sound where
  ascending := by
    rw [ids_staged]
    refine List.pairwise_append.mpr ⟨sound.ascending, List.pairwise_singleton _ _, fun a inIds b last => ?_⟩
    rw [List.mem_singleton.mp last]
    exact sound.fresh a inIds
  fresh id member := by
    rw [ids_staged] at member
    change id < env.nextId + 1
    rcases List.mem_append.mp member with old | new
    · exact Nat.lt_succ_of_lt (sound.fresh id old)
    · rw [List.mem_singleton.mp new]
      exact Nat.lt_succ_self _
  verified g member := by
    rcases List.mem_append.mp member with old | new
    · exact sound.verified g old
    · rw [List.mem_singleton.mp new]
      exact Generation.verifyIntegrity_ok.mpr ⟨rfl, accepted⟩
  current id here := by
    rw [ids_staged]
    exact List.mem_append_left _ (sound.current id here)
  positive := sound.positive

end Environment

end Bitty.Package
