import Bitty.Package.Canonical
import Bitty.Package.Survival

namespace Bitty.Package

def Operation.registers : Operation → List PackageManifest
  | .stageWithManifests _ _ _ manifests => manifests
  | .registerManifest manifest => [manifest]
  | _ => []

namespace Environment

variable {env env' : Environment} {op : Operation} {answer : Reply} {id : Nat} {g : Generation} {hosts : HostVersions}
  {steps : List Step} {s : Step}

def Activates (env : Environment) (id : Nat) (hosts : HostVersions) : Prop := Succeeds (env.activate id hosts none).1 id

def RollsBack (env : Environment) (id : Nat) : Prop := Succeeds (env.rollbackFull id none).1 id

def Accepts (env : Environment) (g : Generation) (hosts : HostVersions) : Prop :=
  ∀ pkg ∈ g.lock.packages, env.compatible hosts pkg = .ok ()

def Unmoved (env : Environment) (op : Operation) (g : Generation) : Prop :=
  ∀ hosts, (op.registers.foldl registerManifest env).Accepts g hosts ↔ env.Accepts g hosts

theorem Sound.activates_iff (sound : env.Sound) (found : env.get id = some g) :
    env.Activates id hosts ↔ env.Accepts g hosts := by
  have intact := sound.verified g (sound.get_iff.mp found).1
  rcases env.activate_cases id hosts none with ⟨fails, -, refused⟩ | ⟨succeeds, -, h, here, activatable, -⟩
  · exact ⟨fun succeeds => absurd fails succeeds.not_fails,
      fun accepts => absurd ⟨g, found, ⟨intact, accepts⟩, rfl⟩ refused⟩
  · obtain rfl := Option.some.inj (found.symm.trans here)
    exact ⟨fun _ => activatable.compatible, fun _ => succeeds⟩

theorem Sound.rollsBack_iff (sound : env.Sound) (found : env.get id = some g) :
    env.RollsBack id ↔ env.Accepts g rollbackHosts := by
  have intact := sound.verified g (sound.get_iff.mp found).1
  rcases env.rollbackFull_cases id none with ⟨fails, -, refused⟩ | ⟨succeeds, -, h, here, activatable, -⟩
  · exact ⟨fun succeeds => absurd fails succeeds.not_fails,
      fun accepts => absurd ⟨g, found, ⟨intact, accepts⟩, rfl⟩ refused⟩
  · obtain rfl := Option.some.inj (found.symm.trans here)
    exact ⟨fun _ => activatable.compatible, fun _ => succeeds⟩

theorem accepts_congr (same : env.manifests = env'.manifests) : env.Accepts g hosts ↔ env'.Accepts g hosts := by
  unfold Accepts compatible
  rw [same]

theorem manifests_staged (lock : Lockfile) (caps : CapabilitySnapshot) (activatedAt : Nat) :
    (env.staged lock caps activatedAt).manifests = env.manifests := rfl

theorem Sound.manifests_stage (sound : env.Sound) {lock : Lockfile} {caps : CapabilitySnapshot} {activatedAt : Nat}
    {outcome : Except PackageError Nat × Environment} (run : env.stage lock caps activatedAt = some outcome) :
    outcome.2.manifests = env.manifests := by
  rcases sound.stage_cases run with ⟨e, -, same⟩ | ⟨-, -, same⟩
  · rw [same]
  · rw [same, manifests_staged]

/-- The table of manifests changes only by what an operation registers. -/
theorem Sound.manifests_perform (sound : env.Sound) (performed : env.perform op = some (answer, env')) :
    env'.manifests = (op.registers.foldl registerManifest env).manifests := by
  cases op with
  | stage lock caps activatedAt =>
    obtain ⟨outcome, staging, same⟩ := Option.map_eq_some_iff.mp performed
    obtain ⟨rfl, rfl⟩ := Prod.mk.inj same
    exact sound.manifests_stage staging
  | stageWithManifests lock caps activatedAt manifests =>
    obtain ⟨outcome, staging, same⟩ := Option.map_eq_some_iff.mp performed
    obtain ⟨rfl, rfl⟩ := Prod.mk.inj same
    obtain ⟨table, registered⟩ := manifests_foldl manifests env
    rw [stageWithManifests, registered] at staging
    rw [Operation.registers, registered]
    exact (sound.registered table).manifests_stage staging
  | registerManifest manifest =>
    obtain ⟨rfl, rfl⟩ := Prod.mk.inj (Option.some.inj performed)
    rfl
  | activate id hosts simulated =>
    obtain ⟨rfl, rfl⟩ := Prod.mk.inj (Option.some.inj performed)
    rcases env.activate_cases id hosts simulated with ⟨-, kept, -⟩ | ⟨-, kept, -⟩
    · exact congrArg Environment.manifests kept
    · exact (congrArg Environment.manifests kept).trans sound.manifests_committed
  | rollbackFull id simulated =>
    obtain ⟨rfl, rfl⟩ := Prod.mk.inj (Option.some.inj performed)
    rcases env.rollbackFull_cases id simulated with ⟨-, kept, -⟩ | ⟨-, kept, -⟩
    · exact congrArg Environment.manifests kept
    · exact (congrArg Environment.manifests kept).trans sound.manifests_committed
  | rollbackPerPlugin targetId pluginId =>
    obtain ⟨outcome, run, same⟩ := Option.map_eq_some_iff.mp performed
    obtain ⟨rfl, rfl⟩ := Prod.mk.inj same
    change outcome.2.manifests = env.manifests
    rcases sound.rollbackPerPlugin_cases run with
      ⟨-, kept⟩ | ⟨target, pkg, current, lock, -, accepted, base, rfl, ⟨-, kept⟩ | ⟨-, kept⟩⟩
    · rw [kept]
    · rw [kept, manifests_staged]
    · have whole := sound.staged accepted
        (mergedSnapshot pluginId target.capabilitySnapshot current.capabilitySnapshot) (target.activatedAt + 1)
      rw [kept, whole.manifests_committed, manifests_staged]

theorem Sound.accepts_perform (sound : env.Sound) (performed : env.perform op = some (answer, env')) :
    (∀ hosts, env'.Accepts g hosts ↔ env.Accepts g hosts) ↔ env.Unmoved op g := by
  have same := sound.manifests_perform performed
  exact forall_congr' fun hosts => iff_congr (accepts_congr same) Iff.rfl

theorem Run.accepts_iff (run : Run env steps env') (sound : env.Sound) :
    (∀ s ∈ steps, ∀ hosts, s.after.Accepts g hosts ↔ env.Accepts g hosts) ↔
      ∀ s ∈ steps, s.before.Unmoved s.operation g := by
  induction run with
  | done env => simp
  | step performed rest ih =>
    have again := ih (sound.perform performed)
    have first := sound.accepts_perform (g := g) performed
    constructor
    · intro kept s member
      have here := kept _ List.mem_cons_self
      rcases List.mem_cons.mp member with rfl | later
      · exact first.mp here
      · refine again.mp (fun s later hosts => ?_) s later
        exact (kept s (List.mem_cons_of_mem _ later) hosts).trans (here hosts).symm
    · intro unmoved s member hosts
      have here := first.mpr (unmoved _ List.mem_cons_self)
      rcases List.mem_cons.mp member with rfl | later
      · exact here hosts
      · have rest := again.mpr fun s later => unmoved s (List.mem_cons_of_mem _ later)
        exact (rest s later hosts).trans (here hosts)

structure Owned (env : Environment) (steps : List Step) (id : Nat) : Prop where
  verdict : ∀ s ∈ steps, ∀ hosts, s.after.Activates id hosts ↔ env.Activates id hosts
  rollback : ∀ hosts, env.Activates id hosts → env.RollsBack id ∧ ∀ s ∈ steps, s.after.RollsBack id

def themeManifest (bitty : String) : PackageManifest where
  identity := ⟨⟨"xuepoo.theme".toList, valid_theme⟩, "Theme".toList, "1.0.0".toList, "Colours".toList, none⟩
  compat := ⟨some bitty.toList, some "^1.0".toList⟩
  dependencies := []
  capabilities := []
  rawBytesLen := 0
  undeclaredFields := []

def themeLock : Lockfile := { Lockfile.new with packages := [Generation.sampleTheme "https://a.example"] }

theorem accepted_themeLock : themeLock.Accepted := Lockfile.validate_ok.mp (by decide)

def themeGeneration : Generation := ⟨1, themeLock, computeGenerationRoot 1 themeLock ∅ 0, ∅, 0, none⟩

def roomy : Environment := ⟨none, [], fun _ => none, 1, ⟨3⟩⟩

theorem withPolicy_roomy : withPolicy ⟨3⟩ = .ok roomy := rfl

def themed : Environment :=
  { (roomy.registerManifest (themeManifest "^0.6")).staged themeLock ∅ 0 with current := some 1 }

def upgraded : Environment := (themed.registerManifest (themeManifest "^0.7")).staged themeLock ∅ 0

theorem accepts_themed : themed.Accepts themeGeneration rollbackHosts := by
  intro pkg member
  obtain rfl := List.mem_singleton.mp member
  decide

theorem not_accepts_upgraded : ¬upgraded.Accepts themeGeneration rollbackHosts := by
  intro accepts
  have checked := accepts _ (List.mem_singleton_self _)
  revert checked
  decide

theorem reachable_themed : Reachable themed := by
  have sound := sound_withPolicy withPolicy_roomy
  have staging := sound.perform_stagingWith (by decide) accepted_themeLock ∅ 0 (themeManifest "^0.6")
  have sound₁ := sound.perform staging
  have here : ((roomy.registerManifest (themeManifest "^0.6")).staged themeLock ∅ 0).get 1 = some themeGeneration := rfl
  have intact := sound₁.verified themeGeneration (sound₁.get_iff.mp here).1
  obtain ⟨report, -, activation⟩ := perform_activatable here ⟨intact, accepts_themed⟩
  rw [sound₁.committed_within (by decide)] at activation
  exact .next (.next (.start withPolicy_roomy) staging) activation

theorem get_themed : themed.get 1 = some themeGeneration := rfl

theorem get_upgraded : upgraded.get 1 = some themeGeneration := rfl

theorem run_themed : ∃ step, step.after = upgraded ∧ Run themed [step] upgraded ∧
    ∀ s ∈ [step], s.after.get 1 = some themeGeneration := by
  have staging := reachable_themed.sound.perform_stagingWith (by decide) accepted_themeLock ∅ 0 (themeManifest "^0.7")
  refine ⟨_, rfl, .step staging (.done upgraded), fun s member => ?_⟩
  rw [List.mem_singleton.mp member]
  exact get_upgraded

/-- In every run the verdict on a retained generation is its own exactly when no operation registers manifests that move
what is accepted for its packages, and the hosts that a rollback assumes are accepted when any are. -/
theorem Run.owned_iff (reached : Reachable env) (run : Run env steps env') (found : env.get id = some g)
    (retained : ∀ s ∈ steps, s.after.get id = some g) :
    Owned env steps id ↔ (∀ s ∈ steps, s.before.Unmoved s.operation g) ∧
      ∀ hosts, env.Accepts g hosts → env.Accepts g rollbackHosts := by
  have sound := reached.sound
  have later (s : Step) (member : s ∈ steps) : s.after.Sound :=
    (run.sound_before sound member).perform (run.performed member)
  have moves := run.accepts_iff (g := g) sound
  constructor
  · intro owned
    refine ⟨moves.mp fun s member hosts => ?_, fun hosts accepts => ?_⟩
    · rw [← (later s member).activates_iff (retained s member), ← sound.activates_iff found]
      exact owned.verdict s member hosts
    · exact (sound.rollsBack_iff found).mp (owned.rollback hosts ((sound.activates_iff found).mpr accepts)).1
  · rintro ⟨unmoved, assumed⟩
    have same := moves.mpr unmoved
    refine ⟨fun s member hosts => ?_, fun hosts activates => ?_⟩
    · rw [(later s member).activates_iff (retained s member), sound.activates_iff found]
      exact same s member hosts
    · have accepts := assumed hosts ((sound.activates_iff found).mp activates)
      refine ⟨(sound.rollsBack_iff found).mpr accepts, fun s member => ?_⟩
      exact ((later s member).rollsBack_iff (retained s member)).mpr ((same s member _).mpr accepts)

theorem Run.owned_iff_themed : ∃ steps, Run themed steps upgraded ∧ ¬Owned themed steps 1 := by
  obtain ⟨step, after, run, retained⟩ := run_themed
  refine ⟨_, run, fun owned => not_accepts_upgraded ?_⟩
  have unmoved := ((run.owned_iff reachable_themed get_themed retained).mp owned).1
  have accepted := (run.accepts_iff reachable_themed.sound).mpr unmoved step List.mem_cons_self rollbackHosts
  rw [after] at accepted
  exact accepted.mpr accepts_themed

/-- A later release that is only staged takes the verdict of the current generation away. -/
theorem Run.verdict_moved : ¬∀ (env env' : Environment) (steps : List Step) (id : Nat) (g : Generation),
    Reachable env → Run env steps env' → env.get id = some g → (∀ s ∈ steps, s.after.get id = some g) →
      Owned env steps id := by
  intro claimed
  obtain ⟨step, after, run, retained⟩ := run_themed
  have owned := claimed _ _ _ 1 themeGeneration reachable_themed run get_themed retained
  have activates := (reachable_themed.sound.activates_iff get_themed).mpr accepts_themed
  have still := (owned.verdict step List.mem_cons_self rollbackHosts).mpr activates
  rw [after] at still
  exact not_accepts_upgraded (((run.sound reachable_themed.sound).activates_iff get_upgraded).mp still)

end Environment

end Bitty.Package
