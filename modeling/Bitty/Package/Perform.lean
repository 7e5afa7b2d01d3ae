import Bitty.Library.Mutation
import Bitty.Package.Activation

namespace Bitty.Package

open Std Text Checks

def Reply.Fails : Reply → Prop
  | .refused _ => True
  | .reported report => report.succeeded = false
  | _ => False

def Reply.Succeeds (answer : Reply) : Prop := ∃ report, answer = .reported report ∧ report.succeeded = true

theorem Reply.Succeeds.not_fails {answer : Reply} (succeeds : answer.Succeeds) : ¬answer.Fails := by
  obtain ⟨report, rfl, succeeded⟩ := succeeds
  intro failed
  exact Bool.false_ne_true (failed.symm.trans succeeded)

def Operation.staging : Operation → Nat
  | .rollbackPerPlugin _ _ => 1
  | _ => 0

namespace Environment

variable {env env' base : Environment} {id : Nat} {g : Generation} {op : Operation} {answer : Reply}

/-- The generation that an operation asks to make current; a rollback of one package stages its own. -/
def requested (env : Environment) : Operation → Option Nat
  | .activate id _ _ => some id
  | .rollbackFull id _ => some id
  | .rollbackPerPlugin _ _ => some env.nextId
  | _ => none

/-- What an operation does before it makes a generation current: manifests are registered, a generation is staged. -/
inductive Prepared (env : Environment) : Environment → Prop
  | plain : Prepared env env
  | registered (manifests : Text → Option PackageManifest) : Prepared env { env with manifests }
  | staged {lock : Lockfile} (accepted : lock.Accepted) (manifests : Text → Option PackageManifest)
      (caps : CapabilitySnapshot) (activatedAt : Nat) :
      Prepared env (({ env with manifests } : Environment).staged lock caps activatedAt)

theorem Sound.registered (sound : env.Sound) (manifests : Text → Option PackageManifest) :
    ({ env with manifests } : Environment).Sound :=
  ⟨sound.ascending, sound.fresh, sound.verified, sound.current, sound.positive⟩

theorem Prepared.sound (prepared : env.Prepared base) (sound : env.Sound) : base.Sound := by
  cases prepared with
  | plain => exact sound
  | registered manifests => exact sound.registered manifests
  | staged accepted manifests caps activatedAt => exact (sound.registered manifests).staged accepted caps activatedAt

theorem Prepared.current (prepared : env.Prepared base) : base.current = env.current := by
  cases prepared <;> rfl

theorem Prepared.policy (prepared : env.Prepared base) : base.policy = env.policy := by
  cases prepared <;> rfl

theorem Prepared.kept (prepared : env.Prepared base) : env.generations ⊆ base.generations := by
  cases prepared with
  | plain => exact List.Subset.refl _
  | registered manifests => exact List.Subset.refl _
  | staged accepted manifests caps activatedAt => exact List.subset_append_left _ _

theorem manifests_foldl (manifests : List PackageManifest) (env : Environment) :
    ∃ table, manifests.foldl registerManifest env = { env with manifests := table } := by
  induction manifests generalizing env with
  | nil => exact ⟨env.manifests, rfl⟩
  | cons m rest ih =>
    obtain ⟨table, same⟩ := ih (env.registerManifest m)
    exact ⟨table, same⟩

theorem reply_fails {outcome : Except PackageError ActivationReport × Environment} :
    (reply .reported outcome).1.Fails ↔ Fails outcome.1 := by
  unfold reply
  cases outcome.1 with
  | error e => exact ⟨fun _ => nofun, fun _ => trivial⟩
  | ok report =>
    constructor
    · intro failed other same
      obtain rfl := Except.ok.inj same
      exact failed
    · exact fun fails => fails report rfl

theorem reply_succeeds {outcome : Except PackageError ActivationReport × Environment} {id : Nat}
    (succeeds : Succeeds outcome.1 id) : (reply .reported outcome).1.Succeeds := by
  obtain ⟨report, same, succeeded, -⟩ := succeeds
  unfold reply
  rw [same]
  exact ⟨report, rfl, succeeded⟩

theorem reply_staged (outcome : Except PackageError Nat × Environment) : ¬(reply .staged outcome).1.Succeeds := by
  rintro ⟨report, same, -⟩
  unfold reply at same
  cases here : outcome.1 with
  | error e =>
    rw [here] at same
    cases same
  | ok id =>
    rw [here] at same
    cases same

structure Merges (env : Environment) (targetId : Nat) (pluginId : Text) (target : Generation) (pkg : LockedPackage)
    (current : Generation) (lock : Lockfile) : Prop where
  atTarget : env.get targetId = some target
  inTarget : target.lock.find pluginId = some pkg
  atCurrent : ∃ c, env.current = some c ∧ env.get c = some current
  merged : mergedLock pluginId pkg current.lock = .ok lock

theorem rollbackSources_ok {targetId : Nat} {pluginId : Text} {target current : Generation} {pkg : LockedPackage}
    (found : env.rollbackSources targetId pluginId = .ok (target, pkg, current)) :
    env.get targetId = some target ∧ target.lock.find pluginId = some pkg ∧
      ∃ c, env.current = some c ∧ env.get c = some current := by
  unfold rollbackSources at found
  cases first : env.get targetId with
  | none => simp [first] at found
  | some t =>
    simp only [first, seq_ok] at found
    cases second : t.lock.find pluginId with
    | none => simp [second] at found
    | some p =>
      cases third : env.current with
      | none => simp [second, third] at found
      | some c =>
        cases fourth : env.get c with
        | none => simp [second, third, fourth] at found
        | some h =>
          simp only [second, third, fourth, Except.ok.injEq, Prod.mk.injEq] at found
          obtain ⟨-, rfl, rfl, rfl⟩ := found
          exact ⟨rfl, second, c, rfl, fourth⟩

theorem Sound.rollbackPerPlugin_cases (sound : env.Sound) {targetId : Nat} {pluginId : Text}
    {answer : Except PackageError ActivationReport}
    (run : env.rollbackPerPlugin targetId pluginId = some (answer, env')) :
    (Fails answer ∧ env' = env) ∨
      ∃ target pkg current lock, env.Merges targetId pluginId target pkg current lock ∧ lock.Accepted ∧
        ∃ base, base = env.staged lock (mergedSnapshot pluginId target.capabilitySnapshot current.capabilitySnapshot)
            (target.activatedAt + 1) ∧
          ((Fails answer ∧ env' = base) ∨ (Succeeds answer env.nextId ∧ env' = base.committed env.nextId)) := by
  unfold rollbackPerPlugin at run
  cases sources : env.rollbackSources targetId pluginId with
  | error e =>
    rw [sources] at run
    obtain ⟨rfl, rfl⟩ := Prod.mk.inj (Option.some.inj run)
    exact .inl ⟨nofun, rfl⟩
  | ok found =>
    obtain ⟨target, pkg, current⟩ := found
    rw [sources] at run
    dsimp only at run
    cases merged : mergedLock pluginId pkg current.lock with
    | error e =>
      rw [merged] at run
      obtain ⟨rfl, rfl⟩ := Prod.mk.inj (Option.some.inj run)
      exact .inl ⟨nofun, rfl⟩
    | ok lock =>
      rw [merged] at run
      dsimp only at run
      by_cases full : target.activatedAt = U64_MAX
      · simp [full] at run
      · rw [if_neg full] at run
        obtain ⟨atTarget, inTarget, atCurrent⟩ := rollbackSources_ok sources
        cases staging : env.stage lock (mergedSnapshot pluginId target.capabilitySnapshot current.capabilitySnapshot)
            (target.activatedAt + 1) with
        | none => simp [staging] at run
        | some outcome =>
          obtain ⟨staged, env₁⟩ := outcome
          rw [staging] at run
          rcases sound.stage_cases staging with ⟨e, rfl, rfl⟩ | ⟨rfl, accepted, rfl⟩
          · obtain ⟨rfl, rfl⟩ := Prod.mk.inj (Option.some.inj run)
            exact .inl ⟨nofun, rfl⟩
          · refine .inr ⟨target, pkg, current, lock, ⟨atTarget, inTarget, atCurrent, merged⟩, accepted, _, rfl, ?_⟩
            have same := Option.some.inj run
            rcases activate_cases _ env.nextId rollbackHosts none with ⟨fails, kept, -⟩ | ⟨succeeds, kept, -⟩
            · rw [same] at fails kept
              exact .inl ⟨fails, kept⟩
            · rw [same] at succeeds kept
              exact .inr ⟨succeeds, kept⟩

theorem Sound.perform_stage (sound : env.Sound) {manifests : Text → Option PackageManifest} {lock : Lockfile}
    {caps : CapabilitySnapshot} {activatedAt : Nat} {outcome : Except PackageError Nat × Environment}
    (run : ({ env with manifests } : Environment).stage lock caps activatedAt = some outcome) :
    env.Prepared outcome.2 := by
  rcases (sound.registered manifests).stage_cases run with ⟨e, -, same⟩ | ⟨-, accepted, same⟩
  · rw [same]
    exact .registered manifests
  · rw [same]
    exact .staged accepted manifests caps activatedAt

theorem Sound.perform_cases (sound : env.Sound) (performed : env.perform op = some (answer, env')) :
    ∃ base, env.Prepared base ∧
      ((¬answer.Succeeds ∧ env' = base) ∨
        ∃ id, env.requested op = some id ∧ id ∈ base.ids ∧ answer.Succeeds ∧ env' = base.committed id ∧
          base.ids = env.ids ++ List.replicate op.staging env.nextId) := by
  have found {id : Nat} {h : Generation} (here : env.get id = some h) : id ∈ env.ids :=
    mem_ids.mpr ⟨h, sound.get_iff.mp here⟩
  cases op with
  | stage lock caps activatedAt =>
    obtain ⟨outcome, staging, same⟩ := Option.map_eq_some_iff.mp performed
    obtain ⟨rfl, rfl⟩ := Prod.mk.inj same
    exact ⟨_, sound.perform_stage staging, .inl ⟨reply_staged outcome, rfl⟩⟩
  | stageWithManifests lock caps activatedAt manifests =>
    obtain ⟨outcome, staging, same⟩ := Option.map_eq_some_iff.mp performed
    obtain ⟨rfl, rfl⟩ := Prod.mk.inj same
    obtain ⟨table, registered⟩ := manifests_foldl manifests env
    rw [stageWithManifests, registered] at staging
    exact ⟨_, sound.perform_stage staging, .inl ⟨reply_staged outcome, rfl⟩⟩
  | registerManifest manifest =>
    obtain ⟨rfl, rfl⟩ := Prod.mk.inj (Option.some.inj performed)
    exact ⟨_, .registered _, .inl ⟨nofun, rfl⟩⟩
  | activate id hosts simulated =>
    obtain ⟨rfl, rfl⟩ := Prod.mk.inj (Option.some.inj performed)
    rcases env.activate_cases id hosts simulated with ⟨fails, kept, -⟩ | ⟨succeeds, kept, h, here, -⟩
    · exact ⟨env, .plain, .inl ⟨fun succeeds => succeeds.not_fails (reply_fails.mpr fails), kept⟩⟩
    · exact ⟨env, .plain, .inr ⟨id, rfl, found here, reply_succeeds succeeds, kept, (List.append_nil _).symm⟩⟩
  | rollbackFull id simulated =>
    obtain ⟨rfl, rfl⟩ := Prod.mk.inj (Option.some.inj performed)
    rcases env.rollbackFull_cases id simulated with ⟨fails, kept, -⟩ | ⟨succeeds, kept, h, here, -⟩
    · exact ⟨env, .plain, .inl ⟨fun succeeds => succeeds.not_fails (reply_fails.mpr fails), kept⟩⟩
    · exact ⟨env, .plain, .inr ⟨id, rfl, found here, reply_succeeds succeeds, kept, (List.append_nil _).symm⟩⟩
  | rollbackPerPlugin targetId pluginId =>
    obtain ⟨outcome, run, same⟩ := Option.map_eq_some_iff.mp performed
    obtain ⟨rfl, rfl⟩ := Prod.mk.inj same
    rcases sound.rollbackPerPlugin_cases run with
      ⟨fails, kept⟩ | ⟨target, pkg, current, lock, -, accepted, base, rfl, ⟨fails, kept⟩ | ⟨succeeds, kept⟩⟩
    · exact ⟨env, .plain, .inl ⟨fun succeeds => succeeds.not_fails (reply_fails.mpr fails), kept⟩⟩
    · exact ⟨_, .staged accepted env.manifests _ _,
        .inl ⟨fun succeeds => succeeds.not_fails (reply_fails.mpr fails), kept⟩⟩
    · have last : env.nextId ∈ (env.staged lock (mergedSnapshot pluginId target.capabilitySnapshot
          current.capabilitySnapshot) (target.activatedAt + 1)).ids := by
        rw [ids_staged]
        exact List.mem_append_right _ (List.mem_singleton_self _)
      exact ⟨_, .staged accepted env.manifests _ _,
        .inr ⟨env.nextId, rfl, last, reply_succeeds succeeds, kept, ids_staged⟩⟩

theorem Sound.perform (sound : env.Sound) (performed : env.perform op = some (answer, env')) : env'.Sound := by
  obtain ⟨base, prepared, ⟨-, rfl⟩ | ⟨id, -, member, -, rfl, -⟩⟩ := sound.perform_cases performed
  · exact prepared.sound sound
  · exact (prepared.sound sound).committed member

theorem Reachable.sound (reached : Reachable env) : env.Sound := by
  induction reached with
  | start created => exact sound_withPolicy created
  | next earlier performed ih => exact ih.perform performed

end Environment

end Bitty.Package

namespace Bitty.Package

open Std Text Checks

namespace Environment

variable {env env' : Environment} {pluginId : Text} {target p : LockedPackage}

def swapped (pluginId : Text) (target p : LockedPackage) : LockedPackage := if p.id.asStr = pluginId then target else p

theorem swapped_name (named : target.id.asStr = pluginId) (p : LockedPackage) :
    (swapped pluginId target p).id.asStr = p.id.asStr := by
  unfold swapped
  split
  next same => rw [named, same]
  next => rfl

theorem mergeLock_ok {packages : List LockedPackage} {lock lock' : Lockfile} {found found' : Bool}
    (merged : mergeLock pluginId target packages lock found = .ok (lock', found')) :
    lock' = { lock with packages := lock.packages ++ packages.map (swapped pluginId target) } ∧
      found' = (found || packages.any (·.id.asStr = pluginId)) := by
  induction packages generalizing lock found with
  | nil =>
    obtain ⟨rfl, rfl⟩ := Prod.mk.inj (Except.ok.inj merged)
    simp
  | cons p rest ih =>
    obtain ⟨mid, inserted, later⟩ := Except.bind_ok merged
    obtain ⟨-, -, rfl⟩ := Lockfile.insert_ok.mp inserted
    obtain ⟨rfl, rfl⟩ := ih later
    have here : (if decide (p.id.asStr = pluginId) = true then target else p) = swapped pluginId target p := by
      simp [swapped]
    refine ⟨?_, by simp [Bool.or_assoc]⟩
    rw [here, List.map_cons, List.append_assoc]
    rfl

theorem find_swapped (named : target.id.asStr = pluginId) (packages : List LockedPackage) (name : Text) :
    (packages.map (swapped pluginId target)).find? (·.id.asStr = name) =
      (packages.find? (·.id.asStr = name)).map (swapped pluginId target) := by
  have same : (fun p : LockedPackage => decide (p.id.asStr = name)) ∘ swapped pluginId target =
      fun p => decide (p.id.asStr = name) := by
    funext p
    simp [swapped_name named]
  rw [List.find?_map, same]

def besides (pluginId : Text) (packages : List LockedPackage) : List LockedPackage :=
  packages.filter (·.id.asStr ≠ pluginId)

theorem besides_swapped (named : target.id.asStr = pluginId) (packages : List LockedPackage) :
    besides pluginId (packages.map (swapped pluginId target)) = besides pluginId packages := by
  induction packages with
  | nil => rfl
  | cons p rest ih =>
    unfold besides at ih ⊢
    by_cases here : p.id.asStr = pluginId
    · rw [List.map_cons, swapped, if_pos here, List.filter_cons_of_neg (by simpa using named), ih,
        List.filter_cons_of_neg (by simpa using here)]
    · rw [List.map_cons, swapped, if_neg here, List.filter_cons_of_pos (by simpa using here), ih,
        List.filter_cons_of_pos (by simpa using here)]

theorem mergedLock_ok {lock lock' : Lockfile} (named : target.id.asStr = pluginId)
    (merged : mergedLock pluginId target lock = .ok lock') :
    lock'.version = LOCKFILE_VERSION ∧ lock'.canonicalVersion = Lockfile.new.canonicalVersion ∧
      lock'.find pluginId = some target ∧ besides pluginId lock'.packages = besides pluginId lock.packages := by
  obtain ⟨⟨copied, found⟩, entries, added⟩ := Except.bind_ok merged
  obtain ⟨rfl, rfl⟩ := mergeLock_ok entries
  by_cases here : lock.packages.any (·.id.asStr = pluginId)
  · simp only [here, Bool.false_or, if_true, Except.ok.injEq] at added
    subst added
    refine ⟨rfl, rfl, ?_, besides_swapped named lock.packages⟩
    obtain ⟨p, member, this⟩ := List.any_eq_true.mp here
    change (lock.packages.map (swapped pluginId target)).find? (·.id.asStr = pluginId) = _
    rw [find_swapped named]
    cases found : lock.packages.find? (·.id.asStr = pluginId) with
    | none => exact absurd this (List.find?_eq_none.mp found p member)
    | some q =>
      have other : q.id.asStr = pluginId := by simpa using List.find?_some found
      rw [Option.map_some, swapped, if_pos other]
  · simp only [here, Bool.false_or] at added
    obtain ⟨-, -, rfl⟩ := Lockfile.insert_ok.mp added
    refine ⟨rfl, rfl, ?_, ?_⟩
    · have absent : lock.packages.find? (·.id.asStr = pluginId) = none := by
        refine List.find?_eq_none.mpr fun p member this => here ?_
        exact List.any_eq_true.mpr ⟨p, member, this⟩
      change (lock.packages.map (swapped pluginId target) ++ [target]).find? (·.id.asStr = pluginId) = _
      rw [List.find?_append, find_swapped named, absent]
      simp [named]
    · change besides pluginId (lock.packages.map (swapped pluginId target) ++ [target]) = _
      have gone : besides pluginId [target] = [] := by simp [besides, named]
      have split := List.filter_append (p := fun p : LockedPackage => decide (p.id.asStr ≠ pluginId))
        (lock.packages.map (swapped pluginId target)) [target]
      exact split.trans (by rw [← besides, ← besides, gone, List.append_nil, besides_swapped named])

/-- A generation has the lock entries and capabilities of another except those of one package, which are a third's. -/
structure Merged (pluginId : Text) (current target new : Generation) : Prop where
  entries : besides pluginId new.lock.packages = besides pluginId current.lock.packages
  entry : new.lock.find pluginId = target.lock.find pluginId
  version : new.lock.version = current.lock.version
  canonicalVersion : new.lock.canonicalVersion = Lockfile.new.canonicalVersion
  capabilities : ∀ name, name ≠ pluginId → new.capabilitySnapshot[name]? = current.capabilitySnapshot[name]?
  capability : new.capabilitySnapshot[pluginId]? = target.capabilitySnapshot[pluginId]?

theorem mergedSnapshot_self (pluginId : Text) (target current : CapabilitySnapshot) :
    (mergedSnapshot pluginId target current)[pluginId]? = target[pluginId]? := by
  unfold mergedSnapshot
  cases target[pluginId]? with
  | none => exact ExtTreeMap.getElem?_erase_self
  | some caps => exact ExtTreeMap.getElem?_insert_self

theorem mergedSnapshot_other {pluginId name : Text} (apart : name ≠ pluginId) (target current : CapabilitySnapshot) :
    (mergedSnapshot pluginId target current)[name]? = current[name]? := by
  unfold mergedSnapshot
  cases target[pluginId]? with
  | none => simp [ExtTreeMap.getElem?_erase, apart.symm]
  | some caps => simp [ExtTreeMap.getElem?_insert, apart.symm]

end Environment

end Bitty.Package
