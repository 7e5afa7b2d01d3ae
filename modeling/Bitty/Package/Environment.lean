import Std.Data.ExtTreeMap.Lemmas
import Bitty.Package.Lockfile
import Bitty.Package.Version

namespace Bitty.Package

open Std Text Checks

abbrev CapabilitySnapshot := ExtTreeMap Text (List Text)

def snapshotLine (entry : Text × List Text) : Text :=
  entry.1 ++ ':' :: (entry.2.flatMap (· ++ [',']) ++ ['\n'])

def GENERATION_HEADER : Text := "bitty-generation-v1\n".toList

def generationText (id : Nat) (lock : Lockfile) (caps : CapabilitySnapshot) (activatedAt : Nat) : Text :=
  GENERATION_HEADER ++ number id ++ ['\n'] ++ lock.digest ++ ['\n'] ++ caps.toList.flatMap snapshotLine ++
    number activatedAt ++ ['\n']

def computeGenerationRoot (id : Nat) (lock : Lockfile) (caps : CapabilitySnapshot) (activatedAt : Nat) : Text :=
  sha256Hex (bytes (generationText id lock caps activatedAt))

structure Generation where
  id : Nat
  lock : Lockfile
  rootDigest : Text
  capabilitySnapshot : CapabilitySnapshot
  activatedAt : Nat
  previous : Option Nat

namespace Generation

def new (id : Nat) (lock : Lockfile) (caps : CapabilitySnapshot) (activatedAt : Nat) (previous : Option Nat) :
    Except PackageError Generation := do
  lock.validate
  let root := computeGenerationRoot id lock caps activatedAt
  refuseIf (byteLen root ≠ DIGEST_HEX_LEN) (.generation "generation root digest malformed".toList)
  .ok { id, lock, rootDigest := root, capabilitySnapshot := caps, activatedAt, previous }

def root (g : Generation) : Text := computeGenerationRoot g.id g.lock g.capabilitySnapshot g.activatedAt

def verifyIntegrity (g : Generation) : Check := do
  refuseIf (g.root ≠ g.rootDigest) (.generation ("generation ".toList ++ number g.id ++
    " integrity failed: expected ".toList ++ g.root ++ ", got ".toList ++ g.rootDigest))
  g.lock.validate

variable {lock : Lockfile} {g : Generation}

theorem new_ok {id : Nat} {caps : CapabilitySnapshot} {activatedAt : Nat} {previous : Option Nat}
    (made : new id lock caps activatedAt previous = .ok g) :
    lock.Accepted ∧ g = ⟨id, lock, computeGenerationRoot id lock caps activatedAt, caps, activatedAt, previous⟩ := by
  simp only [new, seq_ok, Lockfile.validate_ok, Except.ok.injEq] at made
  exact ⟨made.1, made.2.2.symm⟩

theorem new_accepted (accepted : lock.Accepted) (id : Nat) (caps : CapabilitySnapshot)
    (activatedAt : Nat) (previous : Option Nat) : new id lock caps activatedAt previous =
      .ok ⟨id, lock, computeGenerationRoot id lock caps activatedAt, caps, activatedAt, previous⟩ := by
  rw [new, Lockfile.validate_ok.mpr accepted]
  simp [refuseIf, computeGenerationRoot]

theorem verifyIntegrity_ok : g.verifyIntegrity = .ok () ↔ g.root = g.rootDigest ∧ g.lock.Accepted := by
  simp [verifyIntegrity, Lockfile.validate_ok]

theorem new_verifies {id : Nat} {caps : CapabilitySnapshot} {activatedAt : Nat}
    {previous : Option Nat} (made : new id lock caps activatedAt previous = .ok g) :
    g.verifyIntegrity = .ok () := by
  obtain ⟨accepted, rfl⟩ := new_ok made
  exact verifyIntegrity_ok.mpr ⟨rfl, accepted⟩

end Generation

end Bitty.Package

namespace Bitty.Package

open Text Checks

def U64_MAX : Nat := 18446744073709551615

inductive ActivationPhase
  | preflight
  | quiesce
  | commit
  | wake
  | confirm
  deriving DecidableEq

def ActivationPhase.label : ActivationPhase → Text
  | .preflight => "preflight".toList
  | .quiesce => "quiesce".toList
  | .commit => "commit".toList
  | .wake => "wake".toList
  | .confirm => "confirm".toList

structure RetentionPolicy where
  maxGenerations : Nat

def RetentionPolicy.validate (policy : RetentionPolicy) : Check := do
  refuseIf (policy.maxGenerations = 0)
    (.generation "max_generations must be >= 1 (current must be retained)".toList)
  refuseIf (32 < policy.maxGenerations) (.limitExceeded "retention.max_generations".toList 32 policy.maxGenerations)

structure Environment where
  current : Option Nat
  generations : List Generation
  manifests : Text → Option PackageManifest
  nextId : Nat
  policy : RetentionPolicy

/-- What an operation answers and the environment after it; nothing when its arithmetic overflows. -/
abbrev Outcome (α : Type) := Option (Except PackageError α × Environment)

def runPhase (phase : ActivationPhase) (simulateFailureAt : Option ActivationPhase) (failedBefore : Bool) :
    Except Text Unit := do
  refuseIf (failedBefore = true) "skipped due to earlier failure".toList
  refuseIf (simulateFailureAt = some phase) ("simulated ".toList ++ phase.label ++ " failure".toList)

structure ActivationReport where
  generationId : Nat
  phases : List (ActivationPhase × Except Text Unit)
  succeeded : Bool
  previous : Option Nat

namespace Environment

def withPolicy (policy : RetentionPolicy) : Except PackageError Environment := do
  policy.validate
  .ok { current := none, generations := [], manifests := fun _ => none, nextId := 1, policy }

variable (env : Environment)

def ids : List Nat := env.generations.map (·.id)

def get (id : Nat) : Option Generation := env.generations.find? (·.id = id)

def insert (g : Generation) : Environment :=
  { env with generations := env.generations.filter (·.id < g.id) ++ g :: env.generations.filter (g.id < ·.id) }

def remove (id : Nat) : Environment := { env with generations := env.generations.filter (·.id ≠ id) }

def others : List Nat := env.ids.filter fun id => some id ≠ env.current

/-- Removes oldest non-current generations until within the bound. -/
def pruneLoop : Nat → Environment → List Nat × Environment
  | 0, env => ([], env)
  | rounds + 1, env =>
    if env.policy.maxGenerations < env.generations.length then
      match env.others.head? with
      | none => ([], env)
      | some oldest =>
        let (pruned, env') := pruneLoop rounds (env.remove oldest)
        (oldest :: pruned, env')
    else ([], env)

def prune : List Nat × Environment := pruneLoop env.generations.length env

def stage (lock : Lockfile) (caps : CapabilitySnapshot) (activatedAt : Nat) : Outcome Nat :=
  match lock.validate with
  | .error e => some (.error e, env)
  | .ok () =>
    if env.nextId = U64_MAX then none
    else
      let id := env.nextId
      let env := { env with nextId := id + 1 }
      match Generation.new id lock caps activatedAt env.current with
      | .error e => some (.error e, env)
      | .ok g => some (.ok id, env.insert g)

def registerManifest (m : PackageManifest) : Environment :=
  { env with manifests := fun id => if id = m.identity.id.asStr then some m else env.manifests id }

def stageWithManifests (lock : Lockfile) (caps : CapabilitySnapshot) (activatedAt : Nat)
    (manifests : List PackageManifest) : Outcome Nat :=
  (manifests.foldl registerManifest env).stage lock caps activatedAt

def compatible (hosts : HostVersions) (pkg : LockedPackage) : Check :=
  match env.manifests pkg.id.asStr with
  | none => .ok ()
  | some manifest => checkCompatibility manifest hosts

def preflight (g : Generation) (hosts : HostVersions) (simulateFailureAt : Option ActivationPhase) :
    Except Text Unit := do
  g.verifyIntegrity.mapError PackageError.display
  refuseIf (simulateFailureAt = some .preflight) "simulated preflight failure".toList
  each (fun pkg => (env.compatible hosts pkg).mapError PackageError.display) g.lock.packages

def transact (g : Generation) (generationId : Nat) (hosts : HostVersions)
    (simulateFailureAt : Option ActivationPhase) : ActivationReport × Environment :=
  let previous := env.current
  let preflight := env.preflight g hosts simulateFailureAt
  let failedPreflight := !preflight.toBool
  let quiesce := runPhase .quiesce simulateFailureAt failedPreflight
  let failedQuiesce := failedPreflight || !quiesce.toBool
  let commit := runPhase .commit simulateFailureAt failedQuiesce
  let env := if commit.toBool then { env with current := some generationId } else env
  let failedBeforeCommit := failedQuiesce || !commit.toBool
  let wake := runPhase .wake simulateFailureAt failedBeforeCommit
  let phases := [(.preflight, preflight), (.quiesce, quiesce), (.commit, commit), (.wake, wake)]
  if !wake.toBool then
    let skipped := .error "skipped due to wake failure (restored prior)".toList
    (⟨generationId, phases ++ [(.confirm, skipped)], false, previous⟩, { env with current := previous })
  else
    let confirm := runPhase .confirm simulateFailureAt failedBeforeCommit
    let phases := phases ++ [(.confirm, confirm)]
    if !confirm.toBool then (⟨generationId, phases, false, previous⟩, { env with current := previous })
    else if failedBeforeCommit then (⟨generationId, phases, false, previous⟩, env)
    else (⟨generationId, phases, true, previous⟩, env.prune.2)

def activate (generationId : Nat) (hosts : HostVersions) (simulateFailureAt : Option ActivationPhase) :
    Except PackageError ActivationReport × Environment :=
  match env.get generationId with
  | none => (.error (.notFound (number generationId)), env)
  | some g =>
    let (report, env) := env.transact g generationId hosts simulateFailureAt
    (.ok report, env)

def rollbackHosts : HostVersions := ⟨some "0.6.0".toList, some "1.0.0".toList⟩

def rollbackFull (targetId : Nat) (simulateFailureAt : Option ActivationPhase) :
    Except PackageError ActivationReport × Environment :=
  match env.get targetId with
  | none => (.error (.generation ("rollback target generation ".toList ++ number targetId ++
      " is not retained (pruned or never existed)".toList)), env)
  | some g =>
    match g.verifyIntegrity with
    | .error e => (.error (.generation ("rollback target quarantine: ".toList ++ e.display)), env)
    | .ok () => env.activate targetId rollbackHosts simulateFailureAt

def mergeLock (pluginId : Text) (target : LockedPackage) : List LockedPackage → Lockfile → Bool →
    Except PackageError (Lockfile × Bool)
  | [], lock, found => .ok (lock, found)
  | p :: rest, lock, found => do
    let here : Bool := p.id.asStr = pluginId
    let lock ← lock.insert (if here then target else p)
    mergeLock pluginId target rest lock (found || here)

def mergedLock (pluginId : Text) (target : LockedPackage) (lock : Lockfile) : Except PackageError Lockfile := do
  let (merged, found) ← mergeLock pluginId target lock.packages .new false
  if found then .ok merged else merged.insert target

def mergedSnapshot (pluginId : Text) (target current : CapabilitySnapshot) : CapabilitySnapshot :=
  match target[pluginId]? with
  | some caps => current.insert pluginId caps
  | none => current.erase pluginId

def rollbackSources (targetId : Nat) (pluginId : Text) :
    Except PackageError (Generation × LockedPackage × Generation) := do
  match env.get targetId with
  | none => .error (.notFound (number targetId))
  | some target => do
    target.verifyIntegrity
    match target.lock.find pluginId with
    | none => .error (.notFound ("plugin ".toList ++ pluginId ++ " not in generation ".toList ++ number targetId))
    | some pkg =>
      match env.current with
      | none => .error (.generation "no active generation for per-plugin rollback".toList)
      | some currentId =>
        match env.get currentId with
        | none => .error (.notFound (number currentId))
        | some current => .ok (target, pkg, current)

def rollbackPerPlugin (targetId : Nat) (pluginId : Text) : Outcome ActivationReport :=
  match env.rollbackSources targetId pluginId with
  | .error e => some (.error e, env)
  | .ok (target, pkg, current) =>
    match mergedLock pluginId pkg current.lock with
    | .error e => some (.error e, env)
    | .ok lock =>
      let caps := mergedSnapshot pluginId target.capabilitySnapshot current.capabilitySnapshot
      if target.activatedAt = U64_MAX then none
      else
        match env.stage lock caps (target.activatedAt + 1) with
        | none => none
        | some (.error e, env) => some (.error e, env)
        | some (.ok newId, env) => some (env.activate newId rollbackHosts none)

end Environment

inductive Operation
  | stage (lock : Lockfile) (caps : CapabilitySnapshot) (activatedAt : Nat)
  | stageWithManifests (lock : Lockfile) (caps : CapabilitySnapshot) (activatedAt : Nat)
      (manifests : List PackageManifest)
  | registerManifest (manifest : PackageManifest)
  | activate (generationId : Nat) (hosts : HostVersions) (simulateFailureAt : Option ActivationPhase)
  | rollbackFull (targetId : Nat) (simulateFailureAt : Option ActivationPhase)
  | rollbackPerPlugin (targetId : Nat) (pluginId : Text)

inductive Reply
  | refused (e : PackageError)
  | staged (id : Nat)
  | registered
  | reported (report : ActivationReport)

namespace Environment

def reply {α : Type} (answer : α → Reply) (outcome : Except PackageError α × Environment) : Reply × Environment :=
  (match outcome.1 with
    | .error e => .refused e
    | .ok a => answer a, outcome.2)

def perform (env : Environment) : Operation → Option (Reply × Environment)
  | .stage lock caps activatedAt => (env.stage lock caps activatedAt).map (reply .staged)
  | .stageWithManifests lock caps activatedAt manifests =>
    (env.stageWithManifests lock caps activatedAt manifests).map (reply .staged)
  | .registerManifest manifest => some (.registered, env.registerManifest manifest)
  | .activate id hosts simulated => some (reply .reported (env.activate id hosts simulated))
  | .rollbackFull id simulated => some (reply .reported (env.rollbackFull id simulated))
  | .rollbackPerPlugin id pluginId => (env.rollbackPerPlugin id pluginId).map (reply .reported)

inductive Reachable : Environment → Prop
  | start {policy : RetentionPolicy} {env : Environment} (created : withPolicy policy = .ok env) : Reachable env
  | next {env env' : Environment} {op : Operation} {answer : Reply} (earlier : Reachable env)
      (performed : env.perform op = some (answer, env')) : Reachable env'

end Environment

end Bitty.Package
