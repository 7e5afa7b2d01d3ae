import Bitty.Plugin.Manifest

namespace Bitty.Plugin

open Text Checks

def MAX_SCOPE_CAPS : Nat := 256

def MAX_RAW_DECLARATIONS : Nat := 8

def MAX_RAW_DECLARATION_BYTES : Nat := 256

def MAX_DENIAL_ITEMS : Nat := 8

def HOST_DEFAULT_MAX_AGENTS : Nat := 16

/-- The layers of authority, highest first. -/
inductive EffectiveLayer
  | hostCeiling | userPolicy | projectPolicy | parentDelegation | taskGrant | agentRequest

def EffectiveLayer.label : EffectiveLayer → Text
  | hostCeiling => "host-ceiling".toList
  | userPolicy => "user-policy".toList
  | projectPolicy => "project-policy".toList
  | parentDelegation => "parent-delegation".toList
  | taskGrant => "task-grant".toList
  | agentRequest => "agent-request".toList

inductive RequestKind
  | agentSpawn | executionRun | panelAcquire | fsRead | fsWrite | networkConnect | pluginLifecycle

namespace RequestKind

def asStr : RequestKind → Text
  | agentSpawn => "agent.spawn".toList
  | executionRun => "execution.run".toList
  | panelAcquire => "panel.acquire".toList
  | fsRead => "fs.read".toList
  | fsWrite => "fs.write".toList
  | networkConnect => "network.connect".toList
  | pluginLifecycle => "plugin.lifecycle".toList

def allowedHeads : RequestKind → Option (List Text)
  | fsRead => some ["fs.read".toList]
  | fsWrite => some ["fs.write".toList]
  | _ => none

end RequestKind

inductive DenialKind
  | selfGrant | exceedsPolicy | policyConflict | untrustedProject | invalidRequest

structure DenialStep where
  layer : Option EffectiveLayer
  detail : Text

structure EffectiveDenial where
  kind : DenialKind
  requestKind : RequestKind
  chain : List DenialStep

def EffectiveDenial.invalid (requestKind : RequestKind) (detail : Text) : EffectiveDenial :=
  ⟨.invalidRequest, requestKind, [⟨none, detail⟩]⟩

structure CapabilityScope where
  caps : Finset CapabilityId
  denied : Finset CapabilityId
  maxAgents : Option Nat
  allowRoot : Option Bool
  pins : Finset Text
  closed : Bool
  source : Text

namespace CapabilityScope

def silent (source : Text) : CapabilityScope := ⟨∅, ∅, none, none, ∅, false, source⟩

def constrainsCaps (scope : CapabilityScope) : Bool := scope.closed || scope.caps ≠ ∅ || scope.denied ≠ ∅

def validate (scope : CapabilityScope) : Except EffectiveDenial Unit := do
  refuseIf (MAX_SCOPE_CAPS < scope.caps.card + scope.denied.card) (.invalid .pluginLifecycle
    ("scope '".toList ++ scope.source ++ "' exceeds ".toList ++ number MAX_SCOPE_CAPS ++ " capabilities".toList))
  refuseIf (MAX_RAW_DECLARATION_BYTES < byteLen scope.source)
    (.invalid .pluginLifecycle "scope source exceeds bounds".toList)

end CapabilityScope

/-- A request: narrow typed claims and opaque wide declarations. -/
structure AgentRequest where
  scope : CapabilityScope
  rawWide : List Text

def AgentRequest.validate (request : AgentRequest) (kind : RequestKind) : Except EffectiveDenial Unit := do
  request.scope.validate
  refuseIf (MAX_RAW_DECLARATIONS < request.rawWide.length) (.invalid kind
    ("request exceeds ".toList ++ number MAX_RAW_DECLARATIONS ++ " raw declarations".toList))
  each (fun raw => refuseIf (MAX_RAW_DECLARATION_BYTES < byteLen raw)
    (.invalid kind "raw declaration exceeds bounds".toList)) request.rawWide

structure EffectiveStack where
  host : CapabilityScope
  user : CapabilityScope
  project : Option CapabilityScope
  parent : CapabilityScope
  task : CapabilityScope

namespace EffectiveStack

variable (stack : EffectiveStack)

def validate : Except EffectiveDenial Unit := do
  stack.host.validate
  stack.user.validate
  each CapabilityScope.validate stack.project.toList
  stack.parent.validate
  stack.task.validate

def layersInOrder : List (EffectiveLayer × CapabilityScope) :=
  [(.hostCeiling, stack.host), (.userPolicy, stack.user)] ++ stack.project.toList.map (.projectPolicy, ·) ++
    [(.parentDelegation, stack.parent), (.taskGrant, stack.task)]

def scopes : List CapabilityScope := stack.layersInOrder.map Prod.snd

theorem scopes_eq : stack.scopes = [stack.host, stack.user] ++ stack.project.toList ++ [stack.parent, stack.task] := by
  simp [scopes, layersInOrder]

end EffectiveStack

end Bitty.Plugin

namespace Bitty.Plugin

structure EffectiveCapability where
  caps : Finset CapabilityId
  maxAgents : Nat
  allowRoot : Bool
  deriving DecidableEq

structure EffectiveCapability.IsSubsetOf (child parent : EffectiveCapability) : Prop where
  caps : child.caps ⊆ parent.caps
  maxAgents : child.maxAgents ≤ parent.maxAgents
  allowRoot : child.allowRoot = true → parent.allowRoot = true

structure Tally where
  caps : Option (Finset CapabilityId)
  denied : Finset CapabilityId
  ceilings : List Nat
  roots : List Bool

def Tally.add (t : Tally) (scope : CapabilityScope) : Tally where
  caps :=
    if scope.constrainsCaps then
      some (match t.caps with
        | some current => current ∩ (scope.caps \ scope.denied)
        | none => scope.caps \ scope.denied)
    else t.caps
  denied := t.denied ∪ scope.denied
  ceilings := t.ceilings ++ scope.maxAgents.toList
  roots := t.roots ++ scope.allowRoot.toList

def Tally.of (scopes : List CapabilityScope) : Tally := scopes.foldl Tally.add ⟨none, ∅, [], []⟩

def intersect (scopes : List CapabilityScope) : EffectiveCapability where
  caps := ((Tally.of scopes).caps.getD ∅).filter (· ∉ (Tally.of scopes).denied)
  maxAgents := (Tally.of scopes).ceilings.min?.getD HOST_DEFAULT_MAX_AGENTS
  allowRoot := !(Tally.of scopes).roots.isEmpty && (Tally.of scopes).roots.all id

variable {scopes : List CapabilityScope} {scope : CapabilityScope} {c : CapabilityId}

theorem CapabilityScope.constrainsCaps_of_mem (member : c ∈ scope.caps) : scope.constrainsCaps = true := by
  have nonempty : scope.caps ≠ ∅ := Finset.ne_empty_of_mem member
  simp [constrainsCaps, nonempty]

namespace Tally

theorem mem_caps (t : Tally) (scopes : List CapabilityScope) : c ∈ (scopes.foldl add t).caps.getD ∅ ↔
    ((∃ current, t.caps = some current ∧ c ∈ current) ∨ t.caps = none ∧ ∃ scope ∈ scopes, scope.constrainsCaps = true) ∧
      ∀ scope ∈ scopes, scope.constrainsCaps = true → c ∈ scope.caps ∧ c ∉ scope.denied := by
  induction scopes generalizing t with
  | nil =>
    cases seeded : t.caps with
    | none => simp [seeded]
    | some current => simp [seeded]
  | cons scope rest ih =>
    rw [List.foldl_cons, ih]
    by_cases speaks : scope.constrainsCaps = true
    · cases seeded : t.caps with
      | none => simp [add, speaks, seeded, and_assoc]
      | some current => simp [add, speaks, seeded, and_assoc]
    · simp [add, speaks]

theorem mem_denied (t : Tally) (scopes : List CapabilityScope) :
    c ∈ (scopes.foldl add t).denied ↔ c ∈ t.denied ∨ ∃ scope ∈ scopes, c ∈ scope.denied := by
  induction scopes generalizing t with
  | nil => simp
  | cons scope rest ih =>
    rw [List.foldl_cons, ih]
    simp [add, or_assoc]

theorem ceilings_eq (t : Tally) (scopes : List CapabilityScope) :
    (scopes.foldl add t).ceilings = t.ceilings ++ scopes.filterMap (·.maxAgents) := by
  induction scopes generalizing t with
  | nil => simp
  | cons scope rest ih =>
    rw [List.foldl_cons, ih]
    cases named : scope.maxAgents with
    | none => simp [add, named]
    | some ceiling => simp [add, named]

theorem roots_eq (t : Tally) (scopes : List CapabilityScope) :
    (scopes.foldl add t).roots = t.roots ++ scopes.filterMap (·.allowRoot) := by
  induction scopes generalizing t with
  | nil => simp
  | cons scope rest ih =>
    rw [List.foldl_cons, ih]
    cases named : scope.allowRoot with
    | none => simp [add, named]
    | some root => simp [add, named]

end Tally

/-- A capability that the layers grant: allowed by one, by each that constrains, and denied by none. -/
structure Granted (scopes : List CapabilityScope) (c : CapabilityId) : Prop where
  allowed : ∃ scope ∈ scopes, c ∈ scope.caps
  everywhere : ∀ scope ∈ scopes, scope.constrainsCaps = true → c ∈ scope.caps
  undenied : ∀ scope ∈ scopes, c ∉ scope.denied

theorem mem_intersect : c ∈ (intersect scopes).caps ↔ Granted scopes c := by
  unfold intersect Tally.of
  rw [Finset.mem_filter, Tally.mem_caps, Tally.mem_denied]
  constructor
  · rintro ⟨⟨seeded, kept⟩, undenied⟩
    have undenied : ∀ scope ∈ scopes, c ∉ scope.denied := by simpa using undenied
    obtain ⟨scope, member, speaks⟩ : ∃ scope ∈ scopes, scope.constrainsCaps = true := by simpa using seeded
    exact ⟨⟨scope, member, (kept scope member speaks).1⟩, fun scope member speaks => (kept scope member speaks).1, undenied⟩
  · intro granted
    obtain ⟨scope, member, allowed⟩ := granted.allowed
    refine ⟨⟨.inr ⟨rfl, scope, member, CapabilityScope.constrainsCaps_of_mem allowed⟩, fun scope member speaks => ?_⟩, ?_⟩
    · exact ⟨granted.everywhere scope member speaks, granted.undenied scope member⟩
    · simpa using granted.undenied

/-- A number of agents within every ceiling, the built-in one where no layer names one. -/
structure Fits (scopes : List CapabilityScope) (n : Nat) : Prop where
  ceilings : ∀ scope ∈ scopes, ∀ ceiling, scope.maxAgents = some ceiling → n ≤ ceiling
  builtIn : (∀ scope ∈ scopes, scope.maxAgents = none) → n ≤ HOST_DEFAULT_MAX_AGENTS

theorem le_intersect_maxAgents {n : Nat} : n ≤ (intersect scopes).maxAgents ↔ Fits scopes n := by
  unfold intersect Tally.of
  dsimp only
  rw [Tally.ceilings_eq, List.nil_append]
  cases lowest : (scopes.filterMap (·.maxAgents)).min? with
  | none =>
    have silent : ∀ scope ∈ scopes, scope.maxAgents = none := by simpa using lowest
    constructor
    · refine fun within => ⟨fun scope member ceiling named => ?_, fun _ => within⟩
      rw [silent scope member] at named
      cases named
    · exact fun fits => fits.builtIn silent
  | some ceiling =>
    have named := List.min?_mem lowest
    obtain ⟨scope, member, here⟩ := List.mem_filterMap.mp named
    have least := List.le_min?_iff lowest (x := n)
    simp only [Option.getD_some, least, List.mem_filterMap, forall_exists_index, and_imp]
    constructor
    · refine fun within => ⟨fun scope member ceiling named => within ceiling scope member named, fun silent => ?_⟩
      rw [silent scope member] at here
      cases here
    · exact fun fits ceiling scope member named => fits.ceilings scope member ceiling named

structure Rooted (scopes : List CapabilityScope) : Prop where
  spoken : ∃ scope ∈ scopes, scope.allowRoot ≠ none
  unrefused : ∀ scope ∈ scopes, scope.allowRoot ≠ some false

theorem intersect_allowRoot : (intersect scopes).allowRoot = true ↔ Rooted scopes := by
  unfold intersect Tally.of
  dsimp only
  rw [Tally.roots_eq, List.nil_append, Bool.and_eq_true, Bool.not_eq_true', List.isEmpty_eq_false_iff, List.all_eq_true]
  constructor
  · rintro ⟨spoken, allowed⟩
    obtain ⟨root, member⟩ := List.exists_mem_of_ne_nil _ spoken
    obtain ⟨scope, present, here⟩ := List.mem_filterMap.mp member
    refine ⟨⟨scope, present, by simp [here]⟩, fun scope member refused => ?_⟩
    exact Bool.false_ne_true (allowed false (List.mem_filterMap.mpr ⟨scope, member, refused⟩))
  · rintro ⟨⟨scope, member, spoken⟩, unrefused⟩
    obtain ⟨root, here⟩ := Option.ne_none_iff_exists'.mp spoken
    refine ⟨List.ne_nil_of_mem (List.mem_filterMap.mpr ⟨scope, member, here⟩), fun root found => ?_⟩
    obtain ⟨other, present, here⟩ := List.mem_filterMap.mp found
    cases root with
    | true => rfl
    | false => exact absurd here (unrefused other present)

end Bitty.Plugin
