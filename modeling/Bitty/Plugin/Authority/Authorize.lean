import Bitty.Plugin.Authority.Intersect

namespace Bitty.Plugin

open Text Checks

def splitItems (sorted : List Text) : Text × Text :=
  (List.intercalate ", ".toList (sorted.take MAX_DENIAL_ITEMS),
    if MAX_DENIAL_ITEMS < sorted.length then " and ".toList ++ number (sorted.length - MAX_DENIAL_ITEMS) ++ " more".toList
    else [])

def named (items : List Text) : Text := (splitItems (sortBy id (items.take (MAX_DENIAL_ITEMS + 1)))).1 ++
  (splitItems (sortBy id (items.take (MAX_DENIAL_ITEMS + 1)))).2

def fromWide (kind : RequestKind) (raw : List Text) : EffectiveDenial :=
  ⟨.selfGrant, kind, [⟨some .agentRequest,
    "wide declaration (".toList ++ named raw ++ ") is not a grant; re-express narrowly".toList⟩]⟩

def outOfKind (scope : CapabilityScope) (heads : List Text) : List CapabilityId :=
  (inOrder scope.caps ++ inOrder scope.denied).filter fun cap => Package.capabilityHead cap.asStr ∉ heads

def checkKindFit (scope : CapabilityScope) (kind : RequestKind) : Except EffectiveDenial Unit :=
  each (fun heads => refuseIf (outOfKind scope heads ≠ []) ⟨.invalidRequest, kind, [⟨some .agentRequest,
    kind.asStr ++ " request names out-of-kind capabilities (".toList ++
      named ((outOfKind scope heads).map CapabilityId.asStr) ++ ")".toList⟩]⟩) kind.allowedHeads.toList

abbrev Layers := List (EffectiveLayer × CapabilityScope)

def pinnedBy (layers : Layers) (pin : Text) : Option (EffectiveLayer × CapabilityScope) :=
  layers.find? fun l => pin ∈ l.2.pins

def scalarViolator {α : Type} [DecidableEq α] (value : CapabilityScope → Option α) (layers : Layers) (pin : Text) :
    Option EffectiveLayer :=
  (layers.find? fun l => pin ∉ l.2.pins ∧ value l.2 ≠ none ∧ value l.2 ≠ (pinnedBy layers pin).bind fun l => value l.2).map
    Prod.fst

def capViolator (layers : Layers) (pinned : CapabilityId) : Option EffectiveLayer :=
  (layers.find? fun l => l.2.constrainsCaps = true ∧ pinned ∉ l.2.caps).map Prod.fst

def refuseViolator (layers : Layers) (kind : RequestKind) (pin : Text) (violator : Option EffectiveLayer) :
    Except EffectiveDenial Unit :=
  each (fun violator => .error ⟨.policyConflict, kind,
    [⟨(pinnedBy layers pin).map Prod.fst, "non-overridable pin '".toList ++ pin ++ "'".toList⟩,
      ⟨some violator, "narrows pinned '".toList ++ pin ++ "'".toList⟩]⟩) violator.toList

def checkPin (layers : Layers) (kind : RequestKind) (policyLabel pin : Text) : Except EffectiveDenial Unit :=
  if pin = "max_agents".toList then refuseViolator layers kind pin (scalarViolator (·.maxAgents) layers pin)
  else if pin = "allow_root".toList then refuseViolator layers kind pin (scalarViolator (·.allowRoot) layers pin)
  else
    match CapabilityId.parse pin with
    | .ok pinned => refuseViolator layers kind pin (capViolator layers pinned)
    | .error _ => .error ⟨.policyConflict, kind,
      [⟨none, "policy pin '".toList ++ pin ++ "' from ".toList ++ policyLabel ++ " is malformed".toList⟩]⟩

def pinsInOrder (scope : CapabilityScope) : List Text := TextSet.inOrder id Function.injective_id scope.pins

def checkPins (layers : Layers) (kind : RequestKind) : Except EffectiveDenial Unit :=
  each (fun l => each (checkPin layers kind l.1.label) (pinsInOrder l.2)) layers

def checkScalarSelfGrant (scope : CapabilityScope) (effective : EffectiveCapability) (kind : RequestKind) :
    Except EffectiveDenial Unit := do
  each (fun want => refuseIf (effective.maxAgents < want) ⟨.selfGrant, kind, [⟨some .agentRequest,
    "max_agents ".toList ++ number want ++ " exceeds effective ceiling ".toList ++ number effective.maxAgents⟩]⟩)
    scope.maxAgents.toList
  refuseIf (scope.allowRoot.getD false = true ∧ effective.allowRoot = false) ⟨.selfGrant, kind,
    [⟨some .agentRequest, "root=true exceeds effective policy (root denied)".toList⟩]⟩

def checkExcess (scope : CapabilityScope) (effective : EffectiveCapability) (kind : RequestKind) (layers : Layers) :
    Except EffectiveDenial Unit :=
  let excess := inOrder (scope.caps \ effective.caps)
  refuseIf (excess ≠ []) ⟨.exceedsPolicy, kind,
    ((layers.filter fun l => l.2.constrainsCaps).map fun l =>
      ⟨some l.1, "allows ".toList ++ number l.2.caps.card ++ " capabilities".toList⟩) ++
    [⟨some .agentRequest, "request exceeds intersection (".toList ++ named (excess.map CapabilityId.asStr) ++ ")".toList⟩]⟩

def floorCeiling (want : Option Nat) (effective : Nat) : Nat := want.elim effective (min · effective)

def authority (stack : EffectiveStack) (request : AgentRequest) : EffectiveCapability where
  caps := request.scope.caps
  maxAgents := floorCeiling request.scope.maxAgents (intersect stack.scopes).maxAgents
  allowRoot := request.scope.allowRoot.getD false && (intersect stack.scopes).allowRoot

def authorize (stack : EffectiveStack) (request : AgentRequest) (kind : RequestKind) (projectTrusted : Bool) :
    Except EffectiveDenial EffectiveCapability := do
  stack.validate.mapError fun invalid => ⟨.invalidRequest, kind, invalid.chain⟩
  request.validate kind
  refuseIf (stack.project.isSome ∧ projectTrusted = false) ⟨.untrustedProject, kind,
    [⟨some .projectPolicy, "project policy present but project is not trusted".toList⟩]⟩
  refuseIf (request.rawWide ≠ []) (fromWide kind request.rawWide)
  checkKindFit request.scope kind
  checkPins stack.layersInOrder kind
  checkScalarSelfGrant request.scope (intersect stack.scopes) kind
  checkExcess request.scope (intersect stack.scopes) kind stack.layersInOrder
  .ok (authority stack request)

structure WellFormed (stack : EffectiveStack) (request : AgentRequest) (kind : RequestKind) (projectTrusted : Bool) : Prop where
  bounds : stack.validate = .ok ()
  shape : request.validate kind = .ok ()
  trusted : stack.project.isSome → projectTrusted = true
  narrow : request.rawWide = []
  fits : ∀ heads, kind.allowedHeads = some heads → ∀ c ∈ request.scope.caps ∪ request.scope.denied,
    Package.capabilityHead c.asStr ∈ heads

/-- The layers without the pin say nothing else than the first with it. -/
def ScalarKept {α : Type} (value : CapabilityScope → Option α) (scopes : List CapabilityScope) (pin : Text) : Prop :=
  ∀ scope ∈ scopes, pin ∉ scope.pins → value scope = none ∨
    value scope = (scopes.find? fun scope => pin ∈ scope.pins).bind value

def PinKept (scopes : List CapabilityScope) (pin : Text) : Prop :=
  if pin = "max_agents".toList then ScalarKept (·.maxAgents) scopes pin
  else if pin = "allow_root".toList then ScalarKept (·.allowRoot) scopes pin
  else ∃ pinned, CapabilityId.parse pin = .ok pinned ∧ ∀ scope ∈ scopes, scope.constrainsCaps = true → pinned ∈ scope.caps

structure Within (scopes : List CapabilityScope) (scope : CapabilityScope) : Prop where
  caps : ∀ c ∈ scope.caps, Granted scopes c
  maxAgents : ∀ want, scope.maxAgents = some want → Fits scopes want
  allowRoot : scope.allowRoot = some true → Rooted scopes

variable {stack : EffectiveStack} {request : AgentRequest} {scope : CapabilityScope} {kind : RequestKind} {trusted : Bool}
  {layers : Layers}

theorem outOfKind_eq_nil {heads : List Text} :
    outOfKind scope heads = [] ↔ ∀ c ∈ scope.caps ∪ scope.denied, Package.capabilityHead c.asStr ∈ heads := by
  simp only [outOfKind, List.filter_eq_nil_iff, List.mem_append, mem_inOrder, Finset.mem_union, decide_eq_true_eq, not_not]

theorem checkKindFit_ok : checkKindFit scope kind = .ok () ↔
    ∀ heads, kind.allowedHeads = some heads → ∀ c ∈ scope.caps ∪ scope.denied, Package.capabilityHead c.asStr ∈ heads := by
  simp only [checkKindFit, each_ok, refuseIf_ok, ne_eq, not_not, outOfKind_eq_nil, Option.mem_toList]

theorem refuseViolator_ok {pin : Text} {violator : Option EffectiveLayer} :
    refuseViolator layers kind pin violator = .ok () ↔ violator = none := by
  cases violator with
  | none => simp [refuseViolator, each]
  | some violator => simp [refuseViolator, each_ok]

theorem pinnedBy_bind {α : Type} (value : CapabilityScope → Option α) (layers : Layers) (pin : Text) :
    ((pinnedBy layers pin).bind fun l => value l.2) =
      ((layers.map Prod.snd).find? fun scope => pin ∈ scope.pins).bind value := by
  rw [pinnedBy, List.find?_map, Option.bind_map]
  rfl

theorem scalarViolator_none {α : Type} [DecidableEq α] {value : CapabilityScope → Option α} {pin : Text} :
    scalarViolator value layers pin = none ↔ ScalarKept value (layers.map Prod.snd) pin := by
  simp only [scalarViolator, pinnedBy_bind, Option.map_eq_none_iff, List.find?_eq_none, decide_eq_true_eq, ScalarKept,
    List.forall_mem_map, not_and, not_not]
  refine forall_congr' fun l => forall_congr' fun _ => forall_congr' fun _ => ?_
  exact or_iff_not_imp_left.symm

theorem capViolator_none {pinned : CapabilityId} : capViolator layers pinned = none ↔
    ∀ scope ∈ layers.map Prod.snd, scope.constrainsCaps = true → pinned ∈ scope.caps := by
  simp only [capViolator, Option.map_eq_none_iff, List.find?_eq_none, decide_eq_true_eq, not_and, not_not, List.forall_mem_map]

theorem checkPin_ok {policyLabel pin : Text} :
    checkPin layers kind policyLabel pin = .ok () ↔ PinKept (layers.map Prod.snd) pin := by
  unfold checkPin PinKept
  by_cases agents : pin = "max_agents".toList
  · rw [if_pos agents, if_pos agents, refuseViolator_ok, scalarViolator_none]
  · rw [if_neg agents, if_neg agents]
    by_cases root : pin = "allow_root".toList
    · rw [if_pos root, if_pos root, refuseViolator_ok, scalarViolator_none]
    · rw [if_neg root, if_neg root]
      cases parsed : CapabilityId.parse pin with
      | error e => simp
      | ok pinned => simp [refuseViolator_ok, capViolator_none]

theorem checkPins_ok : checkPins stack.layersInOrder kind = .ok () ↔
    ∀ scope ∈ stack.scopes, ∀ pin ∈ scope.pins, PinKept stack.scopes pin := by
  simp only [checkPins, each_ok, checkPin_ok, pinsInOrder, TextSet.mem_inOrder, EffectiveStack.scopes, List.forall_mem_map]

theorem checkScalarSelfGrant_ok {scopes : List CapabilityScope} : checkScalarSelfGrant scope (intersect scopes) kind = .ok () ↔
    (∀ want, scope.maxAgents = some want → Fits scopes want) ∧ (scope.allowRoot = some true → Rooted scopes) := by
  simp only [checkScalarSelfGrant, seq_ok, each_ok, refuseIf_ok, Option.mem_toList, Nat.not_lt, not_and, Bool.not_eq_false,
    le_intersect_maxAgents, intersect_allowRoot]
  cases scope.allowRoot with
  | none => simp
  | some root => simp

theorem checkExcess_ok {scopes : List CapabilityScope} :
    checkExcess scope (intersect scopes) kind layers = .ok () ↔ ∀ c ∈ scope.caps, Granted scopes c := by
  rw [checkExcess, refuseIf_ok, not_not, inOrder, TextSet.inOrder_eq_nil, Finset.sdiff_eq_empty_iff_subset]
  exact forall_congr' fun c => imp_congr_right fun _ => mem_intersect

theorem authorize_ok {e : EffectiveCapability} : authorize stack request kind trusted = .ok e ↔
    WellFormed stack request kind trusted ∧ (∀ scope ∈ stack.scopes, ∀ pin ∈ scope.pins, PinKept stack.scopes pin) ∧
      Within stack.scopes request.scope ∧ authority stack request = e := by
  simp only [authorize, seq_ok, mapError_ok, refuseIf_ok, checkKindFit_ok, checkPins_ok, checkScalarSelfGrant_ok,
    checkExcess_ok, not_and, Bool.not_eq_false, not_not, Except.ok.injEq]
  constructor
  · rintro ⟨stackOk, requestOk, trusted, narrow, fit, pins, ⟨agents, root⟩, caps, same⟩
    exact ⟨⟨stackOk, requestOk, trusted, narrow, fit⟩, pins, ⟨caps, agents, root⟩, same⟩
  · rintro ⟨⟨stackOk, requestOk, trusted, narrow, fit⟩, pins, ⟨caps, agents, root⟩, same⟩
    exact ⟨stackOk, requestOk, trusted, narrow, fit, pins, ⟨agents, root⟩, caps, same⟩

end Bitty.Plugin

namespace Bitty.Plugin

/-- A voice that allows less, denies more, lowers or adds a ceiling or withdraws privilege. -/
structure CapabilityScope.Tightens (before after : CapabilityScope) : Prop where
  caps : after.caps ⊆ before.caps
  denied : before.denied ⊆ after.denied
  maxAgents : ∀ ceiling, before.maxAgents = some ceiling → ∃ lower, after.maxAgents = some lower ∧ lower ≤ ceiling
  allowRoot : after.allowRoot = before.allowRoot ∨ after.allowRoot = some false ∨
    before.allowRoot = some true ∧ after.allowRoot = none
  pins : after.pins = before.pins
  closed : after.closed = before.closed
  source : after.source = before.source

theorem CapabilityScope.Tightens.refl (scope : CapabilityScope) : scope.Tightens scope :=
  ⟨Finset.Subset.refl _, Finset.Subset.refl _, fun ceiling named => ⟨ceiling, named, Nat.le_refl _⟩, .inl rfl, rfl, rfl, rfl⟩

/-- A tightening after which a layer that constrained capabilities still does. -/
structure CapabilityScope.Narrows (before after : CapabilityScope) : Prop where
  tighter : before.Tightens after
  speaks : before.constrainsCaps = true → after.constrainsCaps = true

/-- The layers of two stacks are related one by one. -/
structure EffectiveStack.Layerwise (R : CapabilityScope → CapabilityScope → Prop) (before after : EffectiveStack) : Prop where
  host : R before.host after.host
  user : R before.user after.user
  project : Option.Rel R before.project after.project
  parent : R before.parent after.parent
  task : R before.task after.task

theorem EffectiveStack.Layerwise.scopes {R : CapabilityScope → CapabilityScope → Prop} {before after : EffectiveStack}
    (layers : before.Layerwise R after) : List.Forall₂ R before.scopes after.scopes := by
  have ends : List.Forall₂ R [before.parent, before.task] [after.parent, after.task] :=
    .cons layers.parent (.cons layers.task .nil)
  rw [EffectiveStack.scopes_eq, EffectiveStack.scopes_eq]
  have project := layers.project
  generalize before.project = first at project
  generalize after.project = second at project
  cases project with
  | none => exact .cons layers.host (.cons layers.user ends)
  | some between => exact .cons layers.host (.cons layers.user (.cons between ends))

theorem exists_right {α β : Type} {R : α → β → Prop} {as : List α} {bs : List β} (related : List.Forall₂ R as bs) {a : α}
    (member : a ∈ as) : ∃ b ∈ bs, R a b := by
  induction related with
  | nil => cases member
  | cons first rest ih =>
    rcases List.mem_cons.mp member with rfl | later
    · exact ⟨_, List.mem_cons_self, first⟩
    · obtain ⟨b, present, found⟩ := ih later
      exact ⟨b, List.mem_cons_of_mem _ present, found⟩

theorem exists_left {α β : Type} {R : α → β → Prop} {as : List α} {bs : List β} (related : List.Forall₂ R as bs) {b : β}
    (member : b ∈ bs) : ∃ a ∈ as, R a b := exists_right related.flip member

variable {voices voices' : List CapabilityScope} {c : CapabilityId}

theorem Granted.of_narrows (narrower : List.Forall₂ CapabilityScope.Narrows voices voices') (granted : Granted voices' c) :
    Granted voices c := by
  refine ⟨?_, fun scope member speaks => ?_, fun scope member denied => ?_⟩
  · obtain ⟨scope', member', allowed⟩ := granted.allowed
    obtain ⟨scope, member, narrows⟩ := exists_left narrower member'
    exact ⟨scope, member, narrows.tighter.caps allowed⟩
  · obtain ⟨scope', member', narrows⟩ := exists_right narrower member
    exact narrows.tighter.caps (granted.everywhere scope' member' (narrows.speaks speaks))
  · obtain ⟨scope', member', narrows⟩ := exists_right narrower member
    exact granted.undenied scope' member' (narrows.tighter.denied denied)

/-- Where no layer names a ceiling, no added one is above the built-in. -/
def CeilingsAdded (voices voices' : List CapabilityScope) : Prop :=
  (∀ scope ∈ voices, scope.maxAgents = none) → ∀ scope ∈ voices', ∀ ceiling, scope.maxAgents = some ceiling →
    ceiling ≤ HOST_DEFAULT_MAX_AGENTS

theorem Fits.of_narrows {n : Nat} (narrower : List.Forall₂ CapabilityScope.Narrows voices voices')
    (added : CeilingsAdded voices voices') (fits : Fits voices' n) : Fits voices n := by
  refine ⟨fun scope member ceiling named => ?_, fun silent => ?_⟩
  · obtain ⟨scope', member', narrows⟩ := exists_right narrower member
    obtain ⟨lower, named', le⟩ := narrows.tighter.maxAgents ceiling named
    exact (fits.ceilings scope' member' lower named').trans le
  · by_cases silent' : ∀ scope ∈ voices', scope.maxAgents = none
    · exact fits.builtIn silent'
    · push Not at silent'
      obtain ⟨scope', member', spoken⟩ := silent'
      obtain ⟨ceiling, named⟩ := Option.ne_none_iff_exists'.mp spoken
      exact (fits.ceilings scope' member' ceiling named).trans (added silent scope' member' ceiling named)

theorem Rooted.of_narrows (narrower : List.Forall₂ CapabilityScope.Narrows voices voices') (rooted : Rooted voices') :
    Rooted voices := by
  obtain ⟨⟨scope', member', spoken⟩, unrefused⟩ := rooted
  refine ⟨?_, fun scope member refused => ?_⟩
  · obtain ⟨scope, member, narrows⟩ := exists_left narrower member'
    refine ⟨scope, member, fun silent => ?_⟩
    rcases narrows.tighter.allowRoot with same | refused | ⟨allowed, -⟩
    · exact spoken (same.trans silent)
    · exact unrefused scope' member' refused
    · rw [silent] at allowed
      cases allowed
  · obtain ⟨scope', member', narrows⟩ := exists_right narrower member
    rcases narrows.tighter.allowRoot with same | refused' | ⟨allowed, -⟩
    · exact unrefused scope' member' (same.trans refused)
    · exact unrefused scope' member' refused'
    · rw [refused] at allowed
      cases allowed

theorem Within.of_narrows {scope : CapabilityScope} (narrower : List.Forall₂ CapabilityScope.Narrows voices voices')
    (added : CeilingsAdded voices voices') (within : Within voices' scope) : Within voices scope :=
  ⟨fun c member => (within.caps c member).of_narrows narrower,
    fun want claimed => (within.maxAgents want claimed).of_narrows narrower added,
    fun claimed => (within.allowRoot claimed).of_narrows narrower⟩

theorem intersect_isSubsetOf (narrower : List.Forall₂ CapabilityScope.Narrows voices voices')
    (added : CeilingsAdded voices voices') : (intersect voices').IsSubsetOf (intersect voices) := by
  refine ⟨fun c member => ?_, ?_, fun allowed => ?_⟩
  · exact mem_intersect.mpr ((mem_intersect.mp member).of_narrows narrower)
  · exact le_intersect_maxAgents.mpr ((le_intersect_maxAgents.mp le_rfl).of_narrows narrower added)
  · exact intersect_allowRoot.mpr ((intersect_allowRoot.mp allowed).of_narrows narrower)

def ScalarPin (pin : Text) : Prop := pin = "max_agents".toList ∨ pin = "allow_root".toList

theorem PinKept.of_narrows {pin : Text} (narrower : List.Forall₂ CapabilityScope.Narrows voices voices')
    (other : ¬ScalarPin pin) (kept : PinKept voices' pin) : PinKept voices pin := by
  obtain ⟨agents, root⟩ := not_or.mp other
  unfold PinKept at kept ⊢
  rw [if_neg agents, if_neg root] at kept ⊢
  obtain ⟨pinned, parsed, allowed⟩ := kept
  refine ⟨pinned, parsed, fun scope member speaks => ?_⟩
  obtain ⟨scope', member', narrows⟩ := exists_right narrower member
  exact narrows.tighter.caps (allowed scope' member' (narrows.speaks speaks))

variable {stack stack' : EffectiveStack} {request : AgentRequest} {kind : RequestKind} {trusted : Bool}
  {e e' : EffectiveCapability}

theorem floorCeiling_mono {want : Option Nat} {low high : Nat} (le : low ≤ high) :
    floorCeiling want low ≤ floorCeiling want high := by
  cases want with
  | none => exact le
  | some want => exact min_le_min_left want le

theorem authority_isSubsetOf (narrower : (intersect stack'.scopes).IsSubsetOf (intersect stack.scopes)) :
    (authority stack' request).IsSubsetOf (authority stack request) := by
  refine ⟨Finset.Subset.refl _, floorCeiling_mono narrower.maxAgents, fun allowed => ?_⟩
  obtain ⟨claimed, rooted⟩ := (Bool.and_eq_true _ _).mp allowed
  exact (Bool.and_eq_true _ _).mpr ⟨claimed, narrower.allowRoot rooted⟩

theorem authorize_isSubsetOf (narrower : stack.Layerwise CapabilityScope.Narrows stack')
    (added : CeilingsAdded stack.scopes stack'.scopes) (granted : authorize stack request kind trusted = .ok e)
    (granted' : authorize stack' request kind trusted = .ok e') : e'.IsSubsetOf e := by
  obtain ⟨-, -, -, rfl⟩ := authorize_ok.mp granted
  obtain ⟨-, -, -, rfl⟩ := authorize_ok.mp granted'
  exact authority_isSubsetOf (intersect_isSubsetOf narrower.scopes added)

theorem authorize_of_narrows (narrower : stack.Layerwise CapabilityScope.Narrows stack')
    (added : CeilingsAdded stack.scopes stack'.scopes) (bounds : stack.validate = .ok ())
    (scalars : ∀ scope ∈ stack.scopes, ∀ pin ∈ scope.pins, ScalarPin pin → PinKept stack.scopes pin)
    (granted' : authorize stack' request kind trusted = .ok e') : ∃ e, authorize stack request kind trusted = .ok e := by
  obtain ⟨formed, pins, within, -⟩ := authorize_ok.mp granted'
  have present : stack.project.isSome → stack'.project.isSome := by
    have project := narrower.project
    generalize stack.project = first at project
    generalize stack'.project = second at project
    cases project with
    | none => exact id
    | some _ => exact fun _ => rfl
  have trust : stack.project.isSome → trusted = true := fun some => formed.trusted (present some)
  refine ⟨_, authorize_ok.mpr ⟨⟨bounds, formed.shape, trust, formed.narrow, formed.fits⟩, fun scope member pin pinned => ?_,
    within.of_narrows narrower.scopes added, rfl⟩⟩
  by_cases scalar : ScalarPin pin
  · exact scalars scope member pin pinned scalar
  · obtain ⟨scope', member', narrows⟩ := exists_right narrower.scopes member
    exact (pins scope' member' pin (narrows.tighter.pins ▸ pinned)).of_narrows narrower.scopes scalar

/-- What is authorized is within the request and every layer; a well-formed request within them is authorized; and narrower
layers authorize no more. -/
theorem authorize_exact (stack : EffectiveStack) (request : AgentRequest) (kind : RequestKind) (trusted : Bool) :
    (∀ e, authorize stack request kind trusted = .ok e →
      (∀ c ∈ e.caps, c ∈ request.scope.caps ∧ Granted stack.scopes c) ∧
      (∀ scope ∈ request.scope :: stack.scopes, ∀ ceiling, scope.maxAgents = some ceiling → e.maxAgents ≤ ceiling) ∧
      (e.allowRoot = true → request.scope.allowRoot = some true ∧ ∀ scope ∈ stack.scopes, scope.allowRoot ≠ some false)) ∧
    (WellFormed stack request kind trusted → (∀ scope ∈ stack.scopes, ∀ pin ∈ scope.pins, PinKept stack.scopes pin) →
      Within stack.scopes request.scope → ∃ e, authorize stack request kind trusted = .ok e) ∧
    ∀ stack', stack.Layerwise CapabilityScope.Narrows stack' → CeilingsAdded stack.scopes stack'.scopes →
      ∀ e', authorize stack' request kind trusted = .ok e' →
        (∀ e, authorize stack request kind trusted = .ok e → e'.IsSubsetOf e) ∧
        (stack.validate = .ok () →
          (∀ scope ∈ stack.scopes, ∀ pin ∈ scope.pins, ScalarPin pin → PinKept stack.scopes pin) →
          ∃ e, authorize stack request kind trusted = .ok e) := by
  refine ⟨fun e granted => ?_, fun formed pins within => ⟨_, authorize_ok.mpr ⟨formed, pins, within, rfl⟩⟩,
    fun stack' narrower added e' granted' => ⟨fun e granted => authorize_isSubsetOf narrower added granted granted',
      fun bounds scalars => authorize_of_narrows narrower added bounds scalars granted'⟩⟩
  obtain ⟨-, -, within, rfl⟩ := authorize_ok.mp granted
  refine ⟨fun c member => ⟨member, within.caps c member⟩, fun scope member ceiling named => ?_, fun allowed => ?_⟩
  · have fits := le_intersect_maxAgents.mp (Nat.le_refl (intersect stack.scopes).maxAgents)
    have floor : (authority stack request).maxAgents ≤ (intersect stack.scopes).maxAgents := by
      unfold authority floorCeiling
      cases request.scope.maxAgents with
      | none => exact Nat.le_refl _
      | some want => exact Nat.min_le_right _ _
    rcases List.mem_cons.mp member with rfl | layer
    · change floorCeiling request.scope.maxAgents _ ≤ ceiling
      rw [named]
      exact Nat.min_le_left _ _
    · exact floor.trans (fits.ceilings scope layer ceiling named)
  · obtain ⟨claimed, rooted⟩ := (Bool.and_eq_true _ _).mp allowed
    refine ⟨?_, (intersect_allowRoot.mp rooted).unrefused⟩
    cases root : request.scope.allowRoot with
    | none => simp [root] at claimed
    | some root' => simpa [root] using claimed

section

def clipboardRead : CapabilityId := ⟨"clipboard.read".toList, .core, by decide⟩

def clipboardWrite : CapabilityId := ⟨"clipboard.write".toList, .core, by decide⟩

def clipboardStack (user : Finset CapabilityId) (maxAgents : Option Nat) : EffectiveStack where
  host := { CapabilityScope.silent [] with caps := {clipboardRead, clipboardWrite}, maxAgents }
  user := { CapabilityScope.silent [] with caps := user }
  project := none
  parent := .silent []
  task := .silent []

/-- A user who withdraws the last allow says nothing any more, and the first ceiling replaces the built-in one. -/
theorem authorize_widened :
    (clipboardStack {clipboardRead} none).user.constrainsCaps = true ∧
      (clipboardStack {clipboardRead} none).Layerwise CapabilityScope.Tightens (clipboardStack ∅ none) ∧
      (authorize (clipboardStack {clipboardRead} none) ⟨{ CapabilityScope.silent [] with caps := {clipboardWrite} }, []⟩
        .pluginLifecycle true).toOption = none ∧
      (authorize (clipboardStack ∅ none) ⟨{ CapabilityScope.silent [] with caps := {clipboardWrite} }, []⟩
        .pluginLifecycle true).toOption = some ⟨{clipboardWrite}, 16, false⟩ ∧
      (clipboardStack ∅ none).Layerwise CapabilityScope.Tightens (clipboardStack ∅ (some 100)) ∧
      (authorize (clipboardStack ∅ (some 100)) ⟨{ CapabilityScope.silent [] with caps := {clipboardWrite} }, []⟩
        .pluginLifecycle true).toOption = some ⟨{clipboardWrite}, 100, false⟩ := by
  refine ⟨by decide, ⟨.refl _, ?_, .none, .refl _, .refl _⟩, by decide +kernel, by decide +kernel,
    ⟨?_, .refl _, .none, .refl _, .refl _⟩, by decide +kernel⟩
  · exact ⟨Finset.empty_subset _, Finset.Subset.refl _, nofun, .inl rfl, rfl, rfl, rfl⟩
  · exact ⟨Finset.Subset.refl _, Finset.Subset.refl _, nofun, .inl rfl, rfl, rfl, rfl⟩

end

end Bitty.Plugin
