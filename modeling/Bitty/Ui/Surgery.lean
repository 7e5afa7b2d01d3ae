import Bitty.Ui.Edit

namespace Bitty.Ui

namespace LayoutNode

variable {id : ViewId} {node first second base floated : LayoutNode} {children : List LayoutNode}

@[simp] theorem views_leaf (v : View) : (leaf v).views = [v] := rfl

@[simp] theorem views_split (axis : SplitAxis) (ratio : Binary32) :
    (split axis ratio first second).views = first.views ++ second.views := rfl

@[simp] theorem views_stack : (stack children).views = children.flatMap views := viewsOf_eq children

@[simp] theorem views_overlay (bounds : Rect) (tier : OverlayTier) :
    (overlay base floated bounds tier).views = base.views ++ floated.views := rfl

theorem views_of_isGone (gone : node.isGone) : node.views = [] := by
  cases node with
  | stack children =>
    cases children with
    | nil => rfl
    | cons c rest => cases gone
  | _ => cases gone

def without (id : ViewId) (views : List View) : List View := views.filter (·.id ≠ id)

@[simp] theorem without_append (id : ViewId) (xs ys : List View) : without id (xs ++ ys) = without id xs ++ without id ys :=
  List.filter_append ..

theorem without_eq_self {views : List View} (absent : id ∉ views.map (·.id)) : without id views = views := by
  rw [without, List.filter_eq_self]
  intro v member
  simp only [ne_eq, decide_eq_true_eq]
  exact fun same => absent (List.mem_map.mpr ⟨v, member, same⟩)

theorem removeLeaf_absent (absent : id ∉ node.leafIds) : removeLeaf id node = (node, none) := by
  unfold leafIds at absent
  induction node using LayoutNode.nodeInduction with
  | leaf v =>
    have other : v.id ≠ id := fun same => absent (by simp [same])
    simp [removeLeaf, other]
  | split axis ratio first second ih₁ ih₂ =>
    simp only [views_split, List.map_append, List.mem_append, not_or] at absent
    simp only [removeLeaf, ih₁ absent.1, ih₂ absent.2]
  | stack children ih =>
    simp only [removeLeaf]
    suffices removeFromStack id children = (children, none) by rw [this]
    induction children with
    | nil => rfl
    | cons c rest later =>
      simp only [views_stack, List.flatMap_cons, List.map_append, List.mem_append, not_or] at absent
      have elsewhere : containsLeaf id c = false := by
        rw [← Bool.not_eq_true, containsLeaf_iff]
        exact absent.1
      have tail := later (fun d member => ih d (List.mem_cons_of_mem _ member)) (by simpa using absent.2)
      simp [removeFromStack, elsewhere, tail]
  | overlay base floated bounds tier ih₁ ih₂ =>
    simp only [views_overlay, List.map_append, List.mem_append, not_or] at absent
    simp only [removeLeaf, ih₁ absent.1, ih₂ absent.2]

theorem nodup_parts {xs ys : List View} (distinct : ((xs ++ ys).map (·.id)).Nodup) :
    (xs.map (·.id)).Nodup ∧ (ys.map (·.id)).Nodup ∧
      ∀ {id}, id ∈ xs.map (·.id) → id ∉ ys.map (·.id) := by
  rw [List.map_append, List.nodup_append] at distinct
  exact ⟨distinct.1, distinct.2.1, fun left right => distinct.2.2 _ left _ right rfl⟩

theorem mem_parts {xs ys : List View} (present : id ∈ (xs ++ ys).map (·.id)) :
    id ∈ xs.map (·.id) ∨ id ∉ xs.map (·.id) ∧ id ∈ ys.map (·.id) := by
  rw [List.map_append, List.mem_append] at present
  tauto

theorem findLeaf_absent (absent : id ∉ node.leafIds) : findLeaf id node = none := by
  rw [findLeaf_eq, List.find?_eq_none]
  intro v member same
  exact absent (List.mem_map.mpr ⟨v, member, by simpa using same⟩)

theorem removeLeaf_present (distinct : node.leafIds.Nodup) (present : id ∈ node.leafIds) :
    ∃ v rest, removeLeaf id node = (rest, some v) ∧ findLeaf id node = some v ∧
      rest.views = without id node.views := by
  unfold leafIds at distinct present
  induction node using LayoutNode.nodeInduction with
  | leaf v =>
    have same : v.id = id := by simpa [eq_comm] using present
    exact ⟨v, .stack [], by simp [removeLeaf, same], by simp [findLeaf, same], by simp [without, same]⟩
  | split axis ratio first second ih₁ ih₂ =>
    obtain ⟨distinct₁, distinct₂, apart⟩ := nodup_parts distinct
    rcases mem_parts present with inFirst | ⟨notFirst, inSecond⟩
    · obtain ⟨v, rest, removed, found, left⟩ := ih₁ distinct₁ inFirst
      refine ⟨v, _, by simp only [removeLeaf, removed]; rfl, by simp [findLeaf, found], ?_⟩
      rw [views_split, without_append, without_eq_self (apart inFirst), ← left]
      split
      · rename_i gone
        rw [views_of_isGone gone, List.nil_append]
      · rfl
    · obtain ⟨v, rest, removed, found, left⟩ := ih₂ distinct₂ inSecond
      have skipped := @removeLeaf_absent id first notFirst
      have missed := @findLeaf_absent id first notFirst
      refine ⟨v, _, by simp only [removeLeaf, skipped, removed]; rfl, by simp [findLeaf, missed, found], ?_⟩
      rw [views_split, without_append, without_eq_self notFirst, ← left]
      split
      · rename_i gone
        rw [views_of_isGone gone, List.append_nil]
      · rfl
  | stack children ih =>
    simp only [views_stack] at distinct present
    suffices ∃ v rest, removeFromStack id children = (rest, some v) ∧ findLeafOf id children = some v ∧
        rest.flatMap views = without id (children.flatMap views) by
      obtain ⟨v, rest, removed, found, left⟩ := this
      exact ⟨v, .stack rest, by simp only [removeLeaf, removed], found, by rw [views_stack, views_stack, left]⟩
    induction children with
    | nil => simp at present
    | cons c rest later =>
      rw [List.flatMap_cons] at distinct present
      obtain ⟨distinct₁, distinct₂, apart⟩ := nodup_parts distinct
      rcases mem_parts present with inHead | ⟨notHead, inTail⟩
      · obtain ⟨v, left, removed, found, views⟩ := ih c (by simp) distinct₁ inHead
        have here : containsLeaf id c := containsLeaf_iff.mpr inHead
        refine ⟨v, _, by simp only [removeFromStack, if_pos here, removed]; rfl, by simp [findLeafOf, found], ?_⟩
        rw [List.flatMap_cons, without_append, without_eq_self (apart inHead), ← views]
        split
        · rename_i gone
          rw [views_of_isGone gone, List.nil_append]
        · rfl
      · obtain ⟨v, left, removed, found, views⟩ :=
          later (fun d member => ih d (List.mem_cons_of_mem _ member)) distinct₂ inTail
        have elsewhere : ¬ containsLeaf id c := fun here => notHead (containsLeaf_iff.mp here)
        have missed := @findLeaf_absent id c notHead
        refine ⟨v, c :: left, by simp only [removeFromStack, if_neg elsewhere, removed], ?_, ?_⟩
        · simp [findLeafOf, missed, found]
        · rw [List.flatMap_cons, List.flatMap_cons, without_append, without_eq_self notHead, views]
  | overlay base floated bounds tier ih₁ ih₂ =>
    obtain ⟨distinct₁, distinct₂, apart⟩ := nodup_parts distinct
    rcases mem_parts present with inBase | ⟨notBase, inOver⟩
    · obtain ⟨v, rest, removed, found, left⟩ := ih₁ distinct₁ inBase
      refine ⟨v, _, by simp only [removeLeaf, removed]; rfl, by simp [findLeaf, found], ?_⟩
      rw [views_overlay, views_overlay, without_append, without_eq_self (apart inBase), left]
    · obtain ⟨v, rest, removed, found, left⟩ := ih₂ distinct₂ inOver
      have skipped := @removeLeaf_absent id base notBase
      have missed := @findLeaf_absent id base notBase
      refine ⟨v, _, by simp only [removeLeaf, skipped, removed]; rfl, by simp [findLeaf, missed, found], ?_⟩
      rw [views_overlay, without_append, without_eq_self notBase, ← left]
      split
      · rename_i gone
        rw [views_of_isGone gone, List.append_nil]
      · rfl

def neighbours (after : Bool) (s dragged : View) : List View := if after then [s, dragged] else [dragged, s]

section

variable {sibling : ViewId} {dragged : View} {axis : SplitAxis} {ratio : Binary32} {after : Bool}

theorem insertBeside_absent (absent : sibling ∉ node.leafIds) :
    insertBeside sibling dragged axis ratio after node = (node, false) := by
  unfold leafIds at absent
  induction node using LayoutNode.nodeInduction with
  | leaf v =>
    have other : v.id ≠ sibling := fun same => absent (by simp [same])
    simp [insertBeside, other]
  | split axis' ratio' first second ih₁ ih₂ =>
    simp only [views_split, List.map_append, List.mem_append, not_or] at absent
    simp [insertBeside, ih₁ absent.1, ih₂ absent.2]
  | stack children ih =>
    simp only [insertBeside]
    suffices insertInStack sibling dragged axis ratio after children = (children, false) by rw [this]
    induction children with
    | nil => rfl
    | cons c rest later =>
      simp only [views_stack, List.flatMap_cons, List.map_append, List.mem_append, not_or] at absent
      have head := ih c (by simp) absent.1
      have tail := later (fun d member => ih d (List.mem_cons_of_mem _ member)) (by simpa using absent.2)
      simp [insertInStack, head, tail]
  | overlay base floated bounds tier ih₁ ih₂ =>
    simp only [views_overlay, List.map_append, List.mem_append, not_or] at absent
    simp [insertBeside, ih₁ absent.1, ih₂ absent.2]

theorem insertBeside_present (present : sibling ∈ node.leafIds) :
    ∃ out before s rest, insertBeside sibling dragged axis ratio after node = (out, true) ∧ s.id = sibling ∧
      node.views = before ++ s :: rest ∧ out.views = before ++ neighbours after s dragged ++ rest := by
  unfold leafIds at present
  induction node using LayoutNode.nodeInduction with
  | leaf v =>
    have same : v.id = sibling := by simpa [eq_comm] using present
    refine ⟨_, [], v, [], by simp only [insertBeside, if_pos same]; rfl, same, rfl, ?_⟩
    cases after <;> rfl
  | split axis' ratio' first second ih₁ ih₂ =>
    rcases mem_parts present with inFirst | ⟨notFirst, inSecond⟩
    · obtain ⟨out, before, s, rest, placed, same, views, views'⟩ := ih₁ inFirst
      refine ⟨.split axis' ratio' out second, before, s, rest ++ second.views, ?_, same, ?_, ?_⟩
      · simp [insertBeside, placed]
      · simp [views]
      · simp [views']
    · obtain ⟨out, before, s, rest, placed, same, views, views'⟩ := ih₂ inSecond
      have skipped := @insertBeside_absent first sibling dragged axis ratio after notFirst
      refine ⟨.split axis' ratio' first out, first.views ++ before, s, rest, ?_, same, ?_, ?_⟩
      · simp [insertBeside, skipped, placed]
      · simp [views]
      · simp [views']
  | stack children ih =>
    simp only [views_stack] at present
    suffices ∃ out before s rest, insertInStack sibling dragged axis ratio after children = (out, true) ∧
        s.id = sibling ∧ children.flatMap views = before ++ s :: rest ∧
        out.flatMap views = before ++ neighbours after s dragged ++ rest by
      obtain ⟨out, before, s, rest, placed, same, views, views'⟩ := this
      exact ⟨.stack out, before, s, rest, by simp only [insertBeside, placed], same, by rw [views_stack, views],
        by rw [views_stack, views']⟩
    induction children with
    | nil => simp at present
    | cons c others later =>
      rw [List.flatMap_cons] at present
      rcases mem_parts present with inHead | ⟨notHead, inTail⟩
      · obtain ⟨out, before, s, rest, placed, same, views, views'⟩ := ih c (by simp) inHead
        refine ⟨out :: others, before, s, rest ++ others.flatMap LayoutNode.views, ?_, same, ?_, ?_⟩
        · simp [insertInStack, placed]
        · simp [views]
        · simp [views']
      · obtain ⟨out, before, s, rest, placed, same, views, views'⟩ :=
          later (fun d member => ih d (List.mem_cons_of_mem _ member)) inTail
        have skipped := @insertBeside_absent c sibling dragged axis ratio after notHead
        refine ⟨c :: out, c.views ++ before, s, rest, ?_, same, ?_, ?_⟩
        · simp [insertInStack, skipped, placed]
        · simp [views]
        · simp [views']
  | overlay base floated bounds tier ih₁ ih₂ =>
    rcases mem_parts present with inBase | ⟨notBase, inOver⟩
    · obtain ⟨out, before, s, rest, placed, same, views, views'⟩ := ih₁ inBase
      refine ⟨.overlay out floated bounds tier, before, s, rest ++ floated.views, ?_, same, ?_, ?_⟩
      · simp [insertBeside, placed]
      · simp [views]
      · simp [views']
    · obtain ⟨out, before, s, rest, placed, same, views, views'⟩ := ih₂ inOver
      have skipped := @insertBeside_absent base sibling dragged axis ratio after notBase
      refine ⟨.overlay base out bounds tier, base.views ++ before, s, rest, ?_, same, ?_, ?_⟩
      · simp [insertBeside, skipped, placed]
      · simp [views]
      · simp [views']

end

mutual

@[simp] def mapViews (f : View → View) : LayoutNode → LayoutNode
  | .leaf v => .leaf (f v)
  | .split axis ratio first second => .split axis ratio (mapViews f first) (mapViews f second)
  | .stack children => .stack (mapViewsOf f children)
  | .overlay base floated bounds tier => .overlay (mapViews f base) (mapViews f floated) bounds tier

@[simp] def mapViewsOf (f : View → View) : List LayoutNode → List LayoutNode
  | [] => []
  | c :: rest => mapViews f c :: mapViewsOf f rest

end

theorem mapViewsOf_eq (f : View → View) (children : List LayoutNode) :
    mapViewsOf f children = children.map (mapViews f) := by
  induction children with
  | nil => rfl
  | cons c rest ih => simp [mapViewsOf, ih]

@[simp] theorem views_mapViews (f : View → View) (node : LayoutNode) : (mapViews f node).views = node.views.map f := by
  induction node using LayoutNode.nodeInduction with
  | leaf v => rfl
  | split axis ratio first second ih₁ ih₂ => simp [mapViews, ih₁, ih₂]
  | stack children ih =>
    rw [mapViews, mapViewsOf_eq, views_stack, views_stack, List.flatMap_map, List.map_flatMap]
    exact List.flatMap_congr ih
  | overlay base floated bounds tier ih₁ ih₂ => simp [mapViews, ih₁, ih₂]

@[simp] theorem mapViews_mapViews (f g : View → View) (node : LayoutNode) :
    mapViews f (mapViews g node) = mapViews (f ∘ g) node := by
  induction node using LayoutNode.nodeInduction with
  | leaf v => rfl
  | split axis ratio first second ih₁ ih₂ => simp [mapViews, ih₁, ih₂]
  | stack children ih =>
    simp only [mapViews, mapViewsOf_eq, List.map_map, stack.injEq]
    exact List.map_congr_left fun c member => ih c member
  | overlay base floated bounds tier ih₁ ih₂ => simp [mapViews, ih₁, ih₂]

theorem mapViews_congr {f g : View → View} (same : ∀ v ∈ node.views, f v = g v) :
    mapViews f node = mapViews g node := by
  induction node using LayoutNode.nodeInduction with
  | leaf v => simpa [mapViews] using same
  | split axis ratio first second ih₁ ih₂ =>
    simp only [views_split, List.mem_append] at same
    rw [mapViews, mapViews, ih₁ fun v m => same v (.inl m), ih₂ fun v m => same v (.inr m)]
  | stack children ih =>
    simp only [views_stack, List.mem_flatMap] at same
    rw [mapViews, mapViews, mapViewsOf_eq, mapViewsOf_eq, stack.injEq]
    exact List.map_congr_left fun c member => ih c member fun v m => same v ⟨c, member, m⟩
  | overlay base floated bounds tier ih₁ ih₂ =>
    simp only [views_overlay, List.mem_append] at same
    rw [mapViews, mapViews, ih₁ fun v m => same v (.inl m), ih₂ fun v m => same v (.inr m)]

theorem mapViews_self {f : View → View} (same : ∀ v ∈ node.views, f v = v) : mapViews f node = node := by
  induction node using LayoutNode.nodeInduction with
  | leaf v => simpa [mapViews] using same
  | split axis ratio first second ih₁ ih₂ =>
    simp only [views_split, List.mem_append] at same
    rw [mapViews, ih₁ fun v m => same v (.inl m), ih₂ fun v m => same v (.inr m)]
  | stack children ih =>
    simp only [views_stack, List.mem_flatMap] at same
    rw [mapViews, mapViewsOf_eq, stack.injEq]
    have kept : ∀ c ∈ children, mapViews f c = id c := fun c member => ih c member fun v m => same v ⟨c, member, m⟩
    rw [List.map_congr_left kept, List.map_id]
  | overlay base floated bounds tier ih₁ ih₂ =>
    simp only [views_overlay, List.mem_append] at same
    rw [mapViews, ih₁ fun v m => same v (.inl m), ih₂ fun v m => same v (.inr m)]

def replace (id : ViewId) (new v : View) : View := if v.id = id then new else v

theorem mapViews_replace_absent {new : View} (absent : id ∉ node.leafIds) :
    mapViews (replace id new) node = node := by
  refine mapViews_self fun v member => ?_
  exact if_neg fun same => absent (List.mem_map.mpr ⟨v, member, same⟩)

theorem assignLeaf_absent {new : View} (absent : id ∉ node.leafIds) : assignLeaf id new node = none := by
  unfold leafIds at absent
  induction node using LayoutNode.nodeInduction with
  | leaf v =>
    have other : v.id ≠ id := fun same => absent (by simp [same])
    simp [assignLeaf, other]
  | split axis ratio first second ih₁ ih₂ =>
    simp only [views_split, List.map_append, List.mem_append, not_or] at absent
    simp [assignLeaf, ih₁ absent.1, ih₂ absent.2]
  | stack children ih =>
    simp only [assignLeaf, Option.map_eq_none_iff]
    induction children with
    | nil => rfl
    | cons c rest later =>
      simp only [views_stack, List.flatMap_cons, List.map_append, List.mem_append, not_or] at absent
      have head := ih c (by simp) absent.1
      have tail := later (fun d member => ih d (List.mem_cons_of_mem _ member)) (by simpa using absent.2)
      simp [assignInStack, head, tail]
  | overlay base floated bounds tier ih₁ ih₂ =>
    simp only [views_overlay, List.map_append, List.mem_append, not_or] at absent
    simp [assignLeaf, ih₁ absent.1, ih₂ absent.2]

theorem assignLeaf_present {new : View} (distinct : node.leafIds.Nodup) (present : id ∈ node.leafIds) :
    assignLeaf id new node = some (mapViews (replace id new) node) := by
  unfold leafIds at distinct present
  induction node using LayoutNode.nodeInduction with
  | leaf v =>
    have same : v.id = id := by simpa [eq_comm] using present
    simp [assignLeaf, mapViews, replace, same]
  | split axis ratio first second ih₁ ih₂ =>
    obtain ⟨distinct₁, distinct₂, apart⟩ := nodup_parts distinct
    rcases mem_parts present with inFirst | ⟨notFirst, inSecond⟩
    · have kept := @mapViews_replace_absent id second new (apart inFirst)
      simp [assignLeaf, ih₁ distinct₁ inFirst, mapViews, kept]
    · have kept := @mapViews_replace_absent id first new notFirst
      have missed := @assignLeaf_absent id first new notFirst
      simp [assignLeaf, missed, ih₂ distinct₂ inSecond, mapViews, kept]
  | stack children ih =>
    simp only [views_stack] at distinct present
    suffices assignInStack id new children = some (mapViewsOf (replace id new) children) by
      simp [assignLeaf, mapViews, this]
    induction children with
    | nil => simp at present
    | cons c rest later =>
      rw [List.flatMap_cons] at distinct present
      obtain ⟨distinct₁, distinct₂, apart⟩ := nodup_parts distinct
      rcases mem_parts present with inHead | ⟨notHead, inTail⟩
      · have kept : mapViews (replace id new) (stack rest) = stack rest :=
          mapViews_replace_absent (by simpa [leafIds] using apart inHead)
        rw [mapViews, stack.injEq] at kept
        simp [assignInStack, ih c (by simp) distinct₁ inHead, mapViewsOf, kept]
      · have kept := @mapViews_replace_absent id c new notHead
        have missed := @assignLeaf_absent id c new notHead
        have tail := later (fun d member => ih d (List.mem_cons_of_mem _ member)) distinct₂ inTail
        simp [assignInStack, missed, tail, mapViewsOf, kept]
  | overlay base floated bounds tier ih₁ ih₂ =>
    obtain ⟨distinct₁, distinct₂, apart⟩ := nodup_parts distinct
    rcases mem_parts present with inBase | ⟨notBase, inOver⟩
    · have kept := @mapViews_replace_absent id floated new (apart inBase)
      simp [assignLeaf, ih₁ distinct₁ inBase, mapViews, kept]
    · have kept := @mapViews_replace_absent id base new notBase
      have missed := @assignLeaf_absent id base new notBase
      simp [assignLeaf, missed, ih₂ distinct₂ inOver, mapViews, kept]

theorem findLeaf_present (present : id ∈ node.leafIds) : ∃ v, findLeaf id node = some v ∧ v.id = id := by
  obtain ⟨w, member, same⟩ := List.mem_map.mp present
  have found : (node.views.find? (·.id = id)).isSome := by
    rw [List.find?_isSome]
    exact ⟨w, member, by simpa using same⟩
  obtain ⟨v, at_v⟩ := Option.isSome_iff_exists.mp found
  exact ⟨v, by rw [findLeaf_eq, at_v], by simpa using List.find?_some at_v⟩

theorem leafIds_mapViews_replace (id : ViewId) (new : View) (node : LayoutNode) :
    (mapViews (replace id new) node).leafIds = node.leafIds.map fun i => if i = id then new.id else i := by
  simp only [leafIds, views_mapViews, List.map_map]
  refine List.map_congr_left fun v _ => ?_
  simp only [Function.comp_apply, replace]
  split <;> rfl

theorem nodup_mapViews_replace {new : View} (distinct : node.leafIds.Nodup) (fresh : new.id ∉ node.leafIds) :
    (mapViews (replace id new) node).leafIds.Nodup := by
  rw [leafIds_mapViews_replace]
  refine List.Nodup.map_on (fun i inI j inJ same => ?_) distinct
  have apartI : i ≠ new.id := fun eq => fresh (eq ▸ inI)
  have apartJ : j ≠ new.id := fun eq => fresh (eq ▸ inJ)
  grind

def exchange (a b : ViewId) (viewA viewB v : View) : View := if v.id = a then viewB else if v.id = b then viewA else v

theorem swapLeaves_present {a b : ViewId} (distinct : node.leafIds.Nodup) (different : a ≠ b)
    (inA : a ∈ node.leafIds) (inB : b ∈ node.leafIds) (unparked : SENTINEL ∉ node.leafIds) :
    ∃ viewA viewB, findLeaf a node = some viewA ∧ findLeaf b node = some viewB ∧
      swapLeaves a b node = (mapViews (exchange a b viewA viewB) node, true) := by
  obtain ⟨viewA, foundA, idA⟩ := findLeaf_present inA
  obtain ⟨viewB, foundB, idB⟩ := findLeaf_present inB
  refine ⟨viewA, viewB, foundA, foundB, ?_⟩
  have apartA : a ≠ SENTINEL := fun same => unparked (same ▸ inA)
  have apartB : b ≠ SENTINEL := fun same => unparked (same ▸ inB)
  have mark : (View.new SENTINEL 1 1).id = SENTINEL := rfl
  -- the parked tree holds the sentinel in the place of `a`
  set parked := mapViews (replace a (.new SENTINEL 1 1)) node with hparked
  have ids₁ : parked.leafIds = node.leafIds.map fun i => if i = a then SENTINEL else i :=
    leafIds_mapViews_replace a _ node
  have first := @assignLeaf_present a node (.new SENTINEL 1 1) distinct inA
  rw [← hparked] at first
  have distinct₁ : parked.leafIds.Nodup := nodup_mapViews_replace distinct unparked
  have inB₁ : b ∈ parked.leafIds := by
    rw [ids₁, List.mem_map]
    exact ⟨b, inB, if_neg (Ne.symm different)⟩
  have fresh : viewA.id ∉ parked.leafIds := by
    rw [ids₁, List.mem_map, idA]
    rintro ⟨i, _, eq⟩
    split at eq
    · exact apartA eq.symm
    · contradiction
  have second := @assignLeaf_present b parked viewA distinct₁ inB₁
  set half := mapViews (replace b viewA) parked with hhalf
  have ids₂ : half.leafIds = parked.leafIds.map fun i => if i = b then viewA.id else i :=
    leafIds_mapViews_replace b _ parked
  have distinct₂ : half.leafIds.Nodup := nodup_mapViews_replace distinct₁ fresh
  have inMark : SENTINEL ∈ half.leafIds := by
    rw [ids₂, List.mem_map]
    refine ⟨SENTINEL, ?_, if_neg (Ne.symm apartB)⟩
    rw [ids₁, List.mem_map]
    exact ⟨a, inA, if_pos rfl⟩
  have third := @assignLeaf_present SENTINEL half viewB distinct₂ inMark
  have together : mapViews (replace SENTINEL viewB) half = mapViews (exchange a b viewA viewB) node := by
    rw [hhalf, hparked, mapViews_mapViews, mapViews_mapViews]
    refine mapViews_congr fun v member => ?_
    have apart : v.id ≠ SENTINEL := fun same => unparked (List.mem_map.mpr ⟨v, member, same⟩)
    simp only [Function.comp_apply, replace, exchange]
    grind
  have outside : ¬ (a = b || containsLeaf SENTINEL node) = true := by
    simp only [Bool.or_eq_true, decide_eq_true_eq, containsLeaf_iff, not_or]
    exact ⟨different, unparked⟩
  have inside : ¬ (!containsLeaf a node || !containsLeaf b node) = true := by
    simp [containsLeaf_iff.mpr inA, containsLeaf_iff.mpr inB]
  simp only [swapLeaves, if_neg outside, if_neg inside, foundA, foundB, first, second, third, together]

end LayoutNode

end Bitty.Ui
