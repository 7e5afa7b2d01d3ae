import Bitty.Library.Recent
import Bitty.Ui.Keeps

/-! Pointer drags that change a tree of panes: moves within a tree, resizes, and drops into another workspace. -/

namespace Bitty.Ui

open LayoutNode Text

def DRAG_HISTORY_CAP : Nat := 32

def DRAG_MOVE_CMD : Text := "bitty.workspace:drag-move".toList

def DRAG_RESIZE_CMD : Text := "bitty.workspace:drag-resize".toList

def WORKSPACE_DROP_CMD : Text := "bitty.workspace:drop".toList

def MAX_VIEWS_PER_WORKSPACE_TREE : Nat := 32

abbrev DragHistory := Undo.History LayoutNode DRAG_HISTORY_CAP

abbrev PanelId := Nat

structure CommandRegistry where
  commands : Text → Option PanelId

def CommandRegistry.ownerOf (registry : CommandRegistry) (command : Text) : Option PanelId := registry.commands command

structure DropSpec where
  target : ViewId
  axis : SplitAxis
  ratio : Binary32
  after : Bool

structure CrossWorkspaceDrop where
  id : ViewId
  anchor : DropSpec

inductive DragMoveError
  | modNotHeld
  | unknownCommand (command : Text)
  | unregistered (command : Text)
  | sourceNotFound (id : ViewId)
  | targetNotFound (id : ViewId)
  | selfDrop

inductive DragResizeError
  | unknownCommand (command : Text)
  | unregistered (command : Text)
  | badHandle

inductive CrossWorkspaceError
  | unknownCommand (command : Text)
  | unregistered (command : Text)
  | sourceNotFound (id : ViewId)
  | anchorNotFound (id : ViewId)
  | destinationFull (max : Nat)

namespace LayoutNode

/-- The split at a path: for a split 0 is the first child, for an overlay the base. -/
def splitRatioAt : List Nat → LayoutNode → Option Binary32
  | [], .split _ ratio _ _ => some ratio
  | [], _ => none
  | 0 :: rest, .split _ _ first _ => splitRatioAt rest first
  | 1 :: rest, .split _ _ _ second => splitRatioAt rest second
  | idx :: rest, .stack children => (children[idx]?).bind (splitRatioAt rest)
  | 0 :: rest, .overlay base _ _ _ => splitRatioAt rest base
  | 1 :: rest, .overlay _ floated _ _ => splitRatioAt rest floated
  | _ :: _, _ => none

def setSplitRatioAtInner (clamped : Binary32) : List Nat → LayoutNode → LayoutNode × Bool
  | [], .split axis _ first second => (.split axis clamped first second, true)
  | [], node => (node, false)
  | 0 :: rest, .split axis ratio first second =>
    let (first, done) := setSplitRatioAtInner clamped rest first
    (.split axis ratio first second, done)
  | 1 :: rest, .split axis ratio first second =>
    let (second, done) := setSplitRatioAtInner clamped rest second
    (.split axis ratio first second, done)
  | idx :: rest, .stack children =>
    match children[idx]? with
    | some child =>
      let (child, done) := setSplitRatioAtInner clamped rest child
      (.stack (children.set idx child), done)
    | none => (.stack children, false)
  | 0 :: rest, .overlay base floated bounds tier =>
    let (base, done) := setSplitRatioAtInner clamped rest base
    (.overlay base floated bounds tier, done)
  | 1 :: rest, .overlay base floated bounds tier =>
    let (floated, done) := setSplitRatioAtInner clamped rest floated
    (.overlay base floated bounds tier, done)
  | _ :: _, node => (node, false)

def setSplitRatioAt (path : List Nat) (newRatio : Binary32) (node : LayoutNode) : LayoutNode × Bool :=
  setSplitRatioAtInner (clampRatio newRatio) path node

/-- The offset is cast to 16 bits before it is divided. -/
def resizeSplitByDrag (path : List Nat) (deltaCells : Int) (totalCells : Nat) (node : LayoutNode) : LayoutNode × Bool :=
  if totalCells = 0 then (node, false)
  else
    match splitRatioAt path node with
    | none => (node, false)
    | some current => setSplitRatioAt path (current.add (Binary32.round (deltaCells.bmod 65536 / totalCells))) node

end LayoutNode

def dragCommit (source : ViewId) (tree : LayoutNode) (history : DragHistory) (registry : CommandRegistry) (command : Text)
    (drop : DropSpec) : LayoutNode × DragHistory × Except DragMoveError Unit :=
  if command ≠ DRAG_MOVE_CMD then (tree, history, .error (.unknownCommand command))
  else if registry.ownerOf command = none then (tree, history, .error (.unregistered command))
  else if source = drop.target then (tree, history, .error .selfDrop)
  else if findLeaf source tree = none then (tree, history, .error (.sourceNotFound source))
  else if findLeaf drop.target tree = none then (tree, history, .error (.targetNotFound drop.target))
  else
    match reparentLeaf source drop.target drop.axis drop.ratio drop.after tree with
    | (moved, true) => (moved, history.push tree, .ok ())
    | (moved, false) =>
      let (restored, history, _) := (history.push tree).undo moved
      (restored, history, .error (.targetNotFound drop.target))

def applyTiledResize (tree : LayoutNode) (history : DragHistory) (registry : CommandRegistry) (command : Text)
    (path : List Nat) (deltaCells : Int) (totalCells : Nat) : LayoutNode × DragHistory × Except DragResizeError Unit :=
  if command ≠ DRAG_RESIZE_CMD then (tree, history, .error (.unknownCommand command))
  else if registry.ownerOf command = none then (tree, history, .error (.unregistered command))
  else if totalCells = 0 ∨ splitRatioAt path tree = none then (tree, history, .error .badHandle)
  else
    match resizeSplitByDrag path deltaCells totalCells tree with
    | (resized, true) => (resized, history.push tree, .ok ())
    | (resized, false) =>
      let (restored, history, _) := (history.push tree).undo resized
      (restored, history, .error .badHandle)

def restoreDetached (tree : LayoutNode) (view : View) : LayoutNode :=
  match tree.leafIds with
  | [] => .leaf view
  | first :: _ =>
    match insertBeside first view .horizontal (.finite (1 / 2)) true tree with
    | (restored, true) => restored
    | (old, false) => clampedSplit .horizontal (.finite (1 / 2)) old (.leaf view)

structure Drop where
  src : LayoutNode
  srcHistory : DragHistory
  dst : LayoutNode
  dstHistory : DragHistory
  result : Except CrossWorkspaceError Unit

def moveLeafToWorkspace (src : LayoutNode) (srcHistory : DragHistory) (dst : LayoutNode) (dstHistory : DragHistory)
    (registry : CommandRegistry) (command : Text) (drop : CrossWorkspaceDrop) : Drop :=
  let refuse (e : CrossWorkspaceError) : Drop := ⟨src, srcHistory, dst, dstHistory, .error e⟩
  if command ≠ WORKSPACE_DROP_CMD then refuse (.unknownCommand command)
  else if registry.ownerOf command = none then refuse (.unregistered command)
  else if findLeaf drop.id src = none then refuse (.sourceNotFound drop.id)
  else if findLeaf drop.anchor.target dst = none then refuse (.anchorNotFound drop.anchor.target)
  else if MAX_VIEWS_PER_WORKSPACE_TREE < dst.leafCount + 1 then refuse (.destinationFull MAX_VIEWS_PER_WORKSPACE_TREE)
  else
    match removeLeaf drop.id src with
    | (rest, none) =>
      let (src, srcHistory, _) := (srcHistory.push src).undo rest
      let (dst, dstHistory, _) := (dstHistory.push dst).undo dst
      ⟨src, srcHistory, dst, dstHistory, .error (.sourceNotFound drop.id)⟩
    | (rest, some view) =>
      match insertBeside drop.anchor.target view drop.anchor.axis drop.anchor.ratio drop.anchor.after dst with
      | (docked, true) => ⟨rest, srcHistory.push src, docked, dstHistory.push dst, .ok ()⟩
      | (docked, false) =>
        let (dst, dstHistory, _) := (dstHistory.push dst).undo docked
        ⟨restoreDetached rest view, srcHistory.push src, dst, dstHistory, .error (.anchorNotFound drop.anchor.target)⟩

namespace LayoutNode

variable {part node first second base floated : LayoutNode}

inductive Occurs (part : LayoutNode) : LayoutNode → Prop
  | here : Occurs part part
  | first (axis : SplitAxis) (ratio : Binary32) {first : LayoutNode} (second : LayoutNode) (inside : Occurs part first) :
    Occurs part (.split axis ratio first second)
  | second (axis : SplitAxis) (ratio : Binary32) (first : LayoutNode) {second : LayoutNode} (inside : Occurs part second) :
    Occurs part (.split axis ratio first second)
  | child {children : List LayoutNode} {c : LayoutNode} (member : c ∈ children) (inside : Occurs part c) :
    Occurs part (.stack children)
  | base {base : LayoutNode} (floated : LayoutNode) (bounds : Rect) (tier : OverlayTier) (inside : Occurs part base) :
    Occurs part (.overlay base floated bounds tier)
  | floated (base : LayoutNode) {floated : LayoutNode} (bounds : Rect) (tier : OverlayTier)
    (inside : Occurs part floated) : Occurs part (.overlay base floated bounds tier)

/-- The split of two leaves alone: a dragged view and the anchor it went beside. -/
def pairOf (axis : SplitAxis) (ratio : Binary32) (after : Bool) (anchor dragged : View) : LayoutNode :=
  if after then clampedSplit axis ratio (.leaf anchor) (.leaf dragged)
  else clampedSplit axis ratio (.leaf dragged) (.leaf anchor)

section

variable {sibling : ViewId} {dragged : View} {axis : SplitAxis} {ratio : Binary32} {after : Bool}

theorem findLeaf_of_missed (missed : (insertBeside sibling dragged axis ratio after node).2 = false) :
    findLeaf sibling node = none := by
  refine findLeaf_absent fun present => ?_
  obtain ⟨out, _, _, _, placed, _⟩ := @insertBeside_present _ _ dragged axis ratio after present
  rw [placed] at missed
  cases missed

theorem insertBeside_occurs (placed : (insertBeside sibling dragged axis ratio after node).2 = true) :
    ∃ s, findLeaf sibling node = some s ∧
      Occurs (pairOf axis ratio after s dragged) (insertBeside sibling dragged axis ratio after node).1 := by
  induction node using LayoutNode.nodeInduction with
  | leaf v =>
    by_cases same : v.id = sibling
    · refine ⟨v, by simp [findLeaf, same], ?_⟩
      simp only [insertBeside, if_pos same]
      exact .here
    · simp [insertBeside, same] at placed
  | split axis' ratio' first second ih₁ ih₂ =>
    cases inFirst : (insertBeside sibling dragged axis ratio after first).2 with
    | true =>
      obtain ⟨s, found, inside⟩ := ih₁ inFirst
      refine ⟨s, by simp [findLeaf, found], ?_⟩
      simp only [insertBeside, inFirst, if_true]
      exact .first axis' ratio' second inside
    | false =>
      simp only [insertBeside, inFirst, Bool.false_eq_true, if_false] at placed ⊢
      obtain ⟨s, found, inside⟩ := ih₂ placed
      exact ⟨s, by simp [findLeaf, findLeaf_of_missed inFirst, found], .second axis' ratio' _ inside⟩
  | stack children ih =>
    simp only [insertBeside] at placed ⊢
    suffices ∃ s, findLeafOf sibling children = some s ∧ ∃ c ∈ (insertInStack sibling dragged axis ratio after children).1,
        Occurs (pairOf axis ratio after s dragged) c by
      obtain ⟨s, found, c, member, inside⟩ := this
      exact ⟨s, found, .child member inside⟩
    induction children with
    | nil => simp [insertInStack] at placed
    | cons c rest later =>
      cases inHead : (insertBeside sibling dragged axis ratio after c).2 with
      | true =>
        obtain ⟨s, found, inside⟩ := ih c List.mem_cons_self inHead
        refine ⟨s, by simp [findLeafOf, found], _, ?_, inside⟩
        simp [insertInStack, inHead]
      | false =>
        simp only [insertInStack, inHead, Bool.false_eq_true, if_false] at placed ⊢
        obtain ⟨s, found, d, member, inside⟩ := later (fun d member => ih d (List.mem_cons_of_mem _ member)) placed
        exact ⟨s, by simp [findLeafOf, findLeaf_of_missed inHead, found], d, List.mem_cons_of_mem _ member, inside⟩
  | overlay base floated bounds tier ih₁ ih₂ =>
    cases inBase : (insertBeside sibling dragged axis ratio after base).2 with
    | true =>
      obtain ⟨s, found, inside⟩ := ih₁ inBase
      refine ⟨s, by simp [findLeaf, found], ?_⟩
      simp only [insertBeside, inBase, if_true]
      exact .base floated bounds tier inside
    | false =>
      simp only [insertBeside, inBase, Bool.false_eq_true, if_false] at placed ⊢
      obtain ⟨s, found, inside⟩ := ih₂ placed
      exact ⟨s, by simp [findLeaf, findLeaf_of_missed inBase, found], .floated _ bounds tier inside⟩

end

theorem setSplitRatioAtInner_done (clamped : Binary32) (path : List Nat) (node : LayoutNode) :
    (setSplitRatioAtInner clamped path node).2 = (splitRatioAt path node).isSome := by
  induction path generalizing node with
  | nil => cases node <;> rfl
  | cons idx rest ih =>
    cases node with
    | leaf v => simp [setSplitRatioAtInner, splitRatioAt]
    | split axis ratio first second =>
      match idx with
      | 0 => exact ih first
      | 1 => exact ih second
      | _ + 2 => rfl
    | stack children =>
      cases at_idx : children[idx]? with
      | none => simp [setSplitRatioAtInner, splitRatioAt, at_idx]
      | some c => simp [setSplitRatioAtInner, splitRatioAt, at_idx, ih c]
    | overlay base floated bounds tier =>
      match idx with
      | 0 => exact ih base
      | 1 => exact ih floated
      | _ + 2 => rfl

theorem views_setSplitRatioAtInner (clamped : Binary32) (path : List Nat) (node : LayoutNode) :
    (setSplitRatioAtInner clamped path node).1.views = node.views := by
  induction path generalizing node with
  | nil => cases node <;> rfl
  | cons idx rest ih =>
    cases node with
    | leaf v => simp [setSplitRatioAtInner]
    | split axis ratio first second =>
      match idx with
      | 0 => simp [setSplitRatioAtInner, ih first]
      | 1 => simp [setSplitRatioAtInner, ih second]
      | _ + 2 => rfl
    | stack children =>
      cases at_idx : children[idx]? with
      | none => simp [setSplitRatioAtInner, at_idx]
      | some c =>
        simp only [setSplitRatioAtInner, at_idx, views_stack, List.flatMap_def, List.map_set, ih c]
        obtain ⟨inside, rfl⟩ := List.getElem?_eq_some_iff.mp at_idx
        rw [← List.getElem_map views (h := by simpa using inside), List.set_getElem_self]
    | overlay base floated bounds tier =>
      match idx with
      | 0 => simp [setSplitRatioAtInner, ih base]
      | 1 => simp [setSplitRatioAtInner, ih floated]
      | _ + 2 => rfl

theorem resizeSplitByDrag_done {path : List Nat} {total : Nat} (delta : Int) (usable : total ≠ 0)
    (handle : splitRatioAt path node ≠ none) :
    (resizeSplitByDrag path delta total node).2 = true ∧ (resizeSplitByDrag path delta total node).1.views = node.views := by
  obtain ⟨current, found⟩ := Option.ne_none_iff_exists'.mp handle
  simp only [resizeSplitByDrag, if_neg usable, found, setSplitRatioAt]
  exact ⟨by rw [setSplitRatioAtInner_done, found]; rfl, views_setSplitRatioAtInner ..⟩

end LayoutNode

def Reverts (history : DragHistory) (before after : LayoutNode) : Prop :=
  (history.undo after).1 = before ∧ (history.undo after).2.2 = true

def DropSpec.Docks (drop : DropSpec) (view : View) (before after : LayoutNode) : Prop :=
  ∃ anchor, findLeaf drop.target before = some anchor ∧
    Occurs (pairOf drop.axis drop.ratio drop.after anchor view) after

theorem push_reverts (history : DragHistory) (before after : LayoutNode) :
    Reverts (history.push before) before after := history.undo_push before after

theorem dragCommit_transactional {tree : LayoutNode} (distinct : tree.leafIds.Nodup) (source : ViewId)
    (history : DragHistory) (registry : CommandRegistry) (command : Text) (drop : DropSpec) :
    (∃ e, dragCommit source tree history registry command drop = (tree, history, .error e)) ∨
    ∃ view moved history', dragCommit source tree history registry command drop = (moved, history', .ok ()) ∧
      findLeaf source tree = some view ∧ moved.views.Perm tree.views ∧ drop.Docks view tree moved ∧
      Reverts history' tree moved := by
  unfold dragCommit
  split_ifs with named owned itself lost anchorless
  · exact .inl ⟨_, rfl⟩
  · exact .inl ⟨_, rfl⟩
  · exact .inl ⟨_, rfl⟩
  · exact .inl ⟨_, rfl⟩
  · exact .inl ⟨_, rfl⟩
  have present : source ∈ tree.leafIds := by
    by_contra absent
    exact lost (findLeaf_absent absent)
  have beside : drop.target ∈ tree.leafIds := by
    by_contra absent
    exact anchorless (findLeaf_absent absent)
  obtain ⟨view, rest, removed, found, left⟩ := removeLeaf_present distinct present
  obtain ⟨anchor, held, same⟩ := findLeaf_present beside
  -- The anchor outlives the removal, so the insertion finds it.
  have survives : findLeaf drop.target rest = some anchor := by
    rw [findLeaf_eq, left, without, List.find?_filter, ← held, findLeaf_eq]
    congr 1
    funext v
    by_cases target : v.id = drop.target
    · simp [target, Ne.symm itself]
    · simp [target]
  have still : drop.target ∈ rest.leafIds := by
    by_contra absent
    rw [findLeaf_absent absent] at survives
    cases survives
  obtain ⟨moved, before, s, others, placed, _, views, views'⟩ :=
    @insertBeside_present _ _ view drop.axis drop.ratio drop.after still
  have reparented : reparentLeaf source drop.target drop.axis drop.ratio drop.after tree = (moved, true) := by
    unfold reparentLeaf
    rw [if_neg, removed]
    · exact placed
    · simp [itself, containsLeaf_iff.mpr present, containsLeaf_iff.mpr beside]
  rw [reparented]
  refine .inr ⟨view, moved, history.push tree, rfl, found, ?_, ?_, push_reverts history tree moved⟩
  · refine List.Perm.trans ?_ (Edit.perm_without distinct found)
    rw [views', ← left, views]
    exact Edit.neighbours_perm drop.after s view before others
  · obtain ⟨anchor', held', inside⟩ := insertBeside_occurs (by rw [placed])
    rw [placed] at inside
    rw [survives] at held'
    exact ⟨anchor, held, Option.some.inj held' ▸ inside⟩

theorem applyTiledResize_transactional (tree : LayoutNode) (history : DragHistory) (registry : CommandRegistry)
    (command : Text) (path : List Nat) (deltaCells : Int) (totalCells : Nat) :
    (∃ e, applyTiledResize tree history registry command path deltaCells totalCells = (tree, history, .error e)) ∨
    ∃ resized history',
      applyTiledResize tree history registry command path deltaCells totalCells = (resized, history', .ok ()) ∧
      resized.views = tree.views ∧ Reverts history' tree resized := by
  unfold applyTiledResize
  split_ifs with named owned handle
  · exact .inl ⟨_, rfl⟩
  · exact .inl ⟨_, rfl⟩
  · exact .inl ⟨_, rfl⟩
  rw [not_or] at handle
  obtain ⟨done, views⟩ := resizeSplitByDrag_done deltaCells handle.1 handle.2
  obtain ⟨resized, at_resized⟩ : ∃ resized, resizeSplitByDrag path deltaCells totalCells tree = (resized, true) :=
    ⟨_, Prod.ext rfl done⟩
  rw [at_resized] at views ⊢
  exact .inr ⟨resized, history.push tree, rfl, views, push_reverts history tree resized⟩

theorem moveLeafToWorkspace_transactional {src dst : LayoutNode} (distinct : src.leafIds.Nodup)
    (srcHistory dstHistory : DragHistory) (registry : CommandRegistry) (command : Text) (drop : CrossWorkspaceDrop) :
    (∃ e, moveLeafToWorkspace src srcHistory dst dstHistory registry command drop =
      ⟨src, srcHistory, dst, dstHistory, .error e⟩) ∨
    ∃ view out, moveLeafToWorkspace src srcHistory dst dstHistory registry command drop = out ∧ out.result = .ok () ∧
      findLeaf drop.id src = some view ∧ (out.src.views ++ out.dst.views).Perm (src.views ++ dst.views) ∧
      drop.anchor.Docks view dst out.dst ∧ Reverts out.srcHistory src out.src ∧ Reverts out.dstHistory dst out.dst := by
  unfold moveLeafToWorkspace
  split_ifs with named owned lost anchorless full
  · exact .inl ⟨_, rfl⟩
  · exact .inl ⟨_, rfl⟩
  · exact .inl ⟨_, rfl⟩
  · exact .inl ⟨_, rfl⟩
  · exact .inl ⟨_, rfl⟩
  have present : drop.id ∈ src.leafIds := by
    by_contra absent
    exact lost (findLeaf_absent absent)
  have beside : drop.anchor.target ∈ dst.leafIds := by
    by_contra absent
    exact anchorless (findLeaf_absent absent)
  obtain ⟨view, rest, removed, found, left⟩ := removeLeaf_present distinct present
  obtain ⟨docked, before, s, others, placed, _, views, views'⟩ :=
    @insertBeside_present _ _ view drop.anchor.axis drop.anchor.ratio drop.anchor.after beside
  rw [removed]
  simp only [placed]
  refine .inr ⟨view, _, rfl, rfl, found, ?_, ?_, push_reverts srcHistory src rest, push_reverts dstHistory dst docked⟩
  · calc (rest.views ++ docked.views).Perm (rest.views ++ (view :: dst.views)) := by
          rw [views', views]
          exact (Edit.neighbours_perm drop.anchor.after s view before others).append_left _
      _ |>.Perm ((view :: rest.views) ++ dst.views) := List.perm_middle
      _ |>.Perm (src.views ++ dst.views) := by
          rw [left]
          exact (Edit.perm_without distinct found).append_right _
  · obtain ⟨anchor, held, inside⟩ := insertBeside_occurs (by rw [placed])
    rw [placed] at inside
    exact ⟨anchor, held, inside⟩

/-- Every pointer drag is refused with trees and histories as they were, or keeps all views and can be undone. -/
theorem drags_transactional {src dst : LayoutNode} (distinct : (src.leafIds ++ dst.leafIds).Nodup)
    (srcHistory dstHistory : DragHistory) (registry : CommandRegistry) (command : Text) :
    (∀ source drop,
      (∃ e, dragCommit source src srcHistory registry command drop = (src, srcHistory, .error e)) ∨
      ∃ view moved history, dragCommit source src srcHistory registry command drop = (moved, history, .ok ()) ∧
        findLeaf source src = some view ∧ moved.views.Perm src.views ∧ drop.Docks view src moved ∧
        Reverts history src moved) ∧
    (∀ path deltaCells totalCells,
      (∃ e, applyTiledResize src srcHistory registry command path deltaCells totalCells = (src, srcHistory, .error e)) ∨
      ∃ resized history,
        applyTiledResize src srcHistory registry command path deltaCells totalCells = (resized, history, .ok ()) ∧
        resized.views.Perm src.views ∧ Reverts history src resized) ∧
    ∀ drop,
      (∃ e, moveLeafToWorkspace src srcHistory dst dstHistory registry command drop =
        ⟨src, srcHistory, dst, dstHistory, .error e⟩) ∨
      ∃ view out, moveLeafToWorkspace src srcHistory dst dstHistory registry command drop = out ∧ out.result = .ok () ∧
        findLeaf drop.id src = some view ∧ (out.src.views ++ out.dst.views).Perm (src.views ++ dst.views) ∧
        drop.anchor.Docks view dst out.dst ∧ Reverts out.srcHistory src out.src ∧ Reverts out.dstHistory dst out.dst := by
  have distinctSrc := distinct.of_append_left
  refine ⟨fun source drop => dragCommit_transactional distinctSrc source srcHistory registry command drop,
    fun path deltaCells totalCells => ?_,
    fun drop => moveLeafToWorkspace_transactional distinctSrc srcHistory dstHistory registry command drop⟩
  rcases applyTiledResize_transactional src srcHistory registry command path deltaCells totalCells with
    refused | ⟨resized, history, applied, views, reverts⟩
  · exact .inl refused
  · exact .inr ⟨resized, history, applied, by rw [views], reverts⟩

def owning (panel : PanelId) : CommandRegistry := ⟨fun _ => some panel⟩

def acrossDrop : CrossWorkspaceDrop := ⟨2, ⟨3, .horizontal, .finite (1 / 2), false⟩⟩

theorem drags_transactional_across :
    let src := clampedSplit .vertical (.finite (1 / 2)) (.leaf (.new 1 40 24)) (.leaf (.new 2 40 24))
    let dst := LayoutNode.leaf (.new 3 80 24)
    let history : DragHistory := .empty (by decide)
    (src.leafIds ++ dst.leafIds).Nodup ∧
      ((∃ e, moveLeafToWorkspace src history dst history (owning 1) WORKSPACE_DROP_CMD acrossDrop =
        ⟨src, history, dst, history, .error e⟩) ∨
      ∃ view out, moveLeafToWorkspace src history dst history (owning 1) WORKSPACE_DROP_CMD acrossDrop = out ∧
        out.result = .ok () ∧ findLeaf acrossDrop.id src = some view ∧
        (out.src.views ++ out.dst.views).Perm (src.views ++ dst.views) ∧
        acrossDrop.anchor.Docks view dst out.dst ∧ Reverts out.srcHistory src out.src ∧
        Reverts out.dstHistory dst out.dst) :=
  ⟨by decide, (drags_transactional (by decide) _ _ (owning 1) WORKSPACE_DROP_CMD).2.2 acrossDrop⟩

end Bitty.Ui
