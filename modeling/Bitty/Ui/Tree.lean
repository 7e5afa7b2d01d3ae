import Bitty.Ui.Geometry

namespace Bitty.Ui

abbrev ViewId := Nat

inductive PresentationMode
  | tiled | floating | fullscreen | scratchpad
  deriving DecidableEq

inductive PseudoConstraint
  | fixed (size : Size)
  | aspect (num den : Nat)
  deriving DecidableEq

structure ScrollAnchor where
  lineId : Nat
  fallbackOffset : Nat
  deriving DecidableEq

structure View where
  id : ViewId
  cols : Nat
  rows : Nat
  scrollOffset : Nat := 0
  scrollAnchor : Option ScrollAnchor := none
  colOffset : Nat := 0
  origin : Point := ⟨0, 0⟩
  presentation : PresentationMode := .tiled
  pseudo : Option PseudoConstraint := none
  fixedSize : Option Size := none
  deriving DecidableEq

def clampDim (requested least : Nat) : Nat := min (max requested least) 65535

def View.new (id : ViewId) (cols rows : Nat) : View :=
  { id, cols := clampDim cols 1, rows := clampDim rows 1 }

inductive OverlayTier
  | editor | float | popup | messages

/-- A tree of panes: leaves, binary splits, stacks on shared bounds, and a base under an overlay. -/
inductive LayoutNode
  | leaf (view : View)
  | split (axis : SplitAxis) (ratio : Binary32) (first second : LayoutNode)
  | stack (children : List LayoutNode)
  | overlay (base overlay : LayoutNode) (bounds : Rect) (tier : OverlayTier)

namespace LayoutNode

theorem nodeInduction {motive : LayoutNode → Prop} (leaf : ∀ v, motive (.leaf v))
    (split : ∀ axis ratio first second, motive first → motive second → motive (.split axis ratio first second))
    (stack : ∀ children, (∀ c ∈ children, motive c) → motive (.stack children))
    (overlay : ∀ base floated bounds tier, motive base → motive floated → motive (.overlay base floated bounds tier)) :
    ∀ node, motive node :=
  @LayoutNode.rec motive (fun children => ∀ c ∈ children, motive c) leaf
    (fun axis ratio _ _ => split axis ratio _ _) stack (fun _ _ bounds tier => overlay _ _ bounds tier)
    (by simp) (fun _ _ head tail => by simpa using ⟨head, tail⟩)

mutual

def views : LayoutNode → List View
  | .leaf v => [v]
  | .split _ _ first second => first.views ++ second.views
  | .stack children => viewsOf children
  | .overlay base floated _ _ => base.views ++ floated.views

def viewsOf : List LayoutNode → List View
  | [] => []
  | c :: rest => c.views ++ viewsOf rest

end

def leafIds (node : LayoutNode) : List ViewId := node.views.map (·.id)

mutual

@[simp] def leafCount : LayoutNode → Nat
  | .leaf _ => 1
  | .split _ _ first second => first.leafCount + second.leafCount
  | .stack children => leafCountOf children
  | .overlay base floated _ _ => base.leafCount + floated.leafCount

@[simp] def leafCountOf : List LayoutNode → Nat
  | [] => 0
  | c :: rest => c.leafCount + leafCountOf rest

end

mutual

@[simp] def findLeaf (id : ViewId) : LayoutNode → Option View
  | .leaf v => if v.id = id then some v else none
  | .split _ _ first second => (findLeaf id first).or (findLeaf id second)
  | .stack children => findLeafOf id children
  | .overlay base floated _ _ => (findLeaf id base).or (findLeaf id floated)

@[simp] def findLeafOf (id : ViewId) : List LayoutNode → Option View
  | [] => none
  | c :: rest => (findLeaf id c).or (findLeafOf id rest)

end

mutual

@[simp] def containsLeaf (id : ViewId) : LayoutNode → Bool
  | .leaf v => v.id = id
  | .split _ _ first second => containsLeaf id first || containsLeaf id second
  | .stack children => containsLeafOf id children
  | .overlay base floated _ _ => containsLeaf id base || containsLeaf id floated

@[simp] def containsLeafOf (id : ViewId) : List LayoutNode → Bool
  | [] => false
  | c :: rest => containsLeaf id c || containsLeafOf id rest

end

theorem viewsOf_eq (children : List LayoutNode) : viewsOf children = children.flatMap views := by
  induction children with
  | nil => rfl
  | cons c rest ih => simp [viewsOf, ih]

theorem leafCount_eq (node : LayoutNode) : node.leafCount = node.views.length := by
  induction node using LayoutNode.nodeInduction with
  | leaf v => rfl
  | split axis ratio first second ih₁ ih₂ => simp [leafCount, views, ih₁, ih₂]
  | stack children ih =>
    simp only [leafCount, views]
    induction children with
    | nil => rfl
    | cons c rest later =>
      have tail := later fun d member => ih d (List.mem_cons_of_mem _ member)
      simp [leafCountOf, viewsOf, ih c (by simp), tail]
  | overlay base floated bounds tier ih₁ ih₂ => simp [leafCount, views, ih₁, ih₂]

theorem findLeaf_eq (id : ViewId) (node : LayoutNode) : findLeaf id node = node.views.find? (·.id = id) := by
  induction node using LayoutNode.nodeInduction with
  | leaf v => simp [findLeaf, views, List.find?_cons]; split <;> simp_all
  | split axis ratio first second ih₁ ih₂ => simp [findLeaf, views, ih₁, ih₂, List.find?_append]
  | stack children ih =>
    simp only [findLeaf, views]
    induction children with
    | nil => rfl
    | cons c rest later =>
      have tail := later fun d member => ih d (List.mem_cons_of_mem _ member)
      simp [findLeafOf, viewsOf, ih c (by simp), tail, List.find?_append]
  | overlay base floated bounds tier ih₁ ih₂ => simp [findLeaf, views, ih₁, ih₂, List.find?_append]

theorem containsLeaf_iff {id : ViewId} {node : LayoutNode} : containsLeaf id node ↔ id ∈ node.leafIds := by
  unfold leafIds
  induction node using LayoutNode.nodeInduction with
  | leaf v => simp [containsLeaf, views, eq_comm]
  | split axis ratio first second ih₁ ih₂ =>
    simp only [containsLeaf, views, Bool.or_eq_true, ih₁, ih₂, List.map_append, List.mem_append]
  | stack children ih =>
    simp only [containsLeaf, views]
    induction children with
    | nil => simp [containsLeafOf, viewsOf]
    | cons c rest later =>
      have tail := later fun d member => ih d (List.mem_cons_of_mem _ member)
      simp only [containsLeafOf, viewsOf, Bool.or_eq_true, ih c (by simp), tail, List.map_append, List.mem_append]
  | overlay base floated bounds tier ih₁ ih₂ =>
    simp only [containsLeaf, views, Bool.or_eq_true, ih₁, ih₂, List.map_append, List.mem_append]

end LayoutNode

end Bitty.Ui
