import Bitty.Ui.Tree

namespace Bitty.Ui

/-- A violation `validateStructure` reports. -/
inductive TreeViolation
  | ratio | emptyStack | emptyOverlay | emptyTree
  deriving DecidableEq

def ratioInRange : Binary32 → Bool
  | .finite ratio => MIN_RATIO ≤ ratio && ratio ≤ MAX_RATIO
  | _ => false

namespace LayoutNode

def isGone : LayoutNode → Bool
  | .stack [] => true
  | _ => false

mutual

/-- A bare leaf leaves a tombstone, as `remove_leaf_result` does; the parent drops what is gone, except that
an overlay keeps an empty base. -/
@[simp] def removeLeaf (id : ViewId) : LayoutNode → LayoutNode × Option View
  | .leaf v => if v.id ≠ id then (.leaf v, none) else (.stack [], some v)
  | .split axis ratio first second =>
    match removeLeaf id first with
    | (first, some v) => (if first.isGone then second else .split axis ratio first second, some v)
    | (first, none) =>
      match removeLeaf id second with
      | (second, some v) => (if second.isGone then first else .split axis ratio first second, some v)
      | (second, none) => (.split axis ratio first second, none)
  | .stack children =>
    let (children, taken) := removeFromStack id children
    (.stack children, taken)
  | .overlay base floated bounds tier =>
    match removeLeaf id base with
    | (base, some v) => (.overlay base floated bounds tier, some v)
    | (base, none) =>
      match removeLeaf id floated with
      | (floated, some v) => (if floated.isGone then base else .overlay base floated bounds tier, some v)
      | (floated, none) => (.overlay base floated bounds tier, none)

/-- The first child that holds the leaf loses it, and is dropped when gone. -/
@[simp] def removeFromStack (id : ViewId) : List LayoutNode → List LayoutNode × Option View
  | [] => ([], none)
  | c :: rest =>
    if containsLeaf id c then
      let (c, taken) := removeLeaf id c
      (if c.isGone then rest else c :: rest, taken)
    else
      let (rest, taken) := removeFromStack id rest
      (c :: rest, taken)

end

/-- `LayoutNode::split`. -/
def clampedSplit (axis : SplitAxis) (ratio : Binary32) (first second : LayoutNode) : LayoutNode :=
  .split axis (clampRatio ratio) first second

mutual

@[simp] def insertBeside (sibling : ViewId) (dragged : View) (axis : SplitAxis) (ratio : Binary32) (after : Bool) :
    LayoutNode → LayoutNode × Bool
  | .leaf v =>
    if v.id = sibling then
      (if after then clampedSplit axis ratio (.leaf v) (.leaf dragged)
        else clampedSplit axis ratio (.leaf dragged) (.leaf v), true)
    else (.leaf v, false)
  | .split axis' ratio' first second =>
    let (first, placed) := insertBeside sibling dragged axis ratio after first
    if placed then (.split axis' ratio' first second, true)
    else
      let (second, placed) := insertBeside sibling dragged axis ratio after second
      (.split axis' ratio' first second, placed)
  | .stack children =>
    let (children, placed) := insertInStack sibling dragged axis ratio after children
    (.stack children, placed)
  | .overlay base floated bounds tier =>
    let (base, placed) := insertBeside sibling dragged axis ratio after base
    if placed then (.overlay base floated bounds tier, true)
    else
      let (floated, placed) := insertBeside sibling dragged axis ratio after floated
      (.overlay base floated bounds tier, placed)

@[simp] def insertInStack (sibling : ViewId) (dragged : View) (axis : SplitAxis) (ratio : Binary32) (after : Bool) :
    List LayoutNode → List LayoutNode × Bool
  | [] => ([], false)
  | c :: rest =>
    let (c, placed) := insertBeside sibling dragged axis ratio after c
    if placed then (c :: rest, true)
    else
      let (rest, placed) := insertInStack sibling dragged axis ratio after rest
      (c :: rest, placed)

end

def reparentLeaf (id sibling : ViewId) (axis : SplitAxis) (ratio : Binary32) (after : Bool) (node : LayoutNode) :
    LayoutNode × Bool :=
  if id = sibling || !containsLeaf id node || !containsLeaf sibling node then (node, false)
  else
    match removeLeaf id node with
    | (node, none) => (node, false)
    | (node, some view) => insertBeside sibling view axis ratio after node

mutual

/-- `find_leaf_mut` and an assignment through it: the tree with the first leaf of that id replaced. -/
@[simp] def assignLeaf (id : ViewId) (new : View) : LayoutNode → Option LayoutNode
  | .leaf v => if v.id = id then some (.leaf new) else none
  | .split axis ratio first second =>
    match assignLeaf id new first with
    | some first => some (.split axis ratio first second)
    | none => (assignLeaf id new second).map fun second => .split axis ratio first second
  | .stack children => (assignInStack id new children).map .stack
  | .overlay base floated bounds tier =>
    match assignLeaf id new base with
    | some base => some (.overlay base floated bounds tier)
    | none => (assignLeaf id new floated).map fun floated => .overlay base floated bounds tier

@[simp] def assignInStack (id : ViewId) (new : View) : List LayoutNode → Option (List LayoutNode)
  | [] => none
  | c :: rest =>
    match assignLeaf id new c with
    | some c => some (c :: rest)
    | none => (assignInStack id new rest).map (c :: ·)

end

/-- The id `swapLeaves` parks a leaf under: `u64::MAX`. -/
def SENTINEL : ViewId := 2 ^ 64 - 1

def swapLeaves (a b : ViewId) (node : LayoutNode) : LayoutNode × Bool :=
  if a = b || containsLeaf SENTINEL node then (node, false)
  else if !containsLeaf a node || !containsLeaf b node then (node, false)
  else
    match findLeaf a node, findLeaf b node with
    | some viewA, some viewB =>
      match assignLeaf a (.new SENTINEL 1 1) node with
      | none => (node, false)
      | some parked =>
        match assignLeaf b viewA parked with
        | none => (parked, false)
        | some half =>
          match assignLeaf SENTINEL viewB half with
          | none => (half, false)
          | some done => (done, true)
    | _, _ => (node, false)

mutual

@[simp] def walk : LayoutNode → Except TreeViolation Nat
  | .leaf _ => .ok 1
  | .split _ ratio first second => do
    if !ratioInRange ratio then throw .ratio
    let a ← first.walk
    let b ← second.walk
    pure (a + b)
  | .stack children => do
    if children.isEmpty then throw .emptyStack
    walkAll children
  | .overlay base floated _ _ => do
    if base.leafCount = 0 && floated.leafCount = 0 then throw .emptyOverlay
    let a ← base.walk
    let b ← floated.walk
    pure (a + b)

@[simp] def walkAll : List LayoutNode → Except TreeViolation Nat
  | [] => .ok 0
  | c :: rest => do
    let a ← c.walk
    let b ← walkAll rest
    pure (a + b)

end

def validateStructure (node : LayoutNode) : Except TreeViolation Nat := do
  let leaves ← node.walk
  if leaves = 0 then throw .emptyTree
  pure leaves

end LayoutNode

end Bitty.Ui
