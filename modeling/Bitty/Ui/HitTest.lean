import Bitty.Ui.Tiling

/-! What is under the pointer: the leaf, and the handles of the splits, beside what is visible there. -/

namespace Bitty.Ui

structure SplitHandleHit where
  path : List Nat
  axis : SplitAxis
  band : Nat × Nat

inductive SplitHandle
  | edge (path : List Nat) (axis : SplitAxis)
  | intersection (columns rows : List (List Nat))

def SplitHandle.splits : SplitHandle → List (List Nat × SplitAxis)
  | .edge path axis => [(path, axis)]
  | .intersection columns rows => columns.map (·, .horizontal) ++ rows.map (·, .vertical)

def SplitHandleHit.isCollinearWith (hit other : SplitHandleHit) : Bool :=
  hit.axis = other.axis && hit.band.1 < other.band.2 && other.band.1 < hit.band.2

def collinearHandleGroup (hits : List SplitHandleHit) (axis : SplitAxis) : Option (List SplitHandleHit) :=
  let axisHits := hits.filter (·.axis = axis)
  match axisHits.argmin (·.path.length) with
  | none => some []
  | some anchor =>
    if axisHits.any fun hit => hit.path.length = anchor.path.length && !hit.isCollinearWith anchor then none
    else some (axisHits.filter (·.isCollinearWith anchor))

def extendCollinear (anchor : SplitHandleHit) (all : List SplitHandleHit) (axis : SplitAxis) : List (List Nat) :=
  (all.filter fun hit => hit.axis = axis && hit.isCollinearWith anchor).map (·.path)

def handleBandBetween (first second : Rect) (axis : SplitAxis) (gapIn : Nat) : Option Rect :=
  if gapIn = 0 then none
  else
    match axis with
    | .horizontal =>
      if first.right < second.x then
        some ⟨min first.right 65535, min first.y second.y, min (second.x - first.right) 65535,
          max first.height second.height⟩
      else none
    | .vertical =>
      if first.bottom < second.y then
        some ⟨min first.x second.x, min first.bottom 65535, max first.width second.width,
          min (second.y - first.bottom) 65535⟩
      else none

def dividerBand (first second : Rect) (axis : SplitAxis) (gapIn : Nat) : Nat × Nat :=
  match handleBandBetween first second axis gapIn, axis with
  | some band, .horizontal => (band.x, band.right)
  | some band, .vertical => (band.y, band.bottom)
  | none, .horizontal => (first.right - 1, second.x + 1)
  | none, .vertical => (first.bottom - 1, second.y + 1)

def inflateHandleBand (rect : Rect) : Rect :=
  ⟨rect.x - 1, rect.y - 1, saturatingAdd rect.width 2, saturatingAdd rect.height 2⟩

def onSplitSpan (point firstStart firstEnd secondStart secondEnd : Nat) (allowEndpoint : Bool) : Bool :=
  let start := max firstStart secondStart
  let stop := min firstEnd secondEnd
  start < stop && (start ≤ point && point < stop || allowEndpoint && 0 < start && point = start - 1 ||
    allowEndpoint && point = stop)

def onChildBoundary (first second : Rect) (axis : SplitAxis) (point : Point) (allowEndpoint : Bool) : Bool :=
  match axis with
  | .horizontal =>
    second.x = saturatingAdd first.x first.width && (point.x = first.right - 1 || point.x = second.x) &&
      onSplitSpan point.y first.y first.bottom second.y second.bottom allowEndpoint
  | .vertical =>
    second.y = saturatingAdd first.y first.height && (point.y = first.bottom - 1 || point.y = second.y) &&
      onSplitSpan point.x first.x first.right second.x second.right allowEndpoint

namespace LayoutNode

def hitTestLeaf (node : LayoutNode) (bounds : Rect) (gaps : Gaps) (point : Point) : Option ViewId :=
  ((node.layoutWithGaps bounds gaps).find? fun a => a.2.containsPoint point).map (·.1)

mutual

/-- The handles under the pointer, outermost first; `endpointAxis` is of the split whose boundary holds it. -/
def hitTestHandlesAllInner (gapIn : Nat) (point : Point) : LayoutNode → Rect → List Nat → Option SplitAxis →
    List SplitHandleHit
  | .leaf _, _, _, _ => []
  | .split axis ratio first second, bounds, path, endpointAxis =>
    let (a, b) := splitRectWithGap bounds axis ratio gapIn
    let allowEndpoint := endpointAxis.any (· ≠ axis)
    let boundaryHit := gapIn = 0 && onChildBoundary a b axis point allowEndpoint
    let hit := (handleBandBetween a b axis gapIn).elim boundaryHit fun rect =>
      (inflateHandleBand rect).containsPoint point
    let childEndpointAxis := if endpointAxis.isNone && boundaryHit then some axis else none
    (if hit then [⟨path, axis, dividerBand a b axis gapIn⟩] else []) ++
      hitTestHandlesAllInner gapIn point first a (path ++ [0]) childEndpointAxis ++
      hitTestHandlesAllInner gapIn point second b (path ++ [1]) childEndpointAxis
  | .stack children, bounds, path, endpointAxis => hitTestHandlesTop gapIn point children 0 bounds path endpointAxis
  | .overlay base floated overlayBounds _, bounds, path, endpointAxis =>
    let clipped := (overlayBounds.clipTo bounds).getD .zero
    if clipped.containsPoint point then hitTestHandlesAllInner gapIn point floated clipped (path ++ [1]) endpointAxis
    else hitTestHandlesAllInner gapIn point base bounds (path ++ [0]) endpointAxis

/-- Of the children of a stack the last one; `i` are before. -/
def hitTestHandlesTop (gapIn : Nat) (point : Point) : List LayoutNode → Nat → Rect → List Nat → Option SplitAxis →
    List SplitHandleHit
  | [], _, _, _, _ => []
  | [child], i, bounds, path, endpointAxis => hitTestHandlesAllInner gapIn point child bounds (path ++ [i]) endpointAxis
  | _ :: rest, i, bounds, path, endpointAxis => hitTestHandlesTop gapIn point rest (i + 1) bounds path endpointAxis

end

mutual

def collectVisibleDividersInner (gapIn : Nat) (point : Point) : LayoutNode → Rect → List Nat → List SplitHandleHit
  | .leaf _, _, _ => []
  | .split axis ratio first second, bounds, path =>
    let (a, b) := splitRectWithGap bounds axis ratio gapIn
    ⟨path, axis, dividerBand a b axis gapIn⟩ :: (collectVisibleDividersInner gapIn point first a (path ++ [0]) ++
      collectVisibleDividersInner gapIn point second b (path ++ [1]))
  | .stack children, bounds, path => collectVisibleDividersTop gapIn point children 0 bounds path
  | .overlay base floated overlayBounds _, bounds, path =>
    let clipped := (overlayBounds.clipTo bounds).getD .zero
    if clipped.containsPoint point then collectVisibleDividersInner gapIn point floated clipped (path ++ [1])
    else collectVisibleDividersInner gapIn point base bounds (path ++ [0])

def collectVisibleDividersTop (gapIn : Nat) (point : Point) : List LayoutNode → Nat → Rect → List Nat →
    List SplitHandleHit
  | [], _, _, _ => []
  | [child], i, bounds, path => collectVisibleDividersInner gapIn point child bounds (path ++ [i])
  | _ :: rest, i, bounds, path => collectVisibleDividersTop gapIn point rest (i + 1) bounds path

end

def hitTestSplitHandleKind (node : LayoutNode) (bounds : Rect) (gaps : Gaps) (point : Point) : Option SplitHandle := do
  let inner := gaps.insetOuter bounds
  let hits := hitTestHandlesAllInner gaps.inner point node inner [] none
  let columns ← collinearHandleGroup hits .horizontal
  let rows ← collinearHandleGroup hits .vertical
  match columns, rows with
  | [], [] => none
  | column :: _, [] => some (.edge column.path .horizontal)
  | [], row :: _ => some (.edge row.path .vertical)
  | column :: _, row :: _ =>
    let all := collectVisibleDividersInner gaps.inner point node inner []
    some (.intersection (extendCollinear column all .horizontal) (extendCollinear row all .vertical))

def hitTestSplitHandles (node : LayoutNode) (bounds : Rect) (gaps : Gaps) (point : Point) :
    List (List Nat × SplitAxis) :=
  ((node.hitTestSplitHandleKind bounds gaps point).map (·.splits)).getD []

mutual

/-- What the pointer sees at a point of a tree laid out in `bounds`: of a stack the last child, of an overlay the
floating branch inside its rectangle and the base elsewhere. -/
def visibleLeaf (gapIn : Nat) (point : Point) : LayoutNode → Rect → Option ViewId
  | .leaf v, bounds => if bounds.containsPoint point then some v.id else none
  | .split axis ratio first second, bounds =>
    let (a, b) := splitRectWithGap bounds axis ratio gapIn
    (visibleLeaf gapIn point first a).or (visibleLeaf gapIn point second b)
  | .stack children, bounds => visibleTop gapIn point children bounds
  | .overlay base floated overlayBounds _, bounds =>
    let clipped := (overlayBounds.clipTo bounds).getD .zero
    if clipped.containsPoint point then visibleLeaf gapIn point floated clipped else visibleLeaf gapIn point base bounds

def visibleTop (gapIn : Nat) (point : Point) : List LayoutNode → Rect → Option ViewId
  | [], _ => none
  | [child], bounds => visibleLeaf gapIn point child bounds
  | _ :: rest, bounds => visibleTop gapIn point rest bounds

end

mutual

def exposes (gapIn : Nat) (point : Point) : LayoutNode → Rect → List Nat → Bool
  | _, _, [] => true
  | .leaf _, _, _ :: _ => false
  | .split axis ratio first second, bounds, i :: path =>
    let (a, b) := splitRectWithGap bounds axis ratio gapIn
    i = 0 && exposes gapIn point first a path || i = 1 && exposes gapIn point second b path
  | .stack children, bounds, i :: path => i + 1 = children.length && exposesTop gapIn point children bounds path
  | .overlay base floated overlayBounds _, bounds, i :: path =>
    let clipped := (overlayBounds.clipTo bounds).getD .zero
    if clipped.containsPoint point then i = 1 && exposes gapIn point floated clipped path
    else i = 0 && exposes gapIn point base bounds path

def exposesTop (gapIn : Nat) (point : Point) : List LayoutNode → Rect → List Nat → Bool
  | [], _, _ => false
  | [child], bounds, path => exposes gapIn point child bounds path
  | _ :: rest, bounds, path => exposesTop gapIn point rest bounds path

end

structure PlacedLeaf where
  path : List Nat
  id : ViewId
  rect : Rect

def PlacedLeaf.under (i : Nat) (leaf : PlacedLeaf) : PlacedLeaf := { leaf with path := i :: leaf.path }

mutual

def placedLeaves (gapIn : Nat) : LayoutNode → Rect → List PlacedLeaf
  | .leaf v, bounds => [⟨[], v.id, bounds⟩]
  | .split axis ratio first second, bounds =>
    let (a, b) := splitRectWithGap bounds axis ratio gapIn
    (placedLeaves gapIn first a).map (.under 0) ++ (placedLeaves gapIn second b).map (.under 1)
  | .stack children, bounds => placedChildren gapIn children 0 bounds
  | .overlay base floated overlayBounds _, bounds =>
    (placedLeaves gapIn base bounds).map (.under 0) ++
      (placedLeaves gapIn floated ((overlayBounds.clipTo bounds).getD .zero)).map (.under 1)

def placedChildren (gapIn : Nat) : List LayoutNode → Nat → Rect → List PlacedLeaf
  | [], _, _ => []
  | child :: rest, i, bounds =>
    (placedLeaves gapIn child bounds).map (.under i) ++ placedChildren gapIn rest (i + 1) bounds

end

variable {gapIn : Nat} {point : Point} {node : LayoutNode} {bounds : Rect}

theorem map_placedLeaves (gapIn : Nat) (node : LayoutNode) (bounds : Rect) :
    (placedLeaves gapIn node bounds).map (fun leaf => (leaf.id, leaf.rect)) = layoutInner gapIn node bounds := by
  have under : ∀ i, (fun leaf : PlacedLeaf => (leaf.id, leaf.rect)) ∘ PlacedLeaf.under i =
    fun leaf => (leaf.id, leaf.rect) := fun i => rfl
  induction node using LayoutNode.nodeInduction generalizing bounds with
  | leaf v => rfl
  | split axis ratio first second ih₁ ih₂ =>
    rw [placedLeaves, layoutInner, List.map_append, List.map_map, List.map_map, under, under, ih₁, ih₂]
  | stack children ih =>
    rw [placedLeaves, layoutInner]
    generalize 0 = i
    induction children generalizing i with
    | nil => rfl
    | cons child rest later =>
      have tail := later (fun c member => ih c (List.mem_cons_of_mem _ member)) (i + 1)
      rw [placedChildren, layoutStack, List.map_append, List.map_map, under, ih child List.mem_cons_self, tail]
  | overlay base floated overlayBounds tier ih₁ ih₂ =>
    rw [placedLeaves, layoutInner, List.map_append, List.map_map, List.map_map, under, under, ih₁, ih₂]

/-- The visible leaf is the first one of the visible branch whose allocation holds the point. -/
def Seen (gapIn : Nat) (point : Point) (node : LayoutNode) (bounds : Rect) (leaf : PlacedLeaf) : Bool :=
  exposes gapIn point node bounds leaf.path && leaf.rect.containsPoint point

variable {leaves : List PlacedLeaf} {i : Nat} {seen : PlacedLeaf → Bool}

theorem find?_under_eq_none
    (hidden : ∀ leaf : PlacedLeaf, seen (leaf.under i) = false) : (leaves.map (.under i)).find? seen = none := by
  rw [List.find?_eq_none]
  intro _ member
  obtain ⟨leaf, _, rfl⟩ := List.mem_map.mp member
  rw [hidden]
  exact Bool.false_ne_true

theorem find?_under {seen' : PlacedLeaf → Bool} (same : ∀ leaf : PlacedLeaf, seen (leaf.under i) = seen' leaf) :
    ((leaves.map (.under i)).find? seen).map (·.id) = (leaves.find? seen').map (·.id) := by
  rw [List.find?_map, Option.map_map, show seen ∘ PlacedLeaf.under i = seen' from funext same]
  rfl

variable {children : List LayoutNode}

theorem visibleTop_eq (ih : ∀ c ∈ children, ∀ bounds, visibleLeaf gapIn point c bounds =
      ((placedLeaves gapIn c bounds).find? (Seen gapIn point c bounds)).map (·.id)) (i n : Nat)
    (last : n = i + children.length) : visibleTop gapIn point children bounds =
      ((placedChildren gapIn children i bounds).find? fun leaf => (match leaf.path with
        | [] => true
        | k :: path => k + 1 = n && exposesTop gapIn point children bounds path) && leaf.rect.containsPoint point).map
        (·.id) := by
  induction children generalizing i with
  | nil => rfl
  | cons child rest later =>
    rw [placedChildren, List.find?_append, Option.map_or]
    cases rest with
    | nil =>
      rw [visibleTop, ih child List.mem_cons_self, placedChildren, List.find?_nil, Option.map_none, Option.or_none]
      refine (find?_under ?_).symm
      · intro leaf
        have top : i + 1 = n := last.symm
        simp only [PlacedLeaf.under, exposesTop, Seen, top, decide_true, Bool.true_and]
    | cons next more =>
      show visibleTop gapIn point (next :: more) bounds = _
      rw [later (fun c member => ih c (List.mem_cons_of_mem _ member)) (i + 1)
        (by rw [last, List.length_cons]; omega), find?_under_eq_none, Option.map_none, Option.none_or]
      · rfl
      · intro leaf
        have below : ¬i + 1 = n := by
          rw [last]
          simp only [List.length_cons]
          omega
        simp only [PlacedLeaf.under, below, decide_false, Bool.false_and]

theorem visibleLeaf_eq : visibleLeaf gapIn point node bounds =
    ((placedLeaves gapIn node bounds).find? (Seen gapIn point node bounds)).map (·.id) := by
  induction node using LayoutNode.nodeInduction generalizing bounds with
  | leaf v =>
    rw [visibleLeaf, placedLeaves, List.find?_cons]
    cases inside : bounds.containsPoint point <;> simp [Seen, exposes, inside]
  | split axis ratio first second ih₁ ih₂ =>
    show (visibleLeaf gapIn point first (splitRectWithGap bounds axis ratio gapIn).1).or
      (visibleLeaf gapIn point second (splitRectWithGap bounds axis ratio gapIn).2) = _
    rw [placedLeaves, List.find?_append, Option.map_or, ih₁, ih₂]
    refine congrArg₂ Option.or (find?_under ?_).symm (find?_under ?_).symm
    · intro leaf
      simp [PlacedLeaf.under, Seen, exposes]
    · intro leaf
      simp [PlacedLeaf.under, Seen, exposes]
  | stack children ih =>
    rw [visibleLeaf, placedLeaves, visibleTop_eq (fun c member bounds => ih c member) 0 children.length
      (Nat.zero_add _).symm]
    congr 2
    funext leaf
    rw [Seen]
    cases leaf.path <;> rfl
  | overlay base floated overlayBounds tier ih₁ ih₂ =>
    rw [visibleLeaf, placedLeaves, List.find?_append, Option.map_or, ih₁, ih₂]
    by_cases covered : ((overlayBounds.clipTo bounds).getD .zero).containsPoint point = true
    · rw [if_pos covered, find?_under_eq_none, Option.map_none, Option.none_or]
      · refine (find?_under ?_).symm
        intro leaf
        simp [PlacedLeaf.under, Seen, exposes, covered]
      · intro leaf
        simp [PlacedLeaf.under, Seen, exposes, covered]
    · have clear := Bool.eq_false_of_not_eq_true covered
      rw [if_neg covered, find?_under_eq_none (i := 1), Option.map_none, Option.or_none]
      · refine (find?_under ?_).symm
        intro leaf
        simp [PlacedLeaf.under, Seen, exposes, clear]
      · intro leaf
        simp [PlacedLeaf.under, Seen, exposes, clear]

variable {path : List Nat}

theorem visibleTop_divider {divider : SplitHandleHit}
    (ih : ∀ c ∈ children, ∀ bounds path, divider ∈ collectVisibleDividersInner gapIn point c bounds path →
      ∃ rest, divider.path = path ++ rest ∧ exposes gapIn point c bounds rest = true) (i : Nat)
    (member : divider ∈ collectVisibleDividersTop gapIn point children i bounds path) :
    ∃ k rest, k + 1 = i + children.length ∧ divider.path = path ++ k :: rest ∧
      exposesTop gapIn point children bounds rest = true := by
  induction children generalizing i with
  | nil => cases member
  | cons child rest later =>
    cases rest with
    | nil =>
      obtain ⟨rest, eq, exposed⟩ := ih child List.mem_cons_self bounds (path ++ [i]) member
      rw [List.append_assoc] at eq
      exact ⟨i, rest, rfl, eq, exposed⟩
    | cons next more =>
      obtain ⟨k, rest, last, eq, exposed⟩ := later (fun c member => ih c (List.mem_cons_of_mem _ member)) (i + 1) member
      refine ⟨k, rest, ?_, eq, exposed⟩
      simp only [List.length_cons] at last ⊢
      omega

theorem exposes_of_divider {divider : SplitHandleHit}
    (member : divider ∈ collectVisibleDividersInner gapIn point node bounds path) :
    ∃ rest, divider.path = path ++ rest ∧ exposes gapIn point node bounds rest = true := by
  induction node using LayoutNode.nodeInduction generalizing bounds path with
  | leaf v => cases member
  | split axis ratio first second ih₁ ih₂ =>
    change divider ∈ _ :: (
      collectVisibleDividersInner gapIn point first (splitRectWithGap bounds axis ratio gapIn).1 (path ++ [0]) ++
      collectVisibleDividersInner gapIn point second (splitRectWithGap bounds axis ratio gapIn).2 (path ++ [1]))
      at member
    rcases List.mem_cons.mp member with rfl | later
    · exact ⟨[], (List.append_nil _).symm, rfl⟩
    · rcases List.mem_append.mp later with inFirst | inSecond
      · obtain ⟨rest, eq, exposed⟩ := ih₁ inFirst
        rw [List.append_assoc] at eq
        exact ⟨0 :: rest, eq, by simp [exposes, exposed]⟩
      · obtain ⟨rest, eq, exposed⟩ := ih₂ inSecond
        rw [List.append_assoc] at eq
        exact ⟨1 :: rest, eq, by simp [exposes, exposed]⟩
  | stack children ih =>
    obtain ⟨k, rest, last, eq, exposed⟩ := visibleTop_divider (fun c member bounds path => ih c member) 0 member
    rw [Nat.zero_add] at last
    exact ⟨k :: rest, eq, by simp [exposes, last, exposed]⟩
  | overlay base floated overlayBounds tier ih₁ ih₂ =>
    by_cases covered : ((overlayBounds.clipTo bounds).getD .zero).containsPoint point = true
    · rw [collectVisibleDividersInner, if_pos covered] at member
      obtain ⟨rest, eq, exposed⟩ := ih₂ member
      rw [List.append_assoc] at eq
      exact ⟨1 :: rest, eq, by simp [exposes, covered, exposed]⟩
    · rw [collectVisibleDividersInner, if_neg covered] at member
      obtain ⟨rest, eq, exposed⟩ := ih₁ member
      rw [List.append_assoc] at eq
      exact ⟨0 :: rest, eq, by simp [exposes, covered, exposed]⟩

theorem mem_dividers {hit : SplitHandleHit} {endpointAxis : Option SplitAxis}
    (member : hit ∈ hitTestHandlesAllInner gapIn point node bounds path endpointAxis) :
    hit ∈ collectVisibleDividersInner gapIn point node bounds path := by
  induction node using LayoutNode.nodeInduction generalizing bounds path endpointAxis with
  | leaf v => cases member
  | split axis ratio first second ih₁ ih₂ =>
    rw [hitTestHandlesAllInner] at member
    rw [collectVisibleDividersInner]
    generalize splitRectWithGap bounds axis ratio gapIn = parts at member ⊢
    obtain ⟨a, b⟩ := parts
    dsimp only at member ⊢
    rcases List.mem_append.mp member with earlier | inSecond
    · rcases List.mem_append.mp earlier with here | inFirst
      · have same := List.mem_singleton.mp (List.mem_ite_nil_right.mp here).2
        rw [same]
        exact List.mem_cons_self
      · exact List.mem_cons_of_mem _ (List.mem_append_left _ (ih₁ inFirst))
    · exact List.mem_cons_of_mem _ (List.mem_append_right _ (ih₂ inSecond))
  | stack children ih =>
    rw [hitTestHandlesAllInner] at member
    rw [collectVisibleDividersInner]
    generalize 0 = i at member ⊢
    induction children generalizing i with
    | nil => cases member
    | cons child rest later =>
      cases rest with
      | nil => exact ih child List.mem_cons_self member
      | cons next more => exact later (fun c member => ih c (List.mem_cons_of_mem _ member)) (i + 1) member
  | overlay base floated overlayBounds tier ih₁ ih₂ =>
    by_cases covered : ((overlayBounds.clipTo bounds).getD .zero).containsPoint point = true
    · rw [hitTestHandlesAllInner, if_pos covered] at member
      rw [collectVisibleDividersInner, if_pos covered]
      exact ih₂ member
    · rw [hitTestHandlesAllInner, if_neg covered] at member
      rw [collectVisibleDividersInner, if_neg covered]
      exact ih₁ member

theorem mem_of_collinearHandleGroup {hits group : List SplitHandleHit} {axis : SplitAxis} {hit : SplitHandleHit}
    (found : collinearHandleGroup hits axis = some group) (member : hit ∈ group) : hit ∈ hits := by
  unfold collinearHandleGroup at found
  dsimp only at found
  split at found
  · obtain rfl := Option.some.inj found
    cases member
  · split at found
    · cases found
    · obtain rfl := Option.some.inj found
      exact List.mem_of_mem_filter (List.mem_of_mem_filter member)

theorem exists_of_extendCollinear {anchor : SplitHandleHit} {all : List SplitHandleHit} {axis : SplitAxis}
    (member : path ∈ extendCollinear anchor all axis) : ∃ divider ∈ all, divider.path = path := by
  obtain ⟨divider, kept, eq⟩ := List.mem_map.mp member
  exact ⟨divider, List.mem_of_mem_filter kept, eq⟩

theorem exposes_of_handle {gaps : Gaps} {handle : List Nat × SplitAxis}
    (member : handle ∈ node.hitTestSplitHandles bounds gaps point) :
    exposes gaps.inner point node (gaps.insetOuter bounds) handle.1 = true := by
  have exposed : ∀ divider ∈ collectVisibleDividersInner gaps.inner point node (gaps.insetOuter bounds) [],
      exposes gaps.inner point node (gaps.insetOuter bounds) divider.path = true := by
    intro divider member
    obtain ⟨rest, eq, exposed⟩ := exposes_of_divider member
    rwa [eq]
  rw [hitTestSplitHandles] at member
  cases kind : node.hitTestSplitHandleKind bounds gaps point with
  | none =>
    rw [kind] at member
    cases member
  | some found =>
    rw [kind] at member
    have inSplits : handle ∈ found.splits := member
    rw [hitTestSplitHandleKind] at kind
    obtain ⟨columns, columnsEq, kind⟩ := Option.bind_eq_some_iff.mp kind
    obtain ⟨rows, rowsEq, kind⟩ := Option.bind_eq_some_iff.mp kind
    split at kind
    · cases kind
    · obtain rfl := Option.some.inj kind
      rw [List.mem_singleton.mp inSplits]
      exact exposed _ (mem_dividers (mem_of_collinearHandleGroup columnsEq List.mem_cons_self))
    · obtain rfl := Option.some.inj kind
      rw [List.mem_singleton.mp inSplits]
      exact exposed _ (mem_dividers (mem_of_collinearHandleGroup rowsEq List.mem_cons_self))
    · obtain rfl := Option.some.inj kind
      rcases List.mem_append.mp inSplits with inColumns | inRows
      · obtain ⟨path, inPaths, rfl⟩ := List.mem_map.mp inColumns
        obtain ⟨divider, inAll, rfl⟩ := exists_of_extendCollinear inPaths
        exact exposed divider inAll
      · obtain ⟨path, inPaths, rfl⟩ := List.mem_map.mp inRows
        obtain ⟨divider, inAll, rfl⟩ := exists_of_extendCollinear inPaths
        exact exposed divider inAll

def childAt : LayoutNode → Nat → Option LayoutNode
  | .leaf _, _ => none
  | .split _ _ first second, i => [first, second][i]?
  | .stack children, i => children[i]?
  | .overlay base floated _ _, i => [base, floated][i]?

def descend (node : LayoutNode) (path : List Nat) : Option LayoutNode := path.foldlM childAt node

theorem exposesTop_last (gapIn : Nat) (point : Point) (bounds : Rect) (last : i + 1 = children.length) :
    ∃ child, children[i]? = some child ∧ child ∈ children ∧
      ∀ path, exposesTop gapIn point children bounds path = exposes gapIn point child bounds path := by
  induction children generalizing i with
  | nil => cases last
  | cons child rest ih =>
    cases rest with
    | nil =>
      obtain rfl : i = 0 := by simpa using last
      exact ⟨child, rfl, List.mem_cons_self, fun path => rfl⟩
    | cons next more =>
      obtain ⟨k, rfl⟩ : ∃ k, i = k + 1 := ⟨i - 1, by simp only [List.length_cons] at last; omega⟩
      obtain ⟨top, at_k, member, same⟩ := @ih k (by simpa using last)
      exact ⟨top, at_k, List.mem_cons_of_mem _ member, same⟩

theorem exposes_part {before path' : List Nat} {j : Nat}
    (first : exposes gapIn point node bounds (before ++ i :: path) = true)
    (second : exposes gapIn point node bounds (before ++ j :: path') = true) (differ : i ≠ j) :
    ∃ axis ratio a b, descend node before = some (.split axis ratio a b) := by
  induction before generalizing node bounds with
  | nil =>
    cases node with
    | leaf v => cases first
    | split axis ratio a b => exact ⟨axis, ratio, a, b, rfl⟩
    | stack children =>
      simp only [List.nil_append, exposes, Bool.and_eq_true, decide_eq_true_eq] at first second
      omega
    | overlay base floated overlayBounds tier =>
      simp only [List.nil_append, exposes] at first second
      split at first
      next covered =>
        rw [if_pos covered] at second
        simp only [Bool.and_eq_true, decide_eq_true_eq] at first second
        omega
      next clear =>
        rw [if_neg clear] at second
        simp only [Bool.and_eq_true, decide_eq_true_eq] at first second
        omega
  | cons k before ih =>
    rw [List.cons_append] at first second
    cases node with
    | leaf v => cases first
    | split axis ratio a b =>
      simp only [exposes, Bool.or_eq_true, Bool.and_eq_true, decide_eq_true_eq] at first second
      rcases first with ⟨rfl, first⟩ | ⟨rfl, first⟩
      · rcases second with ⟨_, second⟩ | ⟨other, _⟩
        · exact ih first second
        · cases other
      · rcases second with ⟨other, _⟩ | ⟨_, second⟩
        · cases other
        · exact ih first second
    | stack children =>
      simp only [exposes, Bool.and_eq_true, decide_eq_true_eq] at first second
      obtain ⟨child, at_k, _, same⟩ := exposesTop_last gapIn point bounds first.1
      rw [same] at first second
      obtain ⟨axis, ratio, a, b, found⟩ := ih first.2 second.2
      refine ⟨axis, ratio, a, b, ?_⟩
      rw [descend, List.foldlM_cons, childAt, at_k]
      exact found
    | overlay base floated overlayBounds tier =>
      simp only [exposes] at first second
      split at first
      next covered =>
        rw [if_pos covered] at second
        simp only [Bool.and_eq_true, decide_eq_true_eq] at first second
        obtain ⟨rfl, first⟩ := first
        exact ih first second.2
      next clear =>
        rw [if_neg clear] at second
        simp only [Bool.and_eq_true, decide_eq_true_eq] at first second
        obtain ⟨rfl, first⟩ := first
        exact ih first second.2

theorem ids_placedLeaves (gapIn : Nat) (node : LayoutNode) (bounds : Rect) :
    (placedLeaves gapIn node bounds).map (·.id) = node.leafIds := by
  have under : ∀ i, (fun leaf : PlacedLeaf => leaf.id) ∘ PlacedLeaf.under i = fun leaf => leaf.id := fun i => rfl
  unfold leafIds
  induction node using LayoutNode.nodeInduction generalizing bounds with
  | leaf v => rfl
  | split axis ratio first second ih₁ ih₂ =>
    rw [placedLeaves, views, List.map_append, List.map_append, List.map_map, List.map_map, under, under, ih₁, ih₂]
  | stack children ih =>
    rw [placedLeaves, views]
    generalize 0 = i
    induction children generalizing i with
    | nil => rfl
    | cons child rest later =>
      have tail := later (fun c member => ih c (List.mem_cons_of_mem _ member)) (i + 1)
      rw [placedChildren, viewsOf, List.map_append, List.map_append, List.map_map, under, ih child List.mem_cons_self,
        tail]
  | overlay base floated overlayBounds tier ih₁ ih₂ =>
    rw [placedLeaves, views, List.map_append, List.map_append, List.map_map, List.map_map, under, under, ih₁, ih₂]

theorem hitTestLeaf_eq (node : LayoutNode) (bounds : Rect) (gaps : Gaps) (point : Point) :
    node.hitTestLeaf bounds gaps point = ((placedLeaves gaps.inner node (gaps.insetOuter bounds)).find? fun leaf =>
      leaf.rect.containsPoint point).map (·.id) := by
  rw [hitTestLeaf, layoutWithGaps, ← map_placedLeaves, List.find?_map, Option.map_map]
  rfl

/-- The first of the leaves bears the name of the first of the chosen ones where each that is not chosen stands behind
one of that name, or bears it. -/
theorem find?_eq_iff {held : PlacedLeaf → Bool} (chosen : ∀ leaf, seen leaf = true → held leaf = true) :
    (leaves.find? held).map (·.id) = (leaves.find? seen).map (·.id) ↔
      ∀ before leaf after, leaves = before ++ leaf :: after → held leaf = true → seen leaf = false →
        ∃ earlier ∈ before ++ [leaf], held earlier = true ∧ (leaves.find? seen).map (·.id) = some earlier.id := by
  constructor
  · intro same before leaf after split holds _
    have someHeld : (before ++ [leaf]).find? held ≠ none := by
      intro none
      rw [List.find?_eq_none] at none
      exact none leaf (List.mem_append_right _ (List.mem_singleton_self _)) holds
    obtain ⟨earlier, found⟩ := Option.ne_none_iff_exists'.mp someHeld
    refine ⟨earlier, List.mem_of_find?_eq_some found, List.find?_some found, ?_⟩
    rw [← same, split, List.append_cons, List.find?_append, found]
    rfl
  · intro behind
    cases first : leaves.find? held with
    | none =>
      have none : leaves.find? seen = none := by
        rw [List.find?_eq_none] at first ⊢
        exact fun leaf member sees => first leaf member (chosen leaf sees)
      rw [none]
    | some leaf =>
      obtain ⟨holds, before, after, split, clear⟩ := List.find?_eq_some_iff_append.mp first
      cases sees : seen leaf with
      | true =>
        have unseen : ∀ earlier ∈ before, (!seen earlier) = true := by
          intro earlier member
          rw [Bool.not_eq_true']
          refine Bool.eq_false_of_not_eq_true fun sees => ?_
          have none := clear earlier member
          rw [chosen earlier sees] at none
          cases none
        rw [List.find?_eq_some_iff_append.mpr ⟨sees, before, after, split, unseen⟩]
      | false =>
        obtain ⟨earlier, member, holds', shown⟩ := behind before leaf after split holds sees
        rw [shown]
        rcases List.mem_append.mp member with inBefore | here
        · have none := clear earlier inBefore
          rw [holds'] at none
          cases none
        · rw [List.mem_singleton.mp here]
          rfl

theorem clipTo_inside (overlayBounds : Rect) (fits : bounds.Addressable) :
    ((overlayBounds.clipTo bounds).getD .zero).Addressable ∧
    ∀ p, ((overlayBounds.clipTo bounds).getD .zero).containsPoint p = true → bounds.containsPoint p = true := by
  have nowhere : ∀ p, Rect.zero.containsPoint p = false := Rect.containsPoint_of_isEmpty rfl
  have zero : Rect.zero.Addressable := by simp [Rect.Addressable, Rect.zero, Rect.right, Rect.bottom]
  have outside : Rect.zero.Addressable ∧ ∀ p, Rect.zero.containsPoint p = true → bounds.containsPoint p = true := by
    refine ⟨zero, fun p inside => ?_⟩
    rw [nowhere p] at inside
    cases inside
  obtain ⟨right, bottom⟩ := fits
  unfold Rect.clipTo Rect.intersection
  split
  · exact outside
  · dsimp only
    split
    · exact outside
    next some =>
      simp only [Bool.or_eq_true, decide_eq_true_eq, not_or, not_le] at some
      obtain ⟨wide, high⟩ := some
      unfold Rect.right at right wide
      unfold Rect.bottom at bottom high
      simp only [Option.getD_some, Rect.Addressable, Rect.containsPoint_iff, Rect.right, Rect.bottom]
      refine ⟨by omega, fun p inside => ?_⟩
      omega

theorem placedLeaves_inside (fits : bounds.Addressable) : ∀ leaf ∈ placedLeaves gapIn node bounds,
    leaf.rect.containsPoint point = true → bounds.containsPoint point = true := by
  induction node using LayoutNode.nodeInduction generalizing bounds with
  | leaf v =>
    intro leaf member
    rw [placedLeaves, List.mem_singleton] at member
    rw [member]
    exact id
  | split axis ratio first second ih₁ ih₂ =>
    have parts := @splitRectWithGap_splits _ axis gapIn ratio fits
    intro leaf member holds
    rw [placedLeaves] at member
    rcases List.mem_append.mp member with inFirst | inSecond
    · obtain ⟨inner, inside, rfl⟩ := List.mem_map.mp inFirst
      exact parts.first_inside point (ih₁ parts.first_addressable inner inside holds)
    · obtain ⟨inner, inside, rfl⟩ := List.mem_map.mp inSecond
      exact parts.second_inside point (ih₂ parts.second_addressable inner inside holds)
  | stack children ih =>
    rw [placedLeaves]
    generalize 0 = i
    induction children generalizing i with
    | nil => exact List.forall_mem_nil _
    | cons child rest later =>
      intro leaf member
      rw [placedChildren] at member
      rcases List.mem_append.mp member with here | there
      · obtain ⟨inner, inside, rfl⟩ := List.mem_map.mp here
        exact ih child List.mem_cons_self fits inner inside
      · exact later (fun c member => ih c (List.mem_cons_of_mem _ member)) (i + 1) leaf there
  | overlay base floated overlayBounds tier ih₁ ih₂ =>
    obtain ⟨addressable, clipped⟩ := clipTo_inside overlayBounds fits
    intro leaf member holds
    rw [placedLeaves] at member
    rcases List.mem_append.mp member with inBase | inFloated
    · obtain ⟨inner, inside, rfl⟩ := List.mem_map.mp inBase
      exact ih₁ fits inner inside holds
    · obtain ⟨inner, inside, rfl⟩ := List.mem_map.mp inFloated
      exact clipped point (ih₂ addressable inner inside holds)

/-- The second leaf does not hold the point unless it is visible, where the first one is seen there. -/
def Yields (gapIn : Nat) (point : Point) (node : LayoutNode) (bounds : Rect) (earlier leaf : PlacedLeaf) : Prop :=
  Seen gapIn point node bounds earlier = true → leaf.rect.containsPoint point = true →
    exposes gapIn point node bounds leaf.path = true

theorem pairwise_under {R S : PlacedLeaf → PlacedLeaf → Prop}
    (pairs : leaves.Pairwise R) (lift : ∀ {a b}, R a b → S (a.under i) (b.under i)) :
    (leaves.map (.under i)).Pairwise S := by
  rw [List.pairwise_map]
  exact pairs.imp lift

theorem placedChildren_yields
    (ih : ∀ c ∈ children, (placedLeaves gapIn c bounds).Pairwise (Yields gapIn point c bounds)) (i n : Nat)
    (last : n = i + children.length) : (placedChildren gapIn children i bounds).Pairwise fun earlier leaf =>
      ((match earlier.path with
        | [] => true
        | k :: path => k + 1 = n && exposesTop gapIn point children bounds path) &&
          earlier.rect.containsPoint point) = true → leaf.rect.containsPoint point = true →
      (match leaf.path with
        | [] => true
        | k :: path => k + 1 = n && exposesTop gapIn point children bounds path) = true := by
  induction children generalizing i with
  | nil => exact List.Pairwise.nil
  | cons child rest later =>
    rw [placedChildren]
    cases rest with
    | nil =>
      rw [placedChildren, List.append_nil]
      refine pairwise_under (ih child List.mem_cons_self) ?_
      intro a b yields
      have top : i + 1 = n := last.symm
      simpa only [PlacedLeaf.under, exposesTop, top, decide_true, Bool.true_and, Yields, Seen] using yields
    | cons next more =>
      have below : ¬i + 1 = n := by
        rw [last]
        simp only [List.length_cons]
        omega
      rw [List.pairwise_append]
      refine ⟨?_, ?_, ?_⟩
      · refine pairwise_under (ih child List.mem_cons_self) ?_
        intro a b _
        simp only [PlacedLeaf.under, below, decide_false, Bool.false_and, Bool.false_eq_true, false_implies]
      · exact later (fun c member => ih c (List.mem_cons_of_mem _ member)) (i + 1)
          (by rw [last, List.length_cons]; omega)
      · intro earlier member leaf _
        obtain ⟨inner, _, rfl⟩ := List.mem_map.mp member
        simp only [PlacedLeaf.under, below, decide_false, Bool.false_and, Bool.false_eq_true, false_implies]

theorem placedLeaves_yields (gapIn : Nat) (point : Point) (node : LayoutNode) (fits : bounds.Addressable) :
    (placedLeaves gapIn node bounds).Pairwise (Yields gapIn point node bounds) := by
  induction node using LayoutNode.nodeInduction generalizing bounds with
  | leaf v => exact List.pairwise_singleton _ _
  | split axis ratio first second ih₁ ih₂ =>
    have parts := @splitRectWithGap_splits _ axis gapIn ratio fits
    rw [placedLeaves, List.pairwise_append]
    refine ⟨pairwise_under (ih₁ parts.first_addressable) ?_, pairwise_under (ih₂ parts.second_addressable) ?_, ?_⟩
    · intro a b yields
      simpa [Yields, Seen, PlacedLeaf.under, exposes] using yields
    · intro a b yields
      simpa [Yields, Seen, PlacedLeaf.under, exposes] using yields
    · intro earlier inFirst leaf inSecond seen holds
      obtain ⟨a, member, rfl⟩ := List.mem_map.mp inFirst
      obtain ⟨b, member', rfl⟩ := List.mem_map.mp inSecond
      have here := placedLeaves_inside parts.first_addressable a member (Bool.and_eq_true_iff.mp seen).2
      exact absurd (placedLeaves_inside parts.second_addressable b member' holds) (parts.apart point here)
  | stack children ih =>
    have pairs := placedChildren_yields (fun c member => ih c member fits) 0 children.length (Nat.zero_add _).symm
    rw [placedLeaves]
    refine pairs.imp ?_
    intro a b yields seen holds
    have yields := fun seen => yields seen holds
    unfold Seen at seen
    cases pathA : a.path <;> cases pathB : b.path <;> simp_all [exposes]
  | overlay base floated overlayBounds tier ih₁ ih₂ =>
    obtain ⟨addressable, _⟩ := clipTo_inside overlayBounds fits
    rw [placedLeaves, List.pairwise_append]
    by_cases covered : ((overlayBounds.clipTo bounds).getD .zero).containsPoint point = true
    · refine ⟨pairwise_under (ih₁ fits) ?_, pairwise_under (ih₂ addressable) ?_, ?_⟩
      · intro a b _
        simp [Yields, Seen, PlacedLeaf.under, exposes, covered]
      · intro a b yields
        simpa [Yields, Seen, PlacedLeaf.under, exposes, covered] using yields
      · intro earlier inBase leaf _
        obtain ⟨a, _, rfl⟩ := List.mem_map.mp inBase
        simp [Yields, Seen, PlacedLeaf.under, exposes, covered]
    · have clear := Bool.eq_false_of_not_eq_true covered
      refine ⟨pairwise_under (ih₁ fits) ?_, pairwise_under (ih₂ addressable) ?_, ?_⟩
      · intro a b yields
        simpa [Yields, Seen, PlacedLeaf.under, exposes, clear] using yields
      · intro a b _
        simp [Yields, Seen, PlacedLeaf.under, exposes, clear]
      · intro earlier _ leaf inFloated _ holds
        obtain ⟨b, member, rfl⟩ := List.mem_map.mp inFloated
        exact absurd (placedLeaves_inside addressable b member holds) covered

def visibleAt (node : LayoutNode) (bounds : Rect) (gaps : Gaps) (point : Point) : Option ViewId :=
  visibleLeaf gaps.inner point node (gaps.insetOuter bounds)

def leavesAt (node : LayoutNode) (bounds : Rect) (gaps : Gaps) : List PlacedLeaf :=
  placedLeaves gaps.inner node (gaps.insetOuter bounds)

def exposesAt (node : LayoutNode) (bounds : Rect) (gaps : Gaps) (point : Point) (path : List Nat) : Bool :=
  exposes gaps.inner point node (gaps.insetOuter bounds) path

section

variable {gaps : Gaps}

theorem visibleAt_eq_none : node.visibleAt bounds gaps point = none ↔ ∀ leaf ∈ node.leavesAt bounds gaps,
    node.exposesAt bounds gaps point leaf.path = true → leaf.rect.containsPoint point = false := by
  rw [visibleAt, visibleLeaf_eq, Option.map_eq_none_iff, List.find?_eq_none]
  simp only [leavesAt, exposesAt, Seen, Bool.and_eq_true, not_and, Bool.not_eq_true]

theorem exists_of_visibleAt {id : ViewId} (shown : node.visibleAt bounds gaps point = some id) :
    ∃ leaf ∈ node.leavesAt bounds gaps, leaf.id = id ∧ node.exposesAt bounds gaps point leaf.path = true ∧
      leaf.rect.containsPoint point = true := by
  rw [visibleAt, visibleLeaf_eq] at shown
  obtain ⟨leaf, found, eq⟩ := Option.map_eq_some_iff.mp shown
  have seen : Seen gaps.inner point node (gaps.insetOuter bounds) leaf = true := List.find?_some found
  obtain ⟨exposed, holds⟩ := Bool.and_eq_true_iff.mp seen
  exact ⟨leaf, List.mem_of_find?_eq_some found, eq, exposed, holds⟩

theorem hitTestLeaf_eq_visibleAt : node.hitTestLeaf bounds gaps point = node.visibleAt bounds gaps point ↔
    ∀ before leaf after, node.leavesAt bounds gaps = before ++ leaf :: after → leaf.rect.containsPoint point = true →
      node.exposesAt bounds gaps point leaf.path = false → ∃ earlier ∈ before ++ [leaf],
        earlier.rect.containsPoint point = true ∧ node.visibleAt bounds gaps point = some earlier.id := by
  have chosen : ∀ leaf, Seen gaps.inner point node (gaps.insetOuter bounds) leaf = true →
    leaf.rect.containsPoint point = true := fun leaf seen => (Bool.and_eq_true_iff.mp seen).2
  rw [hitTestLeaf_eq, visibleAt, visibleLeaf_eq, find?_eq_iff chosen]
  refine forall_congr' fun before => forall_congr' fun leaf => forall_congr' fun after => ?_
  refine imp_congr_right fun _ => imp_congr_right fun holds => ?_
  rw [Seen, holds, Bool.and_true]
  rfl

theorem hitTestLeaf_eq_visibleAt_of_nodup (fits : bounds.Addressable) (distinct : node.leafIds.Nodup) :
    node.hitTestLeaf bounds gaps point = node.visibleAt bounds gaps point ↔ ∀ leaf ∈ node.leavesAt bounds gaps,
      node.exposesAt bounds gaps point leaf.path = false → leaf.rect.containsPoint point = false := by
  rw [hitTestLeaf_eq_visibleAt]
  constructor
  · intro behind leaf member hidden
    refine Bool.eq_false_of_not_eq_true fun holds => ?_
    obtain ⟨before, after, split⟩ := List.append_of_mem member
    obtain ⟨earlier, inBefore, _, shown⟩ := behind before leaf after split holds hidden
    obtain ⟨seen, inLeaves, sameId, exposed, holds'⟩ := exists_of_visibleAt shown
    have once : ((node.leavesAt bounds gaps).map (·.id)).Nodup := by
      rw [leavesAt, ids_placedLeaves]
      exact distinct
    have inLeaves' : earlier ∈ node.leavesAt bounds gaps := by
      rw [split, List.append_cons]
      exact List.mem_append_left _ inBefore
    obtain rfl := List.inj_on_of_nodup_map once inLeaves inLeaves' sameId
    rcases List.mem_append.mp inBefore with inBefore | here
    · have inset : (gaps.insetOuter bounds).Addressable := Gaps.insetOuter_addressable fits
      have yields := placedLeaves_yields gaps.inner point node inset
      rw [leavesAt] at split
      rw [split] at yields
      have shown := (List.pairwise_append.mp yields).2.2 seen inBefore leaf List.mem_cons_self
        (Bool.and_eq_true_iff.mpr ⟨exposed, holds'⟩) holds
      rw [exposesAt, shown] at hidden
      cases hidden
    · rw [← List.mem_singleton.mp here, exposed] at hidden
      cases hidden
  · intro clear before leaf after split holds hidden
    have member : leaf ∈ node.leavesAt bounds gaps := by
      rw [split]
      exact List.mem_append_right _ List.mem_cons_self
    rw [clear leaf member hidden] at holds
    cases holds

end

/-- The leaf under the pointer is the visible one if and only if each hidden leaf that holds the point stands, depth
first, behind a leaf with the name of the visible one. The handles under the pointer are always of the visible
branch. -/
theorem hitTestLeaf_visible_iff (node : LayoutNode) (bounds : Rect) (gaps : Gaps) (point : Point) :
    (node.hitTestLeaf bounds gaps point = node.visibleAt bounds gaps point ↔
      ∀ before leaf after, node.leavesAt bounds gaps = before ++ leaf :: after → leaf.rect.containsPoint point = true →
        node.exposesAt bounds gaps point leaf.path = false → ∃ earlier ∈ before ++ [leaf],
          earlier.rect.containsPoint point = true ∧ node.visibleAt bounds gaps point = some earlier.id) ∧
    (bounds.Addressable → node.leafIds.Nodup →
      (node.hitTestLeaf bounds gaps point = node.visibleAt bounds gaps point ↔ ∀ leaf ∈ node.leavesAt bounds gaps,
        node.exposesAt bounds gaps point leaf.path = false → leaf.rect.containsPoint point = false)) ∧
    (node.visibleAt bounds gaps point = none ↔ ∀ leaf ∈ node.leavesAt bounds gaps,
      node.exposesAt bounds gaps point leaf.path = true → leaf.rect.containsPoint point = false) ∧
    (∀ handle ∈ node.hitTestSplitHandles bounds gaps point, node.exposesAt bounds gaps point handle.1 = true) ∧
    ∀ before i j path path', node.exposesAt bounds gaps point (before ++ i :: path) = true →
      node.exposesAt bounds gaps point (before ++ j :: path') = true → i ≠ j →
      ∃ axis ratio a b, node.descend before = some (.split axis ratio a b) :=
  ⟨hitTestLeaf_eq_visibleAt, hitTestLeaf_eq_visibleAt_of_nodup, visibleAt_eq_none, fun _ => exposes_of_handle,
    fun _ _ _ _ _ => exposes_part⟩

/-- A leaf by itself hides nothing. -/
theorem hitTestLeaf_visible_iff_leaf : (LayoutNode.leaf (.new 1 80 24)).hitTestLeaf ⟨0, 0, 80, 24⟩ .ZERO ⟨5, 5⟩ =
    (LayoutNode.leaf (.new 1 80 24)).visibleAt ⟨0, 0, 80, 24⟩ .ZERO ⟨5, 5⟩ :=
  ((hitTestLeaf_visible_iff _ _ _ _).2.1 ⟨by decide, by decide⟩ (by decide)).mpr (by decide)

/-- Of two stacked leaves the hit test returns the hidden one. -/
theorem hitTestLeaf_stacked :
    (LayoutNode.stack [.leaf (.new 1 80 24), .leaf (.new 2 80 24)]).hitTestLeaf ⟨0, 0, 80, 24⟩ .ZERO ⟨5, 5⟩ = some 1 ∧
    (LayoutNode.stack [.leaf (.new 1 80 24), .leaf (.new 2 80 24)]).visibleAt ⟨0, 0, 80, 24⟩ .ZERO ⟨5, 5⟩ = some 2 := by
  decide

end LayoutNode

end Bitty.Ui
