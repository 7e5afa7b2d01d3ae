import Bitty.Library.Mosaic
import Bitty.Ui.Tiling

namespace Bitty.Ui

open Mosaic

inductive FocusDirection
  | next | prev | up | down | left | right
  deriving DecidableEq

structure Focus where
  focused : Option ViewId

namespace LayoutNode

mutual

/-- The splits on the way to the leaf, each with the child taken; stacks and overlays are no level. -/
def pathToLeaf (id : ViewId) : LayoutNode → Option (List (SplitAxis × Nat))
  | .leaf v => if v.id = id then some [] else none
  | .split axis _ first second =>
    ((pathToLeaf id first).map ((axis, 0) :: ·)).or ((pathToLeaf id second).map ((axis, 1) :: ·))
  | .stack children => pathToLeafOf id children
  | .overlay base floated _ _ => (pathToLeaf id base).or (pathToLeaf id floated)

def pathToLeafOf (id : ViewId) : List LayoutNode → Option (List (SplitAxis × Nat))
  | [] => none
  | c :: rest => (pathToLeaf id c).or (pathToLeafOf id rest)

end

end LayoutNode

structure TreeRank where
  depth : Nat
  offEdge : Bool

namespace TreeRank

def NONE : TreeRank := ⟨4294967295, true⟩

def cmp (a b : TreeRank) : Ordering := (compare a.depth b.depth).then (compare a.offEdge b.offEdge)

end TreeRank

def sharedDepth : List (SplitAxis × Nat) → List (SplitAxis × Nat) → Nat
  | a :: as, b :: bs => if a = b then sharedDepth as bs + 1 else 0
  | _, _ => 0

def treeDirectionRank (node : LayoutNode) (current candidate : ViewId) (dir : FocusDirection) : Option TreeRank :=
  if dir = .next || dir = .prev then none
  else do
    let currentPath ← node.pathToLeaf current
    let candidatePath ← node.pathToLeaf candidate
    let depth := sharedDepth currentPath candidatePath
    let (axis, currentIndex) ← currentPath[depth]?
    let (_, candidateIndex) ← candidatePath[depth]?
    let forward : Bool := match dir with
      | .right => axis = .horizontal && currentIndex = 0 && candidateIndex = 1
      | .left => axis = .horizontal && currentIndex = 1 && candidateIndex = 0
      | .down => axis = .vertical && currentIndex = 0 && candidateIndex = 1
      | .up => axis = .vertical && currentIndex = 1 && candidateIndex = 0
      | .next | .prev => false
    if !forward then none
    else
      let firstOnEdge : Bool := dir = .right || dir = .down
      let edgeIndex := if firstOnEdge then 0 else 1
      let offEdge := (candidatePath.drop (depth + 1)).any fun step => step.2 ≠ edgeIndex
      some ⟨min depth 4294967295, offEdge⟩

structure SeparatedPlacement where
  edgeDistance : Int
  perpendicularOverlap : Int
  perpendicularDistance : Int

def overlap1d (a0 a1 b0 b1 : Int) : Int := max (min a1 b1 - max a0 b0) 0

/-- Where the candidate lies when it is fully beyond the focused leaf, else nothing. -/
def separatedPlacement (candidate current : Rect) (dir : FocusDirection) : Option SeparatedPlacement :=
  let cx0 : Int := candidate.x
  let cy0 : Int := candidate.y
  let cx1 := cx0 + candidate.width
  let cy1 := cy0 + candidate.height
  let curX0 : Int := current.x
  let curY0 : Int := current.y
  let curX1 := curX0 + current.width
  let curY1 := curY0 + current.height
  let centerDx := (cx0 + cx1) - (curX0 + curX1)
  let centerDy := (cy0 + cy1) - (curY0 + curY1)
  let overlapX := overlap1d cx0 cx1 curX0 curX1
  let overlapY := overlap1d cy0 cy1 curY0 curY1
  match dir with
  | .up => if cy1 ≤ curY0 then some ⟨curY0 - cy1, overlapX, centerDx.natAbs⟩ else none
  | .down => if cy0 ≥ curY1 then some ⟨cy0 - curY1, overlapX, centerDx.natAbs⟩ else none
  | .left => if cx1 ≤ curX0 then some ⟨curX0 - cx1, overlapY, centerDy.natAbs⟩ else none
  | .right => if cx0 ≥ curX1 then some ⟨cx0 - curX1, overlapY, centerDy.natAbs⟩ else none
  | .next | .prev => none

structure SpatialCandidate where
  id : ViewId
  order : Nat
  distance : Int
  overlap : Int
  treeRank : TreeRank
  perpendicularDistance : Int

namespace SpatialCandidate

/-- The comparison a group is sorted by; the wider overlap is the lesser. -/
def ordering (a b : SpatialCandidate) : Ordering :=
  (compare a.distance b.distance).then <| (a.treeRank.cmp b.treeRank).then <|
    (compare b.overlap a.overlap).then <| (compare a.perpendicularDistance b.perpendicularDistance).then <|
    (compare a.order b.order).then (compare a.id b.id)

def sorted (group : List SpatialCandidate) : List SpatialCandidate :=
  group.insertionSort fun a b => a.ordering b ≠ .gt

/-- The first of the aligned candidates, or of the disjoint ones where none is aligned. -/
def best (candidates : List SpatialCandidate) : Option SpatialCandidate :=
  (sorted (candidates.filter fun c => 0 < c.overlap)).head?.or
    (sorted (candidates.filter fun c => ¬ 0 < c.overlap)).head?

def ofAllocation (node : LayoutNode) (cur : ViewId) (curRect : Rect) (dir : FocusDirection)
    (allocation : ViewId × Rect) : Option SpatialCandidate :=
  let (id, rect) := allocation
  if id = cur || rect.width = 0 || rect.height = 0 then none
  else do
    let order ← node.leafIds.findIdx? (· = id)
    let placement ← separatedPlacement rect curRect dir
    some {
      id, order
      distance := placement.edgeDistance
      overlap := placement.perpendicularOverlap
      treeRank := (treeDirectionRank node cur id dir).getD .NONE
      perpendicularDistance := placement.perpendicularDistance }

end SpatialCandidate

namespace Focus

def withFocus (id : ViewId) : Focus := ⟨some id⟩

def neighbor (focus : Focus) (node : LayoutNode) (step : Int) : Option ViewId :=
  let ids := node.leafIds
  if ids.isEmpty then none
  else
    let cur := focus.focused.bind fun f => ids.findIdx? (· = f)
    let nextIdx := match cur with
      | some idx => (((idx : Int) + step) % (ids.length : Int)).toNat
      | none => if step ≥ 0 then 0 else ids.length - 1
    ids[nextIdx]?

def next (focus : Focus) (node : LayoutNode) : Option ViewId := focus.neighbor node 1

def prev (focus : Focus) (node : LayoutNode) : Option ViewId := focus.neighbor node (-1)

def spatial (focus : Focus) (node : LayoutNode) (container : Rect) (gaps : Gaps) (dir : FocusDirection) :
    Option ViewId :=
  match focus.focused with
  | none => focus.next node
  | some cur => do
    let alloc := node.layoutWithGaps container gaps
    let (_, curRect) ← alloc.find? (·.1 = cur)
    if curRect.width = 0 || curRect.height = 0 then some cur
    else
      match SpatialCandidate.best (alloc.filterMap (SpatialCandidate.ofAllocation node cur curRect dir)) with
      | some candidate => some candidate.id
      | none => some cur

def advanceWithGaps (focus : Focus) (node : LayoutNode) (container : Rect) (gaps : Gaps) (dir : FocusDirection) :
    Option ViewId :=
  match dir with
  | .next => focus.next node
  | .prev => focus.prev node
  | .up | .down | .left | .right => focus.spatial node container gaps dir

def advance (focus : Focus) (node : LayoutNode) (container : Rect) (dir : FocusDirection) : Option ViewId :=
  focus.advanceWithGaps node container .ZERO dir

def moveFocus (node : LayoutNode) (container : Rect) (dir : FocusDirection) (focus : Focus) : Focus :=
  match focus.advance node container dir with
  | some id => ⟨some id⟩
  | none => focus

end Focus

def FocusDirection.Spatial (dir : FocusDirection) : Prop := dir ≠ .next ∧ dir ≠ .prev

instance (dir : FocusDirection) : Decidable dir.Spatial := by
  unfold FocusDirection.Spatial
  infer_instance

def Touches (dir : FocusDirection) (container r : Rect) : Prop :=
  match dir with
  | .up => r.y = container.y
  | .down => r.bottom = container.bottom
  | .left => r.x = container.x
  | .right => r.right = container.right
  | .next | .prev => False

def Faces (dir : FocusDirection) (r s : Rect) : Prop :=
  match dir with
  | .up => s.bottom = r.y ∧ r.x < s.right ∧ s.x < r.right
  | .down => s.y = r.bottom ∧ r.x < s.right ∧ s.x < r.right
  | .left => s.right = r.x ∧ r.y < s.bottom ∧ s.y < r.bottom
  | .right => s.x = r.right ∧ r.y < s.bottom ∧ s.y < r.bottom
  | .next | .prev => False

def Rect.facing (dir : FocusDirection) (r : Rect) : Facing :=
  match dir with
  | .up => ⟨-r.bottom, -r.y, r.x, r.right⟩
  | .down => ⟨r.y, r.bottom, r.x, r.right⟩
  | .left => ⟨-r.right, -r.x, r.y, r.bottom⟩
  | .right => ⟨r.x, r.right, r.y, r.bottom⟩
  | .next | .prev => ⟨0, 0, 0, 0⟩

def FocusDirection.cell (dir : FocusDirection) (along across : Int) : Point :=
  match dir with
  | .up => ⟨across.toNat, (-along - 1).toNat⟩
  | .down => ⟨across.toNat, along.toNat⟩
  | .left => ⟨(-along - 1).toNat, across.toNat⟩
  | .right => ⟨along.toNat, across.toNat⟩
  | .next | .prev => ⟨0, 0⟩

def FocusDirection.OnScreen (dir : FocusDirection) (along across : Int) : Prop :=
  match dir with
  | .up | .left => along < 0 ∧ 0 ≤ across
  | .down | .right => 0 ≤ along ∧ 0 ≤ across
  | .next | .prev => False

section

variable {dir : FocusDirection} {r s container : Rect}

theorem touches_iff (spatial : dir.Spatial) :
    Touches dir container r ↔ (r.facing dir).leave = (container.facing dir).leave := by
  cases dir with
  | next => exact absurd rfl spatial.1
  | prev => exact absurd rfl spatial.2
  | up | down | left | right => simp only [Touches, Rect.facing]; omega

theorem faces_iff (spatial : dir.Spatial) : Faces dir r s ↔ (r.facing dir).Borders (s.facing dir) := by
  have split : (r.facing dir).Borders (s.facing dir) ↔ (s.facing dir).enter = (r.facing dir).leave ∧
      (r.facing dir).near < (s.facing dir).far ∧ (s.facing dir).near < (r.facing dir).far :=
    ⟨fun borders => ⟨borders.meets, borders.near, borders.far⟩, fun ⟨meets, near, far⟩ => ⟨meets, near, far⟩⟩
  rw [split]
  cases dir with
  | next => exact absurd rfl spatial.1
  | prev => exact absurd rfl spatial.2
  | up | down | left | right => simp only [Faces, Rect.facing]; omega

theorem solid_iff (spatial : dir.Spatial) : (r.facing dir).Solid ↔ r.isEmpty = false := by
  simp only [Rect.isEmpty, Facing.Solid, Bool.or_eq_false_iff, decide_eq_false_iff_not]
  cases dir with
  | next => exact absurd rfl spatial.1
  | prev => exact absurd rfl spatial.2
  | up | down | left | right => simp only [Rect.facing, Rect.right, Rect.bottom]; omega

theorem holds_facing_iff (spatial : dir.Spatial) {along across : Int} :
    (r.facing dir).Holds along across ↔ dir.OnScreen along across ∧ r.containsPoint (dir.cell along across) := by
  simp only [Facing.Holds, Rect.containsPoint_iff]
  cases dir with
  | next => exact absurd rfl spatial.1
  | prev => exact absurd rfl spatial.2
  | up | down | left | right =>
    simp only [Rect.facing, Rect.right, Rect.bottom, FocusDirection.OnScreen, FocusDirection.cell]
    omega

theorem layout_tiles {node : LayoutNode} (tiling : node.IsTiling) (fits : container.Addressable)
    (spatial : dir.Spatial) :
    Tiles (fun a => a.2.facing dir) (node.layout container) (container.facing dir) where
  inside a member along across holds := by
    obtain ⟨onScreen, inside⟩ := (holds_facing_iff spatial).mp holds
    exact (holds_facing_iff spatial).mpr ⟨onScreen, LayoutNode.layoutInner_inside tiling fits a member _ inside⟩
  apart := by
    refine (LayoutNode.layoutInner_apart tiling fits).imp ?_
    intro a b apart along across holdsA holdsB
    exact apart _ ((holds_facing_iff spatial).mp holdsA).2 ((holds_facing_iff spatial).mp holdsB).2
  cover along across holds := by
    obtain ⟨onScreen, inside⟩ := (holds_facing_iff spatial).mp holds
    rcases LayoutNode.layoutInner_cover tiling fits inside with once | ⟨_, gap, _⟩
    · obtain ⟨a, member, holdsA⟩ := List.countP_pos_iff.mp (once ▸ Nat.one_pos)
      exact ⟨a, member, (holds_facing_iff spatial).mpr ⟨onScreen, holdsA⟩⟩
    · exact absurd rfl gap

theorem separatedPlacement_eq_some {placement : SeparatedPlacement} (spatial : dir.Spatial) :
    separatedPlacement s r dir = some placement ↔
      (r.facing dir).leave ≤ (s.facing dir).enter ∧
      placement.edgeDistance = (s.facing dir).enter - (r.facing dir).leave ∧
      placement.perpendicularOverlap =
        overlap1d (s.facing dir).near (s.facing dir).far (r.facing dir).near (r.facing dir).far ∧
      placement.perpendicularDistance = Int.natAbs
        ((s.facing dir).near + (s.facing dir).far - ((r.facing dir).near + (r.facing dir).far)) := by
  obtain ⟨edge, overlap, center⟩ := placement
  cases dir with
  | next => exact absurd rfl spatial.1
  | prev => exact absurd rfl spatial.2
  | up | down | left | right =>
    simp only [separatedPlacement, Rect.facing, Rect.right, Rect.bottom, Nat.cast_add, Option.ite_none_right_eq_some,
      Option.some.injEq, SeparatedPlacement.mk.injEq]
    omega

namespace SpatialCandidate

variable {node : LayoutNode} {cur : ViewId} {a : ViewId × Rect} {c : SpatialCandidate}

theorem sorted_least {group : List SpatialCandidate} (head : (sorted group).head? = some c) :
    c ∈ group ∧ ∀ d ∈ group, c.distance ≤ d.distance := by
  constructor
  · exact (List.mem_insertionSort _).mp (List.mem_of_head? head)
  · refine insertionSort_least distance ?_ ?_ head
    · intro a b before
      by_contra further
      have gt : compare a.distance b.distance = .gt := compare_gt_iff_gt.mpr (by omega)
      exact before (by rw [ordering, gt]; rfl)
    · intro a b after
      by_contra nearer
      have lt : compare a.distance b.distance = .lt := compare_lt_iff_lt.mpr (by omega)
      exact after (by rw [ordering, lt]; exact Ordering.noConfusion)

theorem best_eq_none {candidates : List SpatialCandidate} (none : candidates = []) : best candidates = .none := by
  subst none
  rfl

theorem best_aligned {candidates : List SpatialCandidate} (member : c ∈ candidates) (aligned : 0 < c.overlap) :
    ∃ b ∈ candidates, best candidates = some b ∧ 0 < b.overlap ∧ b.distance ≤ c.distance := by
  have inGroup : c ∈ candidates.filter fun c => 0 < c.overlap :=
    List.mem_filter.mpr ⟨member, decide_eq_true aligned⟩
  cases head : (sorted (candidates.filter fun c => 0 < c.overlap)).head? with
  | none =>
    have empty := List.head?_eq_none_iff.mp head
    have inSorted : c ∈ sorted (candidates.filter fun c => 0 < c.overlap) := (List.mem_insertionSort _).mpr inGroup
    rw [empty] at inSorted
    cases inSorted
  | some b =>
    obtain ⟨inB, least⟩ := sorted_least head
    obtain ⟨inAll, positive⟩ := List.mem_filter.mp inB
    exact ⟨b, inAll, by rw [best, head]; rfl, of_decide_eq_true positive, least c inGroup⟩

/-- What makes an allocation the candidate `c`: it is fully beyond the focused leaf, and its rank is read off
the two rectangles. -/
structure Places (dir : FocusDirection) (r : Rect) (a : ViewId × Rect) (c : SpatialCandidate) : Prop where
  id : c.id = a.1
  solid : (a.2.facing dir).Solid
  beyond : (r.facing dir).leave ≤ (a.2.facing dir).enter
  distance : c.distance = (a.2.facing dir).enter - (r.facing dir).leave
  overlap : c.overlap = overlap1d (a.2.facing dir).near (a.2.facing dir).far (r.facing dir).near (r.facing dir).far

theorem ofAllocation_places (spatial : dir.Spatial) (made : ofAllocation node cur r dir a = some c) :
    Places dir r a c := by
  obtain ⟨id, rect⟩ := a
  unfold ofAllocation at made
  dsimp only at made
  split at made
  · cases made
  · rename_i kept
    obtain ⟨order, _, made⟩ := Option.bind_eq_some_iff.mp made
    obtain ⟨placement, placed, made⟩ := Option.bind_eq_some_iff.mp made
    obtain ⟨beyond, edge, overlap, _⟩ := (separatedPlacement_eq_some spatial).mp placed
    cases Option.some.inj made
    refine ⟨rfl, (solid_iff spatial).mpr ?_, beyond, edge, overlap⟩
    simp only [Bool.or_eq_true, decide_eq_true_eq, not_or] at kept
    simp only [Rect.isEmpty, Bool.or_eq_false_iff, decide_eq_false_iff_not]
    exact ⟨kept.1.2, kept.2⟩

theorem ofAllocation_exists (spatial : dir.Spatial) (leaf : a.1 ∈ node.leafIds) (other : a.1 ≠ cur)
    (solid : (a.2.facing dir).Solid) (beyond : (r.facing dir).leave ≤ (a.2.facing dir).enter) :
    ∃ c, ofAllocation node cur r dir a = some c := by
  obtain ⟨id, rect⟩ := a
  dsimp only at leaf other solid beyond
  obtain ⟨wide, tall⟩ : rect.width ≠ 0 ∧ rect.height ≠ 0 := by
    have shown := (solid_iff spatial).mp solid
    simpa only [Rect.isEmpty, Bool.or_eq_false_iff, decide_eq_false_iff_not] using shown
  obtain ⟨order, found⟩ : ∃ order, node.leafIds.findIdx? (fun x => decide (x = id)) = some order := by
    rw [← Option.isSome_iff_exists, List.findIdx?_isSome, List.any_eq_true]
    exact ⟨id, leaf, decide_eq_true rfl⟩
  obtain ⟨placement, placed⟩ : ∃ placement, separatedPlacement rect r dir = some placement :=
    ⟨⟨_, _, _⟩, (separatedPlacement_eq_some spatial).mpr ⟨beyond, rfl, rfl, rfl⟩⟩
  simp [ofAllocation, other, wide, tall, found, placed]

end SpatialCandidate

theorem splitExtent_two (start : Nat) (ratio : Binary32) :
    splitExtent start 2 ratio 0 = ((start, 1), (saturatingAdd start 1, 1)) := by
  simp [splitExtent, saturatingAdd]

namespace Focus

variable {node : LayoutNode} {cur : ViewId}

theorem eq_of_id (tiling : node.IsTiling) (distinct : node.leafIds.Nodup) {a b : ViewId × Rect}
    (inA : a ∈ node.layout container) (inB : b ∈ node.layout container) (same : a.1 = b.1) : a = b := by
  have nodup : ((node.layout container).map Prod.fst).Nodup :=
    (LayoutNode.layoutInner_ids 0 tiling container).symm ▸ distinct
  exact List.inj_on_of_nodup_map nodup inA inB same

theorem advance_eq (tiling : node.IsTiling) (distinct : node.leafIds.Nodup) (spatial : dir.Spatial)
    (leaf : (cur, r) ∈ node.layout container) (visible : r.isEmpty = false) :
    (withFocus cur).advance node container dir =
      some (((SpatialCandidate.best ((node.layout container).filterMap
        (SpatialCandidate.ofAllocation node cur r dir))).map (·.id)).getD cur) := by
  have found : (node.layout container).find? (fun a => decide (a.1 = cur)) = some (cur, r) := by
    cases at_ : (node.layout container).find? fun a => decide (a.1 = cur) with
    | none => exact absurd (decide_eq_true rfl) (List.find?_eq_none.mp at_ _ leaf)
    | some a =>
      have same : decide (a.1 = cur) = true := List.find?_some (p := fun b : ViewId × Rect => decide (b.1 = cur)) at_
      rw [eq_of_id tiling distinct (List.mem_of_find?_eq_some at_) leaf (of_decide_eq_true same)]
  have turned : (withFocus cur).advance node container dir =
      (withFocus cur).spatial node container .ZERO dir := by
    cases dir with
    | next => exact absurd rfl spatial.1
    | prev => exact absurd rfl spatial.2
    | up | down | left | right => rfl
  obtain ⟨wide, tall⟩ : r.width ≠ 0 ∧ r.height ≠ 0 := by
    simpa only [Rect.isEmpty, Bool.or_eq_false_iff, decide_eq_false_iff_not] using visible
  rw [turned, Focus.spatial, withFocus]
  dsimp only
  rw [show node.layoutWithGaps container .ZERO = node.layout container from rfl, found]
  simp only [Option.bind_eq_bind, Option.bind_some, wide, tall, decide_false, Bool.or_self, Bool.false_eq_true, if_false]
  cases SpatialCandidate.best _ <;> rfl

theorem advance_stays (tiling : node.IsTiling) (distinct : node.leafIds.Nodup) (fits : container.Addressable)
    (spatial : dir.Spatial) (leaf : (cur, r) ∈ node.layout container) (visible : r.isEmpty = false)
    (touches : Touches dir container r) : (withFocus cur).advance node container dir = some cur := by
  have ends := (touches_iff spatial).mp touches
  rw [advance_eq tiling distinct spatial leaf visible, SpatialCandidate.best_eq_none]
  · rfl
  · rw [List.filterMap_eq_nil_iff]
    intro a member
    by_contra made
    obtain ⟨c, made⟩ := Option.ne_none_iff_exists'.mp made
    have places := SpatialCandidate.ofAllocation_places spatial made
    have behind := (layout_tiles tiling fits spatial).none_beyond (a := (cur, r)) ends member places.solid
    have beyond := places.beyond
    dsimp only at behind
    omega

theorem advance_faces (tiling : node.IsTiling) (distinct : node.leafIds.Nodup) (fits : container.Addressable)
    (spatial : dir.Spatial) (leaf : (cur, r) ∈ node.layout container) (visible : r.isEmpty = false)
    (inner : ¬ Touches dir container r) :
    ∃ next s, (withFocus cur).advance node container dir = some next ∧ (next, s) ∈ node.layout container ∧
      s.isEmpty = false ∧ Faces dir r s ∧ next ≠ cur := by
  have tiles := layout_tiles tiling fits spatial
  have solid := (solid_iff spatial).mpr visible
  have upto := tiles.leave_le leaf solid
  have short : (r.facing dir).leave < (container.facing dir).leave :=
    lt_of_le_of_ne upto fun ends => inner ((touches_iff spatial).mpr ends)
  have differs : ∀ b ∈ node.layout container, (b.2.facing dir).Solid → (r.facing dir).leave ≤ (b.2.facing dir).enter →
      b.1 ≠ cur := by
    intro b member _ beyond same
    have eq := eq_of_id tiling distinct member leaf same
    rw [eq] at beyond
    have along := solid.1
    dsimp only at beyond
    omega
  obtain ⟨b, member, solidB, borders⟩ := tiles.borders leaf solid short
  dsimp only at solidB borders
  have listed : b.1 ∈ node.leafIds := by
    rw [← LayoutNode.layoutInner_ids 0 tiling container]
    exact List.mem_map_of_mem member
  have beyond := borders.meets.ge
  obtain ⟨c, made⟩ := @SpatialCandidate.ofAllocation_exists _ r node cur b spatial listed
    (differs b member solidB beyond) solidB beyond
  have places := SpatialCandidate.ofAllocation_places spatial made
  have atZero : c.distance = 0 := by
    have distance := places.distance
    have meets := borders.meets
    omega
  have aligned : 0 < c.overlap := by
    have overlap := places.overlap
    obtain ⟨_, near, far⟩ := borders
    have across := solid.2
    have acrossB := solidB.2
    unfold overlap1d at overlap
    omega
  obtain ⟨d, inD, best, positive, nearest⟩ :=
    SpatialCandidate.best_aligned (List.mem_filterMap.mpr ⟨b, member, made⟩) aligned
  obtain ⟨e, inE, madeD⟩ := List.mem_filterMap.mp inD
  have placesD := SpatialCandidate.ofAllocation_places spatial madeD
  refine ⟨e.1, e.2, ?_, inE, (solid_iff spatial).mp placesD.solid, ?_, differs e inE placesD.solid placesD.beyond⟩
  · rw [advance_eq tiling distinct spatial leaf visible, best]
    simp [placesD.id]
  · have distance := placesD.distance
    have ahead := placesD.beyond
    have overlap := placesD.overlap
    unfold overlap1d at overlap
    rw [faces_iff spatial]
    constructor <;> omega

/-- The focus goes where the screen shows the next pane: it stays at the edge of the container and nowhere else,
it crosses one edge at a time, and it runs out of panes before it runs out of leaves. -/
theorem advance_follows (tiling : node.IsTiling) (distinct : node.leafIds.Nodup)
    (fits : container.right ≤ 65535 ∧ container.bottom ≤ 65535) (spatial : dir.Spatial)
    (leaf : (cur, r) ∈ node.layout container) (visible : r.isEmpty = false) :
    ((withFocus cur).advance node container dir = some cur ↔ Touches dir container r) ∧
    (¬ Touches dir container r → ∃ next s, (withFocus cur).advance node container dir = some next ∧
      (next, s) ∈ node.layout container ∧ s.isEmpty = false ∧ Faces dir r s) ∧
    ∃ n < node.leafIds.length, ∃ last s,
      ((moveFocus node container dir)^[n] (withFocus cur)).focused = some last ∧
      (last, s) ∈ node.layout container ∧ s.isEmpty = false ∧ Touches dir container s := by
  refine ⟨⟨?_, advance_stays tiling distinct fits spatial leaf visible⟩, ?_, ?_⟩
  · intro stays
    by_contra inner
    obtain ⟨next, s, moved, _, _, _, other⟩ := advance_faces tiling distinct fits spatial leaf visible inner
    rw [stays] at moved
    exact other (Option.some.inj moved).symm
  · intro inner
    obtain ⟨next, s, moved, member, shown, faces, _⟩ :=
      advance_faces tiling distinct fits spatial leaf visible inner
    exact ⟨next, s, moved, member, shown, faces⟩
  · have tiles := layout_tiles tiling fits spatial
    obtain ⟨n, few, b, member, here, solid, ends⟩ := tiles.walk (moveFocus node container dir)
      (fun focus a => focus = withFocus a.1) (a := (cur, r)) (s := withFocus cur) (by
        rintro focus ⟨id, q⟩ rfl inQ solidQ short
        obtain ⟨next, s, moved, member, shown, faces, _⟩ := advance_faces tiling distinct fits spatial inQ
          ((solid_iff spatial).mp solidQ) fun touches => short.ne ((touches_iff spatial).mp touches)
        refine ⟨(next, s), member, ?_, (solid_iff spatial).mpr shown, (faces_iff spatial).mp faces⟩
        rw [moveFocus, moved]
        rfl) rfl leaf ((solid_iff spatial).mpr visible)
    have count : (node.layout container).length = node.leafIds.length := by
      rw [← LayoutNode.layoutInner_ids 0 tiling container, List.length_map]
      rfl
    refine ⟨n, count ▸ few, b.1, b.2, ?_, member, (solid_iff spatial).mp solid, (touches_iff spatial).mpr ends⟩
    rw [here]
    rfl

def threePanes : LayoutNode :=
  .split .horizontal (.finite (1 / 2)) (.leaf (.new 1 1 1))
    (.split .vertical .nan (.leaf (.new 2 1 1)) (.leaf (.new 3 1 1)))

theorem threePanes_layout :
    threePanes.layout ⟨0, 0, 2, 2⟩ = [(1, ⟨0, 0, 1, 2⟩), (2, ⟨1, 0, 1, 1⟩), (3, ⟨1, 1, 1, 1⟩)] := by
  change LayoutNode.layoutInner 0 threePanes ⟨0, 0, 2, 2⟩ = _
  simp [threePanes, LayoutNode.layoutInner, splitRectWithGap, Rect.isEmpty, splitExtent_two, saturatingAdd, View.new]

/-- The pane in the lower right goes left across the edge of the left column. -/
theorem advance_follows_three :
    (withFocus 3).advance threePanes ⟨0, 0, 2, 2⟩ .left ≠ some 3 ∧
    ∃ next s, (withFocus 3).advance threePanes ⟨0, 0, 2, 2⟩ .left = some next ∧
      (next, s) ∈ threePanes.layout ⟨0, 0, 2, 2⟩ ∧ s.isEmpty = false ∧ Faces .left ⟨1, 1, 1, 1⟩ s := by
  have leaf : (3, Rect.mk 1 1 1 1) ∈ threePanes.layout ⟨0, 0, 2, 2⟩ := by
    rw [threePanes_layout]
    decide
  have inner : ¬ Touches .left ⟨0, 0, 2, 2⟩ ⟨1, 1, 1, 1⟩ := by
    unfold Touches
    decide
  have follows := @advance_follows .left ⟨1, 1, 1, 1⟩ ⟨0, 0, 2, 2⟩ threePanes 3
    (.split _ _ (.leaf _) (.split _ _ (.leaf _) (.leaf _))) (by decide) (by decide) (by decide) leaf (by decide)
  exact ⟨fun stays => inner (follows.1.mp stays), follows.2.1 inner⟩

def twoPanes : LayoutNode := .split .horizontal (.finite (1 / 2)) (.leaf (.new 1 1 1)) (.leaf (.new 2 1 1))

/-- In the last column and the one past it, which no 16-bit column reaches, both panes are given the last column:
the first does not touch the right edge and has nowhere to go. -/
theorem advance_saturated :
    twoPanes.IsTiling ∧ twoPanes.leafIds.Nodup ∧
    (1, Rect.mk 65535 0 1 1) ∈ twoPanes.layout ⟨65535, 0, 2, 1⟩ ∧ (Rect.mk 65535 0 1 1).isEmpty = false ∧
    ¬ Touches .right ⟨65535, 0, 2, 1⟩ ⟨65535, 0, 1, 1⟩ ∧
    (withFocus 1).advance twoPanes ⟨65535, 0, 2, 1⟩ .right = some 1 := by
  have tiling : twoPanes.IsTiling := .split _ _ (.leaf _) (.leaf _)
  have layout : twoPanes.layout ⟨65535, 0, 2, 1⟩ = [(1, ⟨65535, 0, 1, 1⟩), (2, ⟨65535, 0, 1, 1⟩)] := by
    change LayoutNode.layoutInner 0 twoPanes ⟨65535, 0, 2, 1⟩ = _
    simp [twoPanes, LayoutNode.layoutInner, splitRectWithGap, Rect.isEmpty, splitExtent_two, saturatingAdd, View.new]
  have leaf : (1, Rect.mk 65535 0 1 1) ∈ twoPanes.layout ⟨65535, 0, 2, 1⟩ := by
    rw [layout]
    decide
  refine ⟨tiling, by decide, leaf, by decide, by unfold Touches; decide, ?_⟩
  rw [advance_eq tiling (by decide) (by decide) leaf (by decide), layout]
  decide

end Focus

end

end Bitty.Ui
