import Bitty.Library.Cascade

namespace Bitty.Term

def KITTY_PLACE_MAX_PLACEMENTS : Nat := 256

def KITTY_ANIM_MAX_IMAGES : Nat := 64

/-- `u32::saturating_add`. -/
def saturatingAdd32 (a b : Nat) : Nat := min (a + b) (2 ^ 32 - 1)

structure KittyPlacement where
  imageId : Nat
  placementId : Nat
  anchorRow : Nat
  anchorCol : Nat
  rows : Nat
  cols : Nat
  zIndex : Int
  virtualProto : Bool
  parent : Option (Nat × Nat)
  parentOffset : Int × Int
  onAltScreen : Bool
  deriving DecidableEq

namespace KittyPlacement

def key (e : KittyPlacement) : Nat × Nat := (e.imageId, e.placementId)

def isReplaceable (e : KittyPlacement) : Bool := e.imageId ≠ 0 && e.placementId ≠ 0

def isEntirelyWithin (e : KittyPlacement) (top bottom : Nat) : Bool :=
  top ≤ e.anchorRow && saturatingAdd32 e.anchorRow e.rows ≤ bottom + 1

def covers (e : KittyPlacement) (row col : Nat) : Bool :=
  e.anchorRow ≤ row && row < saturatingAdd32 e.anchorRow (max e.rows 1) &&
    e.anchorCol ≤ col && col < saturatingAdd32 e.anchorCol (max e.cols 1)

end KittyPlacement

inductive KittyDeleteSelector
  | allVisible
  | imageId (id : Nat) (placement : Option Nat)
  | newestNumber (number : Nat) (placement : Option Nat)
  | atCursor
  | framesOf (id : Nat)
  | atCell (x y : Nat)
  | atCellZ (x y : Nat) (z : Int)
  | idRange (lo hi : Nat)
  | column (x : Nat)
  | row (y : Nat)
  | zIndex (z : Int)

inductive KittyAnimState
  | stopped | loading | running
  deriving DecidableEq

structure KittyAnimation where
  gaps : List Nat
  current : Nat
  state : KittyAnimState
  maxLoops : Nat
  loopsDone : Nat
  deriving DecidableEq

/-- Placements oldest first, animations, and the image ids registered under a number. -/
structure PlacementStore where
  placements : List KittyPlacement := []
  animations : List (Nat × KittyAnimation) := []
  numbers : List (Nat × Nat) := []

namespace PlacementStore

open KittyPlacement

def new : PlacementStore := {}

def len (s : PlacementStore) : Nat := s.placements.length

def normalized (p : KittyPlacement) : KittyPlacement := if p.imageId = 0 then { p with placementId := 0 } else p

/-- The first entry that satisfies the test gives way to `new`. -/
def replaceFirst (test : KittyPlacement → Bool) (new : KittyPlacement) : List KittyPlacement → List KittyPlacement
  | [] => []
  | e :: rest => if test e then new :: rest else e :: replaceFirst test new rest

def replaces (s : PlacementStore) (p : KittyPlacement) : Bool :=
  p.isReplaceable && s.placements.any (·.key = p.key)

def upsert (s : PlacementStore) (placement : KittyPlacement) : PlacementStore × Bool :=
  let p := normalized placement
  if s.replaces p then ({ s with placements := replaceFirst (·.key = p.key) p s.placements }, true)
  else
    let kept := if KITTY_PLACE_MAX_PLACEMENTS ≤ s.len then s.placements.tail else s.placements
    ({ s with placements := kept ++ [p] }, false)

def get (s : PlacementStore) (imageId placementId : Nat) : Option KittyPlacement :=
  s.placements.find? fun e => e.imageId = imageId && e.placementId = placementId

/-- Every round of the source's loop drops an entry, so as many rounds as there are entries reach its end. -/
def cascadeOrphans (s : PlacementStore) : PlacementStore :=
  { s with placements := Cascade.collapse key parent s.len s.placements }

def remove (s : PlacementStore) (imageId placementId : Nat) : PlacementStore × Bool :=
  let left := { s with placements := s.placements.filter fun e => !(e.imageId = imageId && e.placementId = placementId) }
  let removed := left.len ≠ s.len
  (if removed then left.cascadeOrphans else left, removed)

def resolveParent (s : PlacementStore) (imageId placementId : Nat) : Option KittyPlacement :=
  match s.get imageId placementId with
  | some exact => some exact
  | none =>
    if placementId = 0 then s.placements.find? fun e => e.imageId = imageId && e.virtualProto else none

def newestWithNumber (s : PlacementStore) (number : Nat) : Option Nat :=
  (s.numbers.reverse.find? (·.1 = number)).map (·.2)

def keepsOfImage (id : Nat) (placement : Option Nat) (e : KittyPlacement) : Bool :=
  if e.imageId ≠ id then true
  else if e.virtualProto then placement.isSome
  else match placement with
    | some p => e.placementId ≠ p
    | none => false

/-- What the selector's `retain` keeps. -/
def keeps (s : PlacementStore) (selector : KittyDeleteSelector) (cursor : Nat × Nat) (onAlt : Bool)
    (e : KittyPlacement) : Bool :=
  match selector with
  | .allVisible => e.virtualProto || e.onAltScreen != onAlt
  | .imageId id placement => keepsOfImage id placement e
  | .newestNumber number placement =>
    match s.newestWithNumber number with
    | some id => keepsOfImage id placement e
    | none => true
  | .atCursor => e.virtualProto || e.onAltScreen != onAlt || !e.covers cursor.1 cursor.2
  | .framesOf _ => true
  | .atCell x y => e.virtualProto || e.onAltScreen != onAlt || !e.covers (y - 1) (x - 1)
  | .atCellZ x y z => e.virtualProto || e.onAltScreen != onAlt || e.zIndex ≠ z || !e.covers (y - 1) (x - 1)
  | .idRange lo hi => e.imageId < lo || hi < e.imageId
  | .column x =>
    -- the sums of these two are plain ones of 32 bits
    e.virtualProto || e.onAltScreen != onAlt || x - 1 < e.anchorCol ||
      (e.anchorCol + max e.cols 1) % 2 ^ 32 ≤ x - 1
  | .row y =>
    e.virtualProto || e.onAltScreen != onAlt || y - 1 < e.anchorRow ||
      (e.anchorRow + max e.rows 1) % 2 ^ 32 ≤ y - 1
  | .zIndex z => e.virtualProto || e.onAltScreen != onAlt || e.zIndex ≠ z

def pruneDataWithoutPlacements (s : PlacementStore) (only : Option Nat) : PlacementStore :=
  let sweep := fun id => !s.placements.any (·.imageId = id)
  match only with
  | some id =>
    if sweep id then
      { s with animations := s.animations.filter (·.1 ≠ id), numbers := s.numbers.filter (·.2 ≠ id) }
    else s
  | none =>
    { s with animations := s.animations.filter fun a => !sweep a.1, numbers := s.numbers.filter fun n => !sweep n.2 }

/-- The image whose data an upper-case selector frees; none sweeps them all. -/
def killAnimationOf (s : PlacementStore) : KittyDeleteSelector → Option Nat
  | .imageId id _ => some id
  | .newestNumber number _ => s.newestWithNumber number
  | _ => none

def applyDelete (s : PlacementStore) (selector : KittyDeleteSelector) (cursor : Nat × Nat) (onAlt freeData : Bool) :
    PlacementStore × Nat :=
  let animations := match selector with
    | .framesOf id => s.animations.filter (·.1 ≠ id)
    | _ => s.animations
  let left := { s with placements := s.placements.filter (s.keeps selector cursor onAlt), animations }.cascadeOrphans
  let done := if freeData then left.pruneDataWithoutPlacements (s.killAnimationOf selector) else left
  (done, s.len - done.len)

def scrolledUp (top bottom n : Nat) (onAlt : Bool) (e : KittyPlacement) : Option KittyPlacement :=
  if e.virtualProto || e.onAltScreen != onAlt || !e.isEntirelyWithin top bottom then some e
  else if n ≤ e.anchorRow && top ≤ e.anchorRow - n then some { e with anchorRow := e.anchorRow - n }
  else none

def scrolledDown (top bottom n : Nat) (onAlt : Bool) (e : KittyPlacement) : Option KittyPlacement :=
  if e.virtualProto || e.onAltScreen != onAlt || !e.isEntirelyWithin top bottom then some e
  else
    let row := saturatingAdd32 e.anchorRow n
    let end_ := saturatingAdd32 row e.rows
    if row ≤ bottom && end_ ≤ bottom + 1 then some { e with anchorRow := row } else none

def resized (newRows : Nat) (shift : Int) (onAlt : Bool) (e : KittyPlacement) : Option KittyPlacement :=
  if e.virtualProto then some e
  else if e.onAltScreen != onAlt then
    if saturatingAdd32 e.anchorRow (max e.rows 1) ≤ newRows then some e else none
  else
    let anchor := (e.anchorRow : Int) + shift
    if anchor < 0 || ((newRows - 1 : Nat) : Int) < anchor then none
    else if newRows < saturatingAdd32 anchor.toNat (max e.rows 1) then none
    else some { e with anchorRow := anchor.toNat }

/-- `retain_mut` and the cascade after it. -/
def retainMut (s : PlacementStore) (f : KittyPlacement → Option KittyPlacement) : PlacementStore :=
  { s with placements := s.placements.filterMap f }.cascadeOrphans

def scrollUp (s : PlacementStore) (top bottom n : Nat) (onAlt : Bool) : PlacementStore :=
  s.retainMut (scrolledUp top bottom n onAlt)

def scrollDown (s : PlacementStore) (top bottom n : Nat) (onAlt : Bool) : PlacementStore :=
  s.retainMut (scrolledDown top bottom n onAlt)

def resizeHeight (s : PlacementStore) (newRows : Nat) (shift : Int) (onAlt : Bool) : PlacementStore :=
  s.retainMut (resized newRows shift onAlt)

def clearAnchored (s : PlacementStore) : PlacementStore :=
  { s with placements := s.placements.filter (·.virtualProto) }.cascadeOrphans

def clearScreen (s : PlacementStore) (onAlt : Bool) : PlacementStore :=
  { s with placements := s.placements.filter (·.onAltScreen != onAlt) }.cascadeOrphans

def registerNumber (s : PlacementStore) (number imageId : Nat) : PlacementStore :=
  if number = 0 then s
  else
    let numbers := s.numbers.filter (fun n => n.1 ≠ number || n.2 ≠ imageId) ++ [(number, imageId)]
    { s with numbers := numbers.drop (numbers.length - KITTY_ANIM_MAX_IMAGES) }

end PlacementStore

end Bitty.Term
