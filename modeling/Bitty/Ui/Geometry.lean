import Bitty.Library.Binary

namespace Bitty.Ui

/-- `u16::saturating_add`. -/
def saturatingAdd (a b : Nat) : Nat := min (a + b) 65535

/-- `u16::saturating_mul`. -/
def saturatingMul (a b : Nat) : Nat := min (a * b) 65535

structure Point where
  x : Nat
  y : Nat
  deriving DecidableEq

structure Size where
  width : Nat
  height : Nat
  deriving DecidableEq

/-- A rectangle of cells; the fields are 16-bit numbers, the far edges are not. -/
structure Rect where
  x : Nat
  y : Nat
  width : Nat
  height : Nat
  deriving DecidableEq

namespace Rect

def zero : Rect := ⟨0, 0, 0, 0⟩

def right (r : Rect) : Nat := r.x + r.width

def bottom (r : Rect) : Nat := r.y + r.height

def isEmpty (r : Rect) : Bool := r.width = 0 || r.height = 0

def contains (r other : Rect) : Bool :=
  if other.isEmpty then
    r.x ≤ other.x && r.y ≤ other.y && other.x ≤ r.right && other.y ≤ r.bottom
  else r.x ≤ other.x && r.y ≤ other.y && other.right ≤ r.right && other.bottom ≤ r.bottom

/-- The edges are cast back to 16 bits before they are compared. -/
def intersection (r other : Rect) : Option Rect :=
  if r.isEmpty || other.isEmpty then none
  else
    let x1 := max r.x other.x
    let y1 := max r.y other.y
    let x2 := min r.right other.right % 65536
    let y2 := min r.bottom other.bottom % 65536
    if x2 ≤ x1 || y2 ≤ y1 then none else some ⟨x1, y1, x2 - x1, y2 - y1⟩

def clipTo (r bounds : Rect) : Option Rect := r.intersection bounds

def containsPoint (r : Rect) (p : Point) : Bool :=
  if r.isEmpty then false else r.x ≤ p.x && r.y ≤ p.y && p.x < r.right && p.y < r.bottom

theorem containsPoint_iff {r : Rect} {p : Point} :
    r.containsPoint p ↔ r.x ≤ p.x ∧ p.x < r.x + r.width ∧ r.y ≤ p.y ∧ p.y < r.y + r.height := by
  unfold containsPoint right bottom
  split
  · rename_i empty
    simp only [isEmpty, Bool.or_eq_true, decide_eq_true_eq] at empty
    constructor
    · intro inside
      cases inside
    · intro inside
      omega
  · simp only [Bool.and_eq_true, decide_eq_true_eq]
    tauto

theorem containsPoint_of_isEmpty {r : Rect} (empty : r.isEmpty) (p : Point) : r.containsPoint p = false := by
  simp [containsPoint, empty]

end Rect

inductive SplitAxis
  | horizontal | vertical
  deriving DecidableEq

/-- Bands between siblings and around the whole, in cells. -/
structure Gaps where
  inner : Nat
  outer : Nat

namespace Gaps

def ZERO : Gaps := ⟨0, 0⟩

def insetOuter (gaps : Gaps) (bounds : Rect) : Rect :=
  if gaps.outer = 0 then bounds
  else
    { x := saturatingAdd bounds.x gaps.outer
      y := saturatingAdd bounds.y gaps.outer
      width := bounds.width - saturatingMul gaps.outer 2
      height := bounds.height - saturatingMul gaps.outer 2 }

end Gaps

/-- The far edges of `r` fit in 16 bits. -/
def Rect.Addressable (r : Rect) : Prop := r.right ≤ 65535 ∧ r.bottom ≤ 65535

theorem Gaps.insetOuter_addressable {gaps : Gaps} {bounds : Rect} (fits : bounds.Addressable) :
    (gaps.insetOuter bounds).Addressable := by
  unfold insetOuter
  split
  · exact fits
  · obtain ⟨right, bottom⟩ := fits
    simp only [Rect.Addressable, Rect.right, Rect.bottom, saturatingAdd, saturatingMul] at *
    omega

end Bitty.Ui

namespace Bitty.Ui

/-- `0.10_f32`. -/
def MIN_RATIO : ℚ := 13421773 / 134217728

/-- `0.90_f32`. -/
def MAX_RATIO : ℚ := 15099494 / 16777216

def clampRatio : Binary32 → Binary32
  | .finite raw => .finite (min (max raw MIN_RATIO) MAX_RATIO)
  | _ => .finite (1 / 2)

/-- Start and length of the two children along the split axis; the gap is reserved first. -/
def splitExtent (start total : Nat) (r : Binary32) (gapIn : Nat) : (Nat × Nat) × (Nat × Nat) :=
  if total < 2 then ((start, total), (saturatingAdd start total, 0))
  else
    let gap := min gapIn (total - 1)
    let avail := total - gap
    if avail < 2 then ((start, 1), (saturatingAdd (saturatingAdd start 1) (min gap 65535), 0))
    else
      let raw := ((Binary32.ofNat avail).mul r).floorToU32
      let first := min (max raw 1) (avail - 1)
      ((start, first), (saturatingAdd (saturatingAdd start first) (min gap 65535), avail - first))

def splitRectWithGap (bounds : Rect) (axis : SplitAxis) (ratio : Binary32) (gapIn : Nat) : Rect × Rect :=
  if bounds.isEmpty then (.zero, .zero)
  else
    let r := clampRatio ratio
    match axis with
    | .horizontal =>
      let (a, b) := splitExtent bounds.x bounds.width r gapIn
      (⟨a.1, bounds.y, a.2, bounds.height⟩, ⟨b.1, bounds.y, b.2, bounds.height⟩)
    | .vertical =>
      let (a, b) := splitExtent bounds.y bounds.height r gapIn
      (⟨bounds.x, a.1, bounds.width, a.2⟩, ⟨bounds.x, b.1, bounds.width, b.2⟩)

/-- What the split of an extent promises whatever the ratio: the first child starts it, the second
ends it, and nothing but the gap is between them. -/
structure SplitsExtent (start total gapIn : Nat) (a b : Nat × Nat) : Prop where
  first : a.1 = start
  order : a.1 + a.2 ≤ b.1
  second : b.1 + b.2 = start + total
  gapless : gapIn = 0 → a.1 + a.2 = b.1

theorem splitExtent_splits {start total gapIn : Nat} (r : Binary32) (fits : start + total ≤ 65535) :
    SplitsExtent start total gapIn (splitExtent start total r gapIn).1 (splitExtent start total r gapIn).2 := by
  unfold splitExtent
  by_cases small : total < 2
  · rw [if_pos small]
    constructor <;> simp only [saturatingAdd] <;> omega
  · rw [if_neg small]
    dsimp only
    by_cases tight : total - min gapIn (total - 1) < 2
    · rw [if_pos tight]
      constructor <;> simp only [saturatingAdd] <;> omega
    · rw [if_neg tight]
      generalize ((Binary32.ofNat (total - min gapIn (total - 1))).mul r).floorToU32 = raw
      constructor <;> simp only [saturatingAdd] <;> omega

/-- The cell is in `bounds`, past the first child and before the second one. -/
def Between (bounds : Rect) (axis : SplitAxis) (a b : Rect) (p : Point) : Prop :=
  bounds.containsPoint p ∧
    match axis with
    | .horizontal => a.right ≤ p.x ∧ p.x < b.x
    | .vertical => a.bottom ≤ p.y ∧ p.y < b.y

variable {bounds : Rect} {axis : SplitAxis}

theorem Between.not_first {a b : Rect} {p : Point} (between : Between bounds axis a b p) :
    a.containsPoint p = false := by
  rw [← Bool.not_eq_true, Rect.containsPoint_iff]
  have past := between.2
  cases axis <;> simp only [Rect.right, Rect.bottom] at past <;> omega

theorem Between.not_second {a b : Rect} {p : Point} (between : Between bounds axis a b p) :
    b.containsPoint p = false := by
  rw [← Bool.not_eq_true, Rect.containsPoint_iff]
  have before := between.2
  cases axis <;> dsimp only at before <;> omega

/-- The edges of `inner` are within the edges of `outer`; an empty rectangle has edges too. -/
structure Within (outer inner : Rect) : Prop where
  left : outer.x ≤ inner.x
  top : outer.y ≤ inner.y
  right : inner.right ≤ outer.right
  bottom : inner.bottom ≤ outer.bottom

theorem Within.trans {r s t : Rect} (outer : Within r s) (inner : Within s t) : Within r t :=
  ⟨outer.left.trans inner.left, outer.top.trans inner.top, inner.right.trans outer.right,
    inner.bottom.trans outer.bottom⟩

theorem Within.contains {outer inner : Rect} (within : Within outer inner) : outer.contains inner := by
  obtain ⟨left, top, right, bottom⟩ := within
  unfold Rect.contains
  split <;> simp only [Bool.and_eq_true, decide_eq_true_eq]
  · simp only [Rect.right, Rect.bottom] at *
    omega
  · exact ⟨⟨⟨left, top⟩, right⟩, bottom⟩

theorem Within.eq_zero {r : Rect} (within : Within .zero r) : r = .zero := by
  obtain ⟨left, top, right, bottom⟩ := within
  obtain ⟨x, y, width, height⟩ := r
  simp only [Rect.right, Rect.bottom, Rect.zero, Rect.mk.injEq] at *
  omega

structure Splits (bounds : Rect) (axis : SplitAxis) (gapIn : Nat) (a b : Rect) : Prop where
  first_inside : ∀ p, a.containsPoint p → bounds.containsPoint p
  second_inside : ∀ p, b.containsPoint p → bounds.containsPoint p
  apart : ∀ p, a.containsPoint p → ¬ b.containsPoint p
  cover : ∀ p, bounds.containsPoint p → a.containsPoint p ∨ b.containsPoint p ∨ Between bounds axis a b p
  gapless : gapIn = 0 → ∀ p, ¬ Between bounds axis a b p
  first_addressable : a.Addressable
  second_addressable : b.Addressable
  first_within : a = .zero ∨ Within bounds a
  second_within : b = .zero ∨ Within bounds b

theorem splitRectWithGap_splits {gapIn : Nat} (ratio : Binary32) (fits : bounds.Addressable) :
    Splits bounds axis gapIn (splitRectWithGap bounds axis ratio gapIn).1
      (splitRectWithGap bounds axis ratio gapIn).2 := by
  unfold splitRectWithGap
  by_cases empty : bounds.isEmpty = true
  · rw [if_pos empty]
    have none : ∀ p, bounds.containsPoint p = false := Rect.containsPoint_of_isEmpty empty
    have nowhere : ∀ p, Rect.zero.containsPoint p = false := Rect.containsPoint_of_isEmpty rfl
    have zero : Rect.zero.Addressable := by simp [Rect.Addressable, Rect.zero, Rect.right, Rect.bottom]
    constructor <;> simp [none, nowhere, zero, Between]
  · rw [if_neg empty]
    obtain ⟨right, bottom⟩ := fits
    cases axis with
    | horizontal =>
      have split := @splitExtent_splits _ _ gapIn (clampRatio ratio) right
      dsimp only
      generalize splitExtent bounds.x bounds.width (clampRatio ratio) gapIn = parts at split
      obtain ⟨⟨ax, aw⟩, ⟨bx, bw⟩⟩ := parts
      obtain ⟨first, order, second, gapless⟩ := split
      dsimp only at first order second gapless ⊢
      simp only [Rect.right, Rect.bottom] at right bottom
      constructor
      · intro p; rw [Rect.containsPoint_iff, Rect.containsPoint_iff]; dsimp only; omega
      · intro p; rw [Rect.containsPoint_iff, Rect.containsPoint_iff]; dsimp only; omega
      · intro p; rw [Rect.containsPoint_iff, Rect.containsPoint_iff]; dsimp only; omega
      · intro p inside
        have at_p := Rect.containsPoint_iff.mp inside
        rw [Rect.containsPoint_iff, Rect.containsPoint_iff, Between]
        simp only [inside, Rect.right, true_and]
        omega
      · intro none p between
        have gap := between.2
        have := gapless none
        simp only [Rect.right] at gap
        omega
      · simp only [Rect.Addressable, Rect.right, Rect.bottom]; omega
      · simp only [Rect.Addressable, Rect.right, Rect.bottom]; omega
      · right; constructor <;> simp only [Rect.right, Rect.bottom] <;> omega
      · right; constructor <;> simp only [Rect.right, Rect.bottom] <;> omega
    | vertical =>
      have split := @splitExtent_splits _ _ gapIn (clampRatio ratio) bottom
      dsimp only
      generalize splitExtent bounds.y bounds.height (clampRatio ratio) gapIn = parts at split
      obtain ⟨⟨ay, ah⟩, ⟨by', bh⟩⟩ := parts
      obtain ⟨first, order, second, gapless⟩ := split
      dsimp only at first order second gapless ⊢
      simp only [Rect.right, Rect.bottom] at right bottom
      constructor
      · intro p; rw [Rect.containsPoint_iff, Rect.containsPoint_iff]; dsimp only; omega
      · intro p; rw [Rect.containsPoint_iff, Rect.containsPoint_iff]; dsimp only; omega
      · intro p; rw [Rect.containsPoint_iff, Rect.containsPoint_iff]; dsimp only; omega
      · intro p inside
        have at_p := Rect.containsPoint_iff.mp inside
        rw [Rect.containsPoint_iff, Rect.containsPoint_iff, Between]
        simp only [inside, Rect.bottom, true_and]
        omega
      · intro none p between
        have gap := between.2
        have := gapless none
        simp only [Rect.bottom] at gap
        omega
      · simp only [Rect.Addressable, Rect.right, Rect.bottom]; omega
      · simp only [Rect.Addressable, Rect.right, Rect.bottom]; omega
      · right; constructor <;> simp only [Rect.right, Rect.bottom] <;> omega
      · right; constructor <;> simp only [Rect.right, Rect.bottom] <;> omega

end Bitty.Ui
