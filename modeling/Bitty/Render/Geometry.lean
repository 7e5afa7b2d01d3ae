import Bitty.Library.Coarsening

/-! Rectangles of a surface in logical pixels. -/

namespace Bitty.Render

/-- A number of 32 bits with a sign. -/
abbrev I32 : Type := {i : Int // -2147483648 ≤ i ∧ i ≤ 2147483647}

/-- A number of 32 bits without a sign. -/
abbrev U32 : Type := {i : Int // 0 ≤ i ∧ i ≤ 4294967295}

def saturatingTryIntoI32 (i : Int) : I32 := ⟨max (min i 2147483647) (-2147483648), by omega⟩

def saturatingU32 (span : Int) : U32 :=
  if fits : 0 ≤ span ∧ span ≤ 4294967295 then ⟨span, fits⟩ else ⟨4294967295, by omega⟩

def tryFromU32 (span : Int) : Option U32 := if fits : 0 ≤ span ∧ span ≤ 4294967295 then some ⟨span, fits⟩ else none

theorem saturatingTryIntoI32_val {i : Int} (fits : -2147483648 ≤ i ∧ i ≤ 2147483647) :
    (saturatingTryIntoI32 i).val = i := by
  show max (min i 2147483647) (-2147483648) = i
  omega

theorem saturatingU32_val {span : Int} (fits : 0 ≤ span ∧ span ≤ 4294967295) : (saturatingU32 span).val = span := by
  rw [saturatingU32, dif_pos fits]

structure ExtentPx where
  width : U32
  height : U32

def ExtentPx.isZero (extent : ExtentPx) : Bool := extent.width.val = 0 || extent.height.val = 0

structure RectPx where
  x : I32
  y : I32
  width : U32
  height : U32

namespace RectPx

def full (extent : ExtentPx) : RectPx := ⟨⟨0, by omega⟩, ⟨0, by omega⟩, extent.width, extent.height⟩

def rightExclusive (r : RectPx) : Int := r.x.val + r.width.val

def bottomExclusive (r : RectPx) : Int := r.y.val + r.height.val

def isEmpty (r : RectPx) : Bool := r.width.val = 0 || r.height.val = 0

def intersection (a b : RectPx) : Option RectPx :=
  let left := max a.x.val b.x.val
  let top := max a.y.val b.y.val
  let right := min a.rightExclusive b.rightExclusive
  let bottom := min a.bottomExclusive b.bottomExclusive
  if right ≤ left || bottom ≤ top then none
  else do
    let width ← tryFromU32 (right - left)
    let height ← tryFromU32 (bottom - top)
    some ⟨saturatingTryIntoI32 left, saturatingTryIntoI32 top, width, height⟩

def clipToExtent (r : RectPx) (extent : ExtentPx) : Option RectPx :=
  if extent.isZero || r.isEmpty then none else r.intersection (full extent)

def unionBounding (a b : RectPx) : RectPx :=
  let x := min a.x.val b.x.val
  let y := min a.y.val b.y.val
  let right := max a.rightExclusive b.rightExclusive
  let bottom := max a.bottomExclusive b.bottomExclusive
  ⟨saturatingTryIntoI32 x, saturatingTryIntoI32 y, saturatingU32 (right - x), saturatingU32 (bottom - y)⟩

def coversExtent (r : RectPx) (extent : ExtentPx) : Bool :=
  if extent.isZero then false
  else r.x.val ≤ 0 && r.y.val ≤ 0 && extent.width.val ≤ r.rightExclusive && extent.height.val ≤ r.bottomExclusive

def HasPixel (r : RectPx) (u v : Int) : Prop :=
  r.x.val ≤ u ∧ u < r.rightExclusive ∧ r.y.val ≤ v ∧ v < r.bottomExclusive

structure Within (extent : ExtentPx) (r : RectPx) : Prop where
  left : 0 ≤ r.x.val
  top : 0 ≤ r.y.val
  right : r.rightExclusive ≤ extent.width.val
  bottom : r.bottomExclusive ≤ extent.height.val
  wide : 0 < r.width.val
  high : 0 < r.height.val

theorem ext_edges {a b : RectPx} (left : a.x.val = b.x.val) (top : a.y.val = b.y.val)
    (right : a.rightExclusive = b.rightExclusive) (bottom : a.bottomExclusive = b.bottomExclusive) : a = b := by
  unfold rightExclusive at right
  unfold bottomExclusive at bottom
  have wide : a.width.val = b.width.val := by omega
  have high : a.height.val = b.height.val := by omega
  cases a
  cases b
  exact (mk.injEq ..).mpr ⟨Subtype.ext left, Subtype.ext top, Subtype.ext wide, Subtype.ext high⟩

instance : PartialOrder RectPx where
  le a b := b.x.val ≤ a.x.val ∧ b.y.val ≤ a.y.val ∧ a.rightExclusive ≤ b.rightExclusive ∧
    a.bottomExclusive ≤ b.bottomExclusive
  le_refl a := by omega
  le_trans a b c first second := by omega
  le_antisymm a b first second := ext_edges (by omega) (by omega) (by omega) (by omega)

variable {extent : ExtentPx} {a b c r : RectPx}

theorem le_def : a ≤ b ↔ b.x.val ≤ a.x.val ∧ b.y.val ≤ a.y.val ∧ a.rightExclusive ≤ b.rightExclusive ∧
    a.bottomExclusive ≤ b.bottomExclusive := Iff.rfl

theorem HasPixel.mono {u v : Int} (pixel : a.HasPixel u v) (le : a ≤ b) : b.HasPixel u v := by
  obtain ⟨left, right, top, bottom⟩ := pixel
  obtain ⟨left', top', right', bottom'⟩ := le_def.mp le
  exact ⟨by omega, by omega, by omega, by omega⟩

theorem HasPixel.not_empty {u v : Int} (pixel : a.HasPixel u v) : a.isEmpty = false := by
  obtain ⟨left, right, top, bottom⟩ := pixel
  unfold rightExclusive at right
  unfold bottomExclusive at bottom
  rw [isEmpty, Bool.or_eq_false_iff, decide_eq_false_iff_not, decide_eq_false_iff_not]
  omega

def Overlaps (a b : RectPx) : Prop :=
  max a.x.val b.x.val < min a.rightExclusive b.rightExclusive ∧
    max a.y.val b.y.val < min a.bottomExclusive b.bottomExclusive

theorem intersection_of_overlaps (overlaps : a.Overlaps b) : ∃ c, a.intersection b = some c ∧
    c.x.val = max a.x.val b.x.val ∧ c.y.val = max a.y.val b.y.val ∧
    c.rightExclusive = min a.rightExclusive b.rightExclusive ∧
    c.bottomExclusive = min a.bottomExclusive b.bottomExclusive := by
  have boundX := a.x.property
  have boundX' := b.x.property
  have boundY := a.y.property
  have boundY' := b.y.property
  have boundW := a.width.property
  have boundH := a.height.property
  have right : a.rightExclusive = a.x.val + a.width.val := rfl
  have bottom : a.bottomExclusive = a.y.val + a.height.val := rfl
  obtain ⟨wide, high⟩ := overlaps
  have spanX : 0 ≤ min a.rightExclusive b.rightExclusive - max a.x.val b.x.val ∧
    min a.rightExclusive b.rightExclusive - max a.x.val b.x.val ≤ 4294967295 := by omega
  have spanY : 0 ≤ min a.bottomExclusive b.bottomExclusive - max a.y.val b.y.val ∧
    min a.bottomExclusive b.bottomExclusive - max a.y.val b.y.val ≤ 4294967295 := by omega
  have leftVal : (saturatingTryIntoI32 (max a.x.val b.x.val)).val = max a.x.val b.x.val :=
    saturatingTryIntoI32_val (by omega)
  have topVal : (saturatingTryIntoI32 (max a.y.val b.y.val)).val = max a.y.val b.y.val :=
    saturatingTryIntoI32_val (by omega)
  refine ⟨⟨saturatingTryIntoI32 (max a.x.val b.x.val), saturatingTryIntoI32 (max a.y.val b.y.val), ⟨_, spanX⟩,
    ⟨_, spanY⟩⟩, ?_, leftVal, topVal, ?_, ?_⟩
  · have positive : ¬(decide (min a.rightExclusive b.rightExclusive ≤ max a.x.val b.x.val) ||
        decide (min a.bottomExclusive b.bottomExclusive ≤ max a.y.val b.y.val)) = true := by
      rw [Bool.or_eq_true, decide_eq_true_iff, decide_eq_true_iff]
      omega
    simp only [intersection, positive, tryFromU32, spanX, spanY, and_self, ↓reduceDIte, Bool.false_eq_true,
      ↓reduceIte, Option.bind_eq_bind, Option.bind_some]
  · show (saturatingTryIntoI32 (max a.x.val b.x.val)).val +
      (min a.rightExclusive b.rightExclusive - max a.x.val b.x.val) = _
    omega
  · show (saturatingTryIntoI32 (max a.y.val b.y.val)).val +
      (min a.bottomExclusive b.bottomExclusive - max a.y.val b.y.val) = _
    omega

theorem overlaps_of_intersection (cut : a.intersection b = some c) : a.Overlaps b := by
  unfold intersection at cut
  dsimp only at cut
  split at cut
  · cases cut
  next positive =>
    rw [Bool.or_eq_true, decide_eq_true_iff, decide_eq_true_iff] at positive
    unfold Overlaps
    omega

theorem full_edges (extent : ExtentPx) : (full extent).x.val = 0 ∧ (full extent).y.val = 0 ∧
    (full extent).rightExclusive = extent.width.val ∧ (full extent).bottomExclusive = extent.height.val :=
  ⟨rfl, rfl, Int.zero_add _, Int.zero_add _⟩

theorem clipToExtent_within (clip : r.clipToExtent extent = some c) : c.Within extent ∧ c ≤ r := by
  unfold clipToExtent at clip
  split at clip
  · cases clip
  · have overlaps := overlaps_of_intersection clip
    obtain ⟨d, cut, x, y, right, bottom⟩ := intersection_of_overlaps overlaps
    obtain rfl := Option.some.inj (clip.symm.trans cut)
    obtain ⟨wide, high⟩ := overlaps
    obtain ⟨fullX, fullY, fullRight, fullBottom⟩ := full_edges extent
    have right' : c.rightExclusive = c.x.val + c.width.val := rfl
    have bottom' : c.bottomExclusive = c.y.val + c.height.val := rfl
    exact ⟨⟨by omega, by omega, by omega, by omega, by omega, by omega⟩, le_def.mpr ⟨by omega, by omega, by omega,
      by omega⟩⟩

theorem clipToExtent_pixel {u v : Int} (pixel : r.HasPixel u v) (surface : (full extent).HasPixel u v) :
    ∃ c, r.clipToExtent extent = some c ∧ c.HasPixel u v := by
  have solid : ¬(extent.isZero || r.isEmpty) = true := by
    have some : extent.isZero = false := surface.not_empty
    rw [pixel.not_empty, some]
    exact Bool.false_ne_true
  rw [clipToExtent, if_neg solid]
  obtain ⟨left, right, top, bottom⟩ := pixel
  obtain ⟨left', right', top', bottom'⟩ := surface
  obtain ⟨c, cut, x, y, xEnd, yEnd⟩ := intersection_of_overlaps (a := r) (b := full extent) ⟨by omega, by omega⟩
  exact ⟨c, cut, by omega, by omega, by omega, by omega⟩

theorem unionBounding_edges (left : a.Within extent) (right : b.Within extent) :
    (a.unionBounding b).x.val = min a.x.val b.x.val ∧ (a.unionBounding b).y.val = min a.y.val b.y.val ∧
    (a.unionBounding b).rightExclusive = max a.rightExclusive b.rightExclusive ∧
    (a.unionBounding b).bottomExclusive = max a.bottomExclusive b.bottomExclusive := by
  have boundX := a.x.property
  have boundX' := b.x.property
  have boundY := a.y.property
  have boundY' := b.y.property
  have boundW := extent.width.property
  have boundH := extent.height.property
  have aRight : a.rightExclusive = a.x.val + a.width.val := rfl
  have aBottom : a.bottomExclusive = a.y.val + a.height.val := rfl
  obtain ⟨aLeft, aTop, aEnd, aFoot, aWide, aHigh⟩ := left
  obtain ⟨bLeft, bTop, bEnd, bFoot, bWide, bHigh⟩ := right
  have x : (a.unionBounding b).x.val = min a.x.val b.x.val := saturatingTryIntoI32_val (by omega)
  have y : (a.unionBounding b).y.val = min a.y.val b.y.val := saturatingTryIntoI32_val (by omega)
  have width : (a.unionBounding b).width.val = max a.rightExclusive b.rightExclusive - min a.x.val b.x.val :=
    saturatingU32_val (by omega)
  have height : (a.unionBounding b).height.val = max a.bottomExclusive b.bottomExclusive - min a.y.val b.y.val :=
    saturatingU32_val (by omega)
  have right : (a.unionBounding b).rightExclusive = (a.unionBounding b).x.val + (a.unionBounding b).width.val := rfl
  have bottom : (a.unionBounding b).bottomExclusive = (a.unionBounding b).y.val + (a.unionBounding b).height.val := rfl
  exact ⟨x, y, by omega, by omega⟩

section

variable (left : a.Within extent) (right : b.Within extent)

include left right

theorem Within.unionBounding : (a.unionBounding b).Within extent := by
  obtain ⟨x, y, xEnd, yEnd⟩ := unionBounding_edges left right
  obtain ⟨aLeft, aTop, aEnd, aFoot, aWide, aHigh⟩ := left
  obtain ⟨bLeft, bTop, bEnd, bFoot, bWide, bHigh⟩ := right
  have aRight : a.rightExclusive = a.x.val + a.width.val := rfl
  have aBottom : a.bottomExclusive = a.y.val + a.height.val := rfl
  have right : (a.unionBounding b).rightExclusive = (a.unionBounding b).x.val + (a.unionBounding b).width.val := rfl
  have bottom : (a.unionBounding b).bottomExclusive = (a.unionBounding b).y.val + (a.unionBounding b).height.val := rfl
  exact ⟨by omega, by omega, by omega, by omega, by omega, by omega⟩

theorem left_le_unionBounding : a ≤ a.unionBounding b := by
  obtain ⟨x, y, xEnd, yEnd⟩ := unionBounding_edges left right
  exact le_def.mpr ⟨by omega, by omega, by omega, by omega⟩

theorem right_le_unionBounding : b ≤ a.unionBounding b := by
  obtain ⟨x, y, xEnd, yEnd⟩ := unionBounding_edges left right
  exact le_def.mpr ⟨by omega, by omega, by omega, by omega⟩

theorem unionBounding_le (le : a ≤ c) (le' : b ≤ c) : a.unionBounding b ≤ c := by
  obtain ⟨x, y, xEnd, yEnd⟩ := unionBounding_edges left right
  obtain ⟨aLeft, aTop, aEnd, aFoot⟩ := le_def.mp le
  obtain ⟨bLeft, bTop, bEnd, bFoot⟩ := le_def.mp le'
  exact le_def.mpr ⟨by omega, by omega, by omega, by omega⟩

end

end RectPx

end Bitty.Render
