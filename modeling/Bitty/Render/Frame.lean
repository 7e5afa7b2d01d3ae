import Bitty.Render.Geometry

/-! Which rectangles of its surface a frame draws again. -/

namespace Bitty.Render

open Coarsening

def MAX_FRAME_REGIONS : Nat := 256

structure DamageDescriptor where
  extent : ExtentPx
  damagedRegions : List RectPx
  fullRedrawHint : Bool

inductive FrameMode
  | Clean
  | Partial
  | Full

structure FramePlan where
  extent : ExtentPx
  mode : FrameMode
  dirtyRects : List RectPx

/-- The derived order of rectangles: field by field. -/
def RectPx.sortsBefore (a b : RectPx) : Prop :=
  a.x.val < b.x.val ∨ a.x.val = b.x.val ∧ (a.y.val < b.y.val ∨ a.y.val = b.y.val ∧
    (a.width.val < b.width.val ∨ a.width.val = b.width.val ∧ a.height.val ≤ b.height.val))

instance : DecidableRel RectPx.sortsBefore := fun _ _ => inferInstanceAs (Decidable (_ ∨ _))

def overlapsOrTouches (a b : RectPx) : Bool :=
  let rowsTouch := a.y.val ≤ b.bottomExclusive && b.y.val ≤ a.bottomExclusive
  let colsTouch := a.x.val ≤ b.rightExclusive && b.x.val ≤ a.rightExclusive
  rowsTouch && colsTouch

/-- The inner loop of a sweep: `r` takes in the later rectangles that it touches as it grows. Also the rectangles left,
and whether it took any. -/
def absorb (r : RectPx) : List RectPx → RectPx × List RectPx × Bool
  | [] => (r, [], false)
  | s :: rest =>
    if overlapsOrTouches r s then
      let (r, rest, _) := absorb (r.unionBounding s) rest
      (r, rest, true)
    else
      let (r, rest, merged) := absorb r rest
      (r, s :: rest, merged)

theorem absorb_length (r : RectPx) (rest : List RectPx) : (absorb r rest).2.1.length ≤ rest.length ∧
    ((absorb r rest).2.2 = true → (absorb r rest).2.1.length < rest.length) := by
  induction rest generalizing r with
  | nil => exact ⟨Nat.le_refl _, nofun⟩
  | cons s rest ih =>
    unfold absorb
    split
    · have later := (ih (r.unionBounding s)).1
      exact ⟨Nat.le_succ_of_le later, fun _ => Nat.lt_succ_of_le later⟩
    · have later := ih r
      exact ⟨Nat.succ_le_succ later.1, fun merged => Nat.succ_lt_succ (later.2 merged)⟩

def sweep : List RectPx → List RectPx × Bool
  | [] => ([], false)
  | r :: rest =>
    ((absorb r rest).1 :: (sweep (absorb r rest).2.1).1, (absorb r rest).2.2 || (sweep (absorb r rest).2.1).2)
termination_by rects => rects.length
decreasing_by all_goals exact Nat.lt_succ_of_le (absorb_length r rest).1

theorem sweep_length (rects : List RectPx) : (sweep rects).1.length ≤ rects.length ∧
    ((sweep rects).2 = true → (sweep rects).1.length < rects.length) := by
  induction rects using sweep.induct with
  | case1 =>
    rw [sweep]
    exact ⟨Nat.le_refl _, nofun⟩
  | case2 r rest ih =>
    rw [sweep]
    obtain ⟨short, shorter⟩ := absorb_length r rest
    refine ⟨Nat.succ_le_succ (ih.1.trans short), fun merged => Nat.succ_lt_succ ?_⟩
    rcases Bool.or_eq_true_iff.mp merged with here | later
    · exact ih.1.trans_lt (shorter here)
    · exact (ih.2 later).trans_le short

def sortRects (rects : List RectPx) : List RectPx := rects.insertionSort RectPx.sortsBefore

def pass (rects : List RectPx) : List RectPx := sortRects (sweep rects).1

def coalesceLoop (rects : List RectPx) : List RectPx :=
  if (sweep rects).2 then coalesceLoop (pass rects) else (sweep rects).1
termination_by rects.length
decreasing_by
  rw [pass, sortRects, List.length_insertionSort]
  exact (sweep_length rects).2 ‹_›

def coalesce (rects : List RectPx) : List RectPx := coalesceLoop (sortRects rects)

def planFrame (damage : DamageDescriptor) : FramePlan :=
  let extent := damage.extent
  let regions := damage.damagedRegions
  if extent.isZero then ⟨extent, .Clean, []⟩
  else
    let fullRect := RectPx.full extent
    if damage.fullRedrawHint || MAX_FRAME_REGIONS ≤ regions.length || regions.any (·.coversExtent extent) then
      ⟨extent, .Full, [fullRect]⟩
    else if regions.isEmpty then ⟨extent, .Clean, []⟩
    else
      let clipped := regions.filterMap (·.clipToExtent extent)
      if clipped.isEmpty then ⟨extent, .Clean, []⟩
      else
        let clipped := coalesce clipped
        if MAX_FRAME_REGIONS < clipped.length then ⟨extent, .Full, [fullRect]⟩ else ⟨extent, .Partial, clipped⟩

variable {extent : ExtentPx} {a b c r s : RectPx} {rest rects : List RectPx}

theorem overlapsOrTouches_iff : overlapsOrTouches a b = true ↔
    (a.y.val ≤ b.bottomExclusive ∧ b.y.val ≤ a.bottomExclusive) ∧
    (a.x.val ≤ b.rightExclusive ∧ b.x.val ≤ a.rightExclusive) := by
  simp only [overlapsOrTouches, Bool.and_eq_true, decide_eq_true_eq]

theorem contact_touches : Contact fun a b => overlapsOrTouches a b = true where
  refl a := by
    have wide := a.width.property
    have high := a.height.property
    have right : a.rightExclusive = a.x.val + a.width.val := rfl
    have bottom : a.bottomExclusive = a.y.val + a.height.val := rfl
    exact overlapsOrTouches_iff.mpr ⟨by omega, by omega⟩
  symm touch := by
    obtain ⟨rows, cols⟩ := overlapsOrTouches_iff.mp touch
    exact overlapsOrTouches_iff.mpr ⟨rows.symm, cols.symm⟩
  mono le le' touch := by
    obtain ⟨rows, cols⟩ := overlapsOrTouches_iff.mp touch
    obtain ⟨left, top, right, bottom⟩ := RectPx.le_def.mp le
    obtain ⟨left', top', right', bottom'⟩ := RectPx.le_def.mp le'
    exact overlapsOrTouches_iff.mpr ⟨by omega, by omega⟩

section absorb

variable (first : r.Within extent) (within : ∀ s ∈ rest, s.Within extent)

include first within

theorem absorb_within : ∀ s ∈ (absorb r rest).1 :: (absorb r rest).2.1, s.Within extent := by
  induction rest generalizing r with
  | nil =>
    intro s member
    exact List.mem_singleton.mp member ▸ first
  | cons t rest ih =>
    have later := fun s member => within s (List.mem_cons_of_mem _ member)
    have head := within t List.mem_cons_self
    unfold absorb
    split
    · exact ih (first.unionBounding head) later
    · intro s member
      rcases List.mem_cons.mp member with rfl | member
      · exact ih first later _ List.mem_cons_self
      · rcases List.mem_cons.mp member with rfl | member
        · exact head
        · exact ih first later s (List.mem_cons_of_mem _ member)

theorem absorb_coarsens :
    Coarsens (overlapsOrTouches · · = true) (r :: rest) ((absorb r rest).1 :: (absorb r rest).2.1) := by
  induction rest generalizing r with
  | nil => exact Coarsens.of_perm (List.Perm.refl _)
  | cons t rest ih =>
    have later := fun s member => within s (List.mem_cons_of_mem _ member)
    have head := within t List.mem_cons_self
    unfold absorb
    split
    next touch =>
      have merge : Coarsens (overlapsOrTouches · · = true) (r :: t :: rest) (r.unionBounding t :: rest) :=
        Coarsens.merge contact_touches touch (RectPx.left_le_unionBounding first head)
          (RectPx.right_le_unionBounding first head) fun f => RectPx.unionBounding_le first head
      exact merge.trans (ih (first.unionBounding head) later)
    next apart =>
      have swap : (r :: t :: rest).Perm (t :: r :: rest) := List.Perm.swap ..
      have back : (t :: (absorb r rest).1 :: (absorb r rest).2.1).Perm
          ((absorb r rest).1 :: t :: (absorb r rest).2.1) := List.Perm.swap ..
      exact (Coarsens.of_perm swap).trans ((ih first later).cons.trans (Coarsens.of_perm back))

end absorb

theorem absorb_unmerged (none : (absorb r rest).2.2 = false) :
    absorb r rest = (r, rest, false) ∧ ∀ s ∈ rest, ¬ overlapsOrTouches r s = true := by
  induction rest with
  | nil => exact ⟨rfl, List.forall_mem_nil _⟩
  | cons t rest ih =>
    unfold absorb at none ⊢
    split at none
    · cases none
    next apart =>
      obtain ⟨same, later⟩ := ih none
      rw [if_neg apart, same]
      exact ⟨rfl, List.forall_mem_cons.mpr ⟨apart, later⟩⟩

theorem sweep_unmerged (none : (sweep rects).2 = false) :
    (sweep rects).1 = rects ∧ Apart (overlapsOrTouches · · = true) rects := by
  induction rects using sweep.induct with
  | case1 => exact ⟨by rw [sweep], List.Pairwise.nil⟩
  | case2 r rest ih =>
    rw [sweep] at none ⊢
    obtain ⟨here, later⟩ := Bool.or_eq_false_iff.mp none
    obtain ⟨same, apart⟩ := absorb_unmerged here
    obtain ⟨sameRest, apartRest⟩ := ih later
    rw [sameRest, same]
    rw [same] at apartRest
    exact ⟨rfl, List.Pairwise.cons apart apartRest⟩

theorem sweep_within (within : ∀ s ∈ rects, s.Within extent) : ∀ s ∈ (sweep rects).1, s.Within extent := by
  induction rects using sweep.induct with
  | case1 =>
    rw [sweep]
    exact List.forall_mem_nil _
  | case2 r rest ih =>
    obtain ⟨first, later⟩ := List.forall_mem_cons.mp within
    obtain ⟨head, left⟩ := List.forall_mem_cons.mp (absorb_within first later)
    rw [sweep]
    exact List.forall_mem_cons.mpr ⟨head, ih left⟩

theorem sweep_coarsens (within : ∀ s ∈ rects, s.Within extent) :
    Coarsens (overlapsOrTouches · · = true) rects (sweep rects).1 := by
  induction rects using sweep.induct with
  | case1 =>
    rw [sweep]
    exact Coarsens.of_perm (List.Perm.refl _)
  | case2 r rest ih =>
    obtain ⟨first, later⟩ := List.forall_mem_cons.mp within
    have left := (List.forall_mem_cons.mp (absorb_within first later)).2
    rw [sweep]
    exact (absorb_coarsens first later).trans (ih left).cons

theorem sortRects_perm (rects : List RectPx) : (sortRects rects).Perm rects := List.perm_insertionSort _ _

theorem pass_within (within : ∀ s ∈ rects, s.Within extent) : ∀ s ∈ pass rects, s.Within extent := fun s member =>
  sweep_within within s ((sortRects_perm _).mem_iff.mp member)

theorem coalesceLoop_within (within : ∀ s ∈ rects, s.Within extent) : ∀ s ∈ coalesceLoop rects, s.Within extent := by
  induction rects using coalesceLoop.induct with
  | case1 rects merged ih =>
    rw [coalesceLoop, if_pos merged]
    exact ih (pass_within within)
  | case2 rects unmerged =>
    rw [coalesceLoop, if_neg unmerged]
    exact sweep_within within

theorem coalesceLoop_coarsens (within : ∀ s ∈ rects, s.Within extent) :
    Coarsens (overlapsOrTouches · · = true) rects (coalesceLoop rects) ∧
    Apart (overlapsOrTouches · · = true) (coalesceLoop rects) := by
  induction rects using coalesceLoop.induct with
  | case1 rects merged ih =>
    rw [coalesceLoop, if_pos merged]
    obtain ⟨later, apart⟩ := ih (pass_within within)
    exact ⟨(sweep_coarsens within).trans ((Coarsens.of_perm (sortRects_perm _).symm).trans later), apart⟩
  | case2 rects unmerged =>
    rw [coalesceLoop, if_neg unmerged]
    obtain ⟨same, apart⟩ := sweep_unmerged (Bool.eq_false_of_not_eq_true unmerged)
    rw [same]
    exact ⟨Coarsens.of_perm (List.Perm.refl _), apart⟩

theorem coalesceLoop_passes (rects : List RectPx) :
    ∃ n ≤ rects.length, (sweep (pass^[n] rects)).2 = false ∧ coalesceLoop rects = pass^[n] rects := by
  induction rects using coalesceLoop.induct with
  | case1 rects merged ih =>
    obtain ⟨n, bound, unmerged, eq⟩ := ih
    have shorter : (pass rects).length < rects.length := by
      rw [pass, sortRects, List.length_insertionSort]
      exact (sweep_length rects).2 merged
    rw [coalesceLoop, if_pos merged]
    exact ⟨n + 1, by omega, unmerged, eq⟩
  | case2 rects unmerged =>
    have none := Bool.eq_false_of_not_eq_true unmerged
    rw [coalesceLoop, if_neg unmerged]
    exact ⟨0, Nat.zero_le _, none, (sweep_unmerged none).1⟩

theorem sortsBefore_total (a b : RectPx) : a.sortsBefore b ∨ b.sortsBefore a := by
  unfold RectPx.sortsBefore
  omega

theorem sortsBefore_trans (first : a.sortsBefore b) (second : b.sortsBefore c) : a.sortsBefore c := by
  unfold RectPx.sortsBefore at *
  omega

theorem sortsBefore_antisymm (first : a.sortsBefore b) (second : b.sortsBefore a) : a = b := by
  have same : a.x.val = b.x.val ∧ a.y.val = b.y.val ∧ a.width.val = b.width.val ∧ a.height.val = b.height.val := by
    unfold RectPx.sortsBefore at *
    omega
  obtain ⟨left, top, wide, high⟩ := same
  exact RectPx.ext_edges left top (by rw [RectPx.rightExclusive, left, wide]; rfl)
    (by rw [RectPx.bottomExclusive, top, high]; rfl)

theorem sortRects_eq_of_perm {rects' : List RectPx} (perm : rects.Perm rects') :
    sortRects rects = sortRects rects' := by
  have total : Std.Total RectPx.sortsBefore := ⟨sortsBefore_total⟩
  have transitive : IsTrans RectPx RectPx.sortsBefore := ⟨fun _ _ _ => sortsBefore_trans⟩
  have sorted := List.pairwise_insertionSort RectPx.sortsBefore rects
  have sorted' := List.pairwise_insertionSort RectPx.sortsBefore rects'
  have same := (sortRects_perm rects).trans (perm.trans (sortRects_perm rects').symm)
  exact same.eq_of_pairwise (fun _ _ _ _ => sortsBefore_antisymm) sorted sorted'

variable {damage : DamageDescriptor}

def DamageDescriptor.clipped (damage : DamageDescriptor) : List RectPx :=
  damage.damagedRegions.filterMap (·.clipToExtent damage.extent)

theorem clipped_within : ∀ s ∈ damage.clipped, s.Within damage.extent := by
  intro s member
  obtain ⟨r, _, clip⟩ := List.mem_filterMap.mp member
  exact (RectPx.clipToExtent_within clip).1

theorem clipped_pixel {u v : Int} (member : r ∈ damage.damagedRegions) (pixel : r.HasPixel u v)
    (surface : (RectPx.full damage.extent).HasPixel u v) : ∃ c ∈ damage.clipped, c.HasPixel u v := by
  obtain ⟨c, clip, inside⟩ := RectPx.clipToExtent_pixel pixel surface
  exact ⟨c, List.mem_filterMap.mpr ⟨r, member, clip⟩, inside⟩

theorem planFrame_cases (damage : DamageDescriptor) :
    (planFrame damage = ⟨damage.extent, .Clean, []⟩ ∧ (damage.extent.isZero = true ∨ damage.clipped = [])) ∨
    planFrame damage = ⟨damage.extent, .Full, [RectPx.full damage.extent]⟩ ∨
    planFrame damage = ⟨damage.extent, .Partial, coalesce damage.clipped⟩ := by
  unfold planFrame
  dsimp only
  split
  next zero => exact Or.inl ⟨rfl, Or.inl zero⟩
  next =>
    split
    · exact Or.inr (Or.inl rfl)
    · split
      next none =>
        refine Or.inl ⟨rfl, Or.inr ?_⟩
        rw [DamageDescriptor.clipped, List.isEmpty_iff.mp none, List.filterMap_nil]
      next =>
        split
        next none => exact Or.inl ⟨rfl, Or.inr (List.isEmpty_iff.mp none)⟩
        next =>
          split
          · exact Or.inr (Or.inl rfl)
          · exact Or.inr (Or.inr rfl)

theorem planFrame_pixel {u v : Int} (member : r ∈ damage.damagedRegions) (pixel : r.HasPixel u v)
    (surface : (RectPx.full damage.extent).HasPixel u v) : ∃ d ∈ (planFrame damage).dirtyRects, d.HasPixel u v := by
  obtain ⟨c, inClipped, inside⟩ := clipped_pixel member pixel surface
  rcases planFrame_cases damage with ⟨_, zero | none⟩ | full | part
  · have solid : damage.extent.isZero = false := surface.not_empty
    rw [solid] at zero
    cases zero
  · rw [none] at inClipped
    cases inClipped
  · rw [full]
    exact ⟨_, List.mem_singleton_self _, surface⟩
  · have sorted := Refines.of_subset fun s member => (sortRects_perm damage.clipped).mem_iff.mpr member
    have within := fun s member => clipped_within s ((sortRects_perm damage.clipped).mem_iff.mp member)
    obtain ⟨d, inPlan, le⟩ := sorted.trans (coalesceLoop_coarsens within).1.refines c inClipped
    rw [part]
    exact ⟨d, inPlan, inside.mono le⟩

theorem planFrame_partial (part : (planFrame damage).mode = .Partial) :
    (∀ d ∈ (planFrame damage).dirtyRects, d.Within damage.extent) ∧
    (planFrame damage).dirtyRects.Pairwise fun a b => ¬ overlapsOrTouches a b = true := by
  have within := fun s member => clipped_within s ((sortRects_perm damage.clipped).mem_iff.mp member)
  rcases planFrame_cases damage with ⟨clean, _⟩ | full | merged
  · rw [clean] at part
    cases part
  · rw [full] at part
    cases part
  · rw [merged]
    exact ⟨coalesceLoop_within within, (coalesceLoop_coarsens within).2⟩

theorem coalesce_eq_of_perm {rects' : List RectPx} (perm : rects.Perm rects') : coalesce rects = coalesce rects' := by
  rw [coalesce, coalesce, sortRects_eq_of_perm perm]

theorem planFrame_perm {regions regions' : List RectPx} (hint : Bool) (perm : regions.Perm regions') :
    planFrame ⟨extent, regions, hint⟩ = planFrame ⟨extent, regions', hint⟩ := by
  have clipped := perm.filterMap (·.clipToExtent extent)
  have anyCovers : regions.any (·.coversExtent extent) = regions'.any (·.coversExtent extent) := perm.any_eq
  have none : regions.isEmpty = regions'.isEmpty := perm.isEmpty_eq
  have noneClipped := clipped.isEmpty_eq
  simp only [planFrame, perm.length_eq, anyCovers, none, noneClipped, coalesce_eq_of_perm clipped]

/-- A plan draws every damaged pixel again, merges its rectangles until none touch, in at most one pass for each, and is
the same for every order of the damage. -/
theorem planFrame_sound (damage : DamageDescriptor) :
    (∀ r ∈ damage.damagedRegions, ∀ u v, r.HasPixel u v → (RectPx.full damage.extent).HasPixel u v →
      ∃ d ∈ (planFrame damage).dirtyRects, d.HasPixel u v) ∧
    ((planFrame damage).mode = .Partial → (∀ d ∈ (planFrame damage).dirtyRects, d.Within damage.extent) ∧
      (planFrame damage).dirtyRects.Pairwise fun a b => ¬ overlapsOrTouches a b = true) ∧
    (∀ rects, ∃ n ≤ rects.length, (sweep (pass^[n] (sortRects rects))).2 = false ∧
      coalesce rects = pass^[n] (sortRects rects)) ∧
    ∀ regions, damage.damagedRegions.Perm regions →
      planFrame { damage with damagedRegions := regions } = planFrame damage := by
  refine ⟨fun r member u v => planFrame_pixel member, planFrame_partial, fun rects => ?_, fun regions perm => ?_⟩
  · obtain ⟨n, bound, unmerged, eq⟩ := coalesceLoop_passes (sortRects rects)
    rw [(sortRects_perm rects).length_eq] at bound
    exact ⟨n, bound, unmerged, eq⟩
  · exact (planFrame_perm damage.fullRedrawHint perm).symm

/-- A corner outside the surface is clipped away, and the pixel at the origin is drawn. -/
theorem planFrame_sound_corner : ∃ d ∈ (planFrame ⟨⟨⟨800, by decide⟩, ⟨600, by decide⟩⟩,
    [⟨⟨-5, by decide⟩, ⟨-5, by decide⟩, ⟨20, by decide⟩, ⟨20, by decide⟩⟩], false⟩).dirtyRects, d.HasPixel 0 0 :=
  (planFrame_sound _).1 _ (List.mem_singleton_self _) 0 0 ⟨by decide, by decide, by decide, by decide⟩
    ⟨by decide, by decide, by decide, by decide⟩

end Bitty.Render
