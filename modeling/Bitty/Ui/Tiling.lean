import Bitty.Ui.Tree

namespace Bitty.Ui

namespace LayoutNode

mutual

/-- The solver below the outer inset: `gapIn` is reserved at every split. -/
def layoutInner (gapIn : Nat) : LayoutNode → Rect → List (ViewId × Rect)
  | .leaf v, bounds => [(v.id, bounds)]
  | .split axis ratio first second, bounds =>
    let (a, b) := splitRectWithGap bounds axis ratio gapIn
    layoutInner gapIn first a ++ layoutInner gapIn second b
  | .stack children, bounds => layoutStack gapIn children bounds
  | .overlay base floated overlayBounds _, bounds =>
    layoutInner gapIn base bounds ++ layoutInner gapIn floated ((overlayBounds.clipTo bounds).getD .zero)

def layoutStack (gapIn : Nat) : List LayoutNode → Rect → List (ViewId × Rect)
  | [], _ => []
  | c :: rest, bounds => layoutInner gapIn c bounds ++ layoutStack gapIn rest bounds

end

def layoutWithGaps (node : LayoutNode) (bounds : Rect) (gaps : Gaps) : List (ViewId × Rect) :=
  layoutInner gaps.inner node (gaps.insetOuter bounds)

def layout (node : LayoutNode) (bounds : Rect) : List (ViewId × Rect) := node.layoutWithGaps bounds .ZERO

inductive IsTiling : LayoutNode → Prop
  | leaf (v : View) : IsTiling (.leaf v)
  | split (axis : SplitAxis) (ratio : Binary32) {first second : LayoutNode} :
    IsTiling first → IsTiling second → IsTiling (.split axis ratio first second)

/-- The cell is between the two children of a split of the tree laid out in `bounds`. -/
inductive InBand (gapIn : Nat) (p : Point) : LayoutNode → Rect → Prop
  | here {axis ratio first second bounds}
    (between : Between bounds axis (splitRectWithGap bounds axis ratio gapIn).1
      (splitRectWithGap bounds axis ratio gapIn).2 p) : InBand gapIn p (.split axis ratio first second) bounds
  | first {axis ratio first second bounds}
    (inner : InBand gapIn p first (splitRectWithGap bounds axis ratio gapIn).1) :
    InBand gapIn p (.split axis ratio first second) bounds
  | second {axis ratio first second bounds}
    (inner : InBand gapIn p second (splitRectWithGap bounds axis ratio gapIn).2) :
    InBand gapIn p (.split axis ratio first second) bounds

def coverage (allocations : List (ViewId × Rect)) (p : Point) : Nat :=
  allocations.countP fun a => a.2.containsPoint p

theorem coverage_append (xs ys : List (ViewId × Rect)) (p : Point) :
    coverage (xs ++ ys) p = coverage xs p + coverage ys p := List.countP_append ..

theorem coverage_eq_zero {allocations : List (ViewId × Rect)} {bounds : Rect} {p : Point}
    (inside : ∀ a ∈ allocations, ∀ q, a.2.containsPoint q → bounds.containsPoint q)
    (outside : bounds.containsPoint p = false) : coverage allocations p = 0 := by
  unfold coverage
  rw [List.countP_eq_zero]
  intro a member holds
  have := inside a member p holds
  rw [outside] at this
  cases this

section

variable {gapIn : Nat} {node : LayoutNode} {bounds : Rect}

theorem layoutInner_ids (gapIn : Nat) (tiling : node.IsTiling) (bounds : Rect) :
    (layoutInner gapIn node bounds).map Prod.fst = node.leafIds := by
  induction tiling generalizing bounds with
  | leaf v => rfl
  | split axis ratio _ _ ih₁ ih₂ => simp [layoutInner, leafIds, views, ih₁, ih₂]

theorem layoutInner_inside (tiling : node.IsTiling) (fits : bounds.Addressable) :
    ∀ a ∈ layoutInner gapIn node bounds, ∀ p, a.2.containsPoint p → bounds.containsPoint p := by
  induction tiling generalizing bounds with
  | leaf v =>
    intro a member p holds
    simp only [layoutInner, List.mem_singleton] at member
    rwa [member] at holds
  | split axis ratio _ _ ih₁ ih₂ =>
    have parts := @splitRectWithGap_splits _ axis gapIn ratio fits
    intro a member p holds
    simp only [layoutInner, List.mem_append] at member
    cases member with
    | inl first => exact parts.first_inside p (ih₁ parts.first_addressable a first p holds)
    | inr second => exact parts.second_inside p (ih₂ parts.second_addressable a second p holds)

theorem layoutInner_within (tiling : node.IsTiling) (fits : bounds.Addressable) :
    ∀ a ∈ layoutInner gapIn node bounds, a.2 = .zero ∨ Within bounds a.2 := by
  induction tiling generalizing bounds with
  | leaf v =>
    intro a member
    simp only [layoutInner, List.mem_singleton] at member
    exact Or.inr (by rw [member]; exact ⟨le_rfl, le_rfl, le_rfl, le_rfl⟩)
  | split axis ratio _ _ ih₁ ih₂ =>
    have parts := @splitRectWithGap_splits _ axis gapIn ratio fits
    have lift : ∀ {c r : Rect}, c = .zero ∨ Within bounds c → r = .zero ∨ Within c r → r = .zero ∨ Within bounds r := by
      rintro c r (rfl | outer) (zero | inner)
      · exact Or.inl zero
      · exact Or.inl inner.eq_zero
      · exact Or.inl zero
      · exact Or.inr (outer.trans inner)
    intro a member
    simp only [layoutInner, List.mem_append] at member
    cases member with
    | inl first => exact lift parts.first_within (ih₁ parts.first_addressable a first)
    | inr second => exact lift parts.second_within (ih₂ parts.second_addressable a second)

theorem layoutInner_cover (tiling : node.IsTiling) (fits : bounds.Addressable) {p : Point}
    (inside : bounds.containsPoint p) :
    coverage (layoutInner gapIn node bounds) p = 1 ∨
      coverage (layoutInner gapIn node bounds) p = 0 ∧ gapIn ≠ 0 ∧ InBand gapIn p node bounds := by
  induction tiling generalizing bounds with
  | leaf v => simp [layoutInner, coverage, inside]
  | @split axis ratio first second tiling₁ tiling₂ ih₁ ih₂ =>
    have parts := @splitRectWithGap_splits _ axis gapIn ratio fits
    have within₁ := @layoutInner_inside gapIn _ _ tiling₁ parts.first_addressable
    have within₂ := @layoutInner_inside gapIn _ _ tiling₂ parts.second_addressable
    simp only [layoutInner, coverage_append]
    rcases parts.cover p inside with inFirst | inSecond | between
    · have none := coverage_eq_zero within₂ (Bool.eq_false_of_not_eq_true (parts.apart p inFirst))
      rcases ih₁ parts.first_addressable inFirst with once | ⟨zero, gap, band⟩
      · left; omega
      · right; exact ⟨by omega, gap, .first band⟩
    · have none := coverage_eq_zero within₁ (Bool.eq_false_of_not_eq_true fun holds => parts.apart p holds inSecond)
      rcases ih₂ parts.second_addressable inSecond with once | ⟨zero, gap, band⟩
      · left; omega
      · right; exact ⟨by omega, gap, .second band⟩
    · right
      have zero₁ := coverage_eq_zero within₁ between.not_first
      have zero₂ := coverage_eq_zero within₂ between.not_second
      exact ⟨by omega, fun gap => parts.gapless gap p between, .here between⟩

theorem layoutInner_apart (tiling : node.IsTiling) (fits : bounds.Addressable) :
    (layoutInner gapIn node bounds).Pairwise fun a b => ∀ p, a.2.containsPoint p → ¬ b.2.containsPoint p := by
  induction tiling generalizing bounds with
  | leaf v => simp [layoutInner]
  | @split axis ratio first second tiling₁ tiling₂ ih₁ ih₂ =>
    have parts := @splitRectWithGap_splits _ axis gapIn ratio fits
    simp only [layoutInner]
    rw [List.pairwise_append]
    refine ⟨ih₁ parts.first_addressable, ih₂ parts.second_addressable, ?_⟩
    intro a inFirst b inSecond p holds₁ holds₂
    have at₁ := layoutInner_inside tiling₁ parts.first_addressable a inFirst p holds₁
    have at₂ := layoutInner_inside tiling₂ parts.second_addressable b inSecond p holds₂
    exact parts.apart p at₁ at₂

end

/-- A tree of leaves and splits tiles its container: the allocations are the leaves in order, inside the
inset container and apart; what they leave uncovered is in the band of a split, and without gaps nothing is. -/
theorem layoutWithGaps_tiles {node : LayoutNode} (tiling : node.IsTiling) {container : Rect} (gaps : Gaps)
    (fits : container.right ≤ 65535 ∧ container.bottom ≤ 65535) :
    (node.layoutWithGaps container gaps).map Prod.fst = node.leafIds ∧
    (∀ a ∈ node.layoutWithGaps container gaps,
      (∀ p, a.2.containsPoint p → (gaps.insetOuter container).containsPoint p) ∧
      (a.2 = .zero ∨ (gaps.insetOuter container).contains a.2)) ∧
    (node.layoutWithGaps container gaps).Pairwise (fun a b => ∀ p, a.2.containsPoint p → ¬ b.2.containsPoint p) ∧
    (gaps = .ZERO → ∀ p, container.containsPoint p → coverage (node.layoutWithGaps container gaps) p = 1) ∧
    (∀ p, (gaps.insetOuter container).containsPoint p →
      (∀ a ∈ node.layoutWithGaps container gaps, ¬ a.2.containsPoint p) →
      InBand gaps.inner p node (gaps.insetOuter container)) := by
  have inset : (gaps.insetOuter container).Addressable := Gaps.insetOuter_addressable fits
  refine ⟨layoutInner_ids _ tiling _, ?_, layoutInner_apart tiling inset, ?_, ?_⟩
  · intro a member
    refine ⟨layoutInner_inside tiling inset a member, ?_⟩
    exact (layoutInner_within tiling inset a member).imp_right Within.contains
  · rintro rfl p inside
    rcases layoutInner_cover tiling fits inside with once | ⟨_, gap, _⟩
    · exact once
    · exact absurd rfl gap
  · intro p inside uncovered
    rcases @layoutInner_cover gaps.inner _ _ tiling inset p inside with once | ⟨_, _, band⟩
    · have some : 0 < coverage (node.layoutWithGaps container gaps) p := by
        unfold layoutWithGaps
        omega
      obtain ⟨a, member, holds⟩ := List.countP_pos_iff.mp some
      exact absurd holds (uncovered a member)
    · exact band

/-- Three panes in a screen of 80 by 24 with a gap of two. -/
theorem layoutWithGaps_tiles_three :
    (LayoutNode.split .horizontal (.finite (1 / 2)) (.leaf (.new 1 1 1))
      (.split .vertical .nan (.leaf (.new 2 1 1)) (.leaf (.new 3 1 1)))).leafIds = [1, 2, 3] ∧
    (∀ a ∈ (LayoutNode.split .horizontal (.finite (1 / 2)) (.leaf (.new 1 1 1))
      (.split .vertical .nan (.leaf (.new 2 1 1)) (.leaf (.new 3 1 1)))).layoutWithGaps ⟨0, 0, 80, 24⟩ ⟨2, 1⟩,
      a.2 = .zero ∨ (Rect.mk 1 1 78 22).contains a.2) :=
  have tiles := layoutWithGaps_tiles (.split .horizontal (.finite (1 / 2)) (.leaf (.new 1 1 1))
      (.split .vertical .nan (.leaf (.new 2 1 1)) (.leaf (.new 3 1 1)))) ⟨2, 1⟩
      (by decide : (Rect.mk 0 0 80 24).right ≤ 65535 ∧ (Rect.mk 0 0 80 24).bottom ≤ 65535)
  ⟨by decide, fun a member => (tiles.2.1 a member).2⟩

end LayoutNode

end Bitty.Ui
