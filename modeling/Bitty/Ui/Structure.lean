import Bitty.Ui.Surgery

namespace Bitty.Ui

namespace LayoutNode

def Sound (node : LayoutNode) : Prop := ∃ n, node.walk = .ok n

def Valid (node : LayoutNode) : Prop := ∃ n, node.validateStructure = .ok n

variable {id : ViewId} {node first second base floated : LayoutNode} {children : List LayoutNode}

@[simp] theorem sound_leaf (v : View) : Sound (leaf v) := ⟨1, rfl⟩

@[simp] theorem sound_split {axis : SplitAxis} {ratio : Binary32} :
    Sound (split axis ratio first second) ↔ ratioInRange ratio ∧ Sound first ∧ Sound second := by
  unfold Sound
  simp only [walk]
  cases inRange : ratioInRange ratio
  · simp [throw, throwThe, MonadExceptOf.throw, bind, Except.bind]
  · cases hf : first.walk <;> cases hs : second.walk <;> simp [bind, Except.bind, pure, Except.pure]

theorem walkAll_ok : (∃ n, walkAll children = .ok n) ↔ ∀ c ∈ children, Sound c := by
  induction children with
  | nil => simp [walkAll]
  | cons c rest ih =>
    rw [List.forall_mem_cons, ← ih]
    unfold Sound
    simp only [walkAll]
    cases c.walk <;> cases walkAll rest <;> simp [bind, Except.bind, pure, Except.pure]

@[simp] theorem sound_stack : Sound (stack children) ↔ children ≠ [] ∧ ∀ c ∈ children, Sound c := by
  rw [← walkAll_ok]
  unfold Sound
  simp only [walk]
  cases children with
  | nil => simp [throw, throwThe, MonadExceptOf.throw, bind, Except.bind]
  | cons c rest => simp

@[simp] theorem sound_overlay {bounds : Rect} {tier : OverlayTier} :
    Sound (overlay base floated bounds tier) ↔
      ¬ (base.leafCount = 0 ∧ floated.leafCount = 0) ∧ Sound base ∧ Sound floated := by
  unfold Sound
  simp only [walk]
  by_cases empty : base.leafCount = 0 ∧ floated.leafCount = 0
  · simp [empty, throw, throwThe, MonadExceptOf.throw, bind, Except.bind]
  · cases hb : base.walk <;> cases ho : floated.walk <;> simp [empty, bind, Except.bind, pure, Except.pure]

theorem Sound.views_ne_nil (sound : node.Sound) : node.views ≠ [] := by
  induction node using LayoutNode.nodeInduction with
  | leaf v => simp
  | split axis ratio first second ih₁ _ => simp [ih₁ (sound_split.mp sound).2.1]
  | stack children ih =>
    obtain ⟨some, all⟩ := sound_stack.mp sound
    obtain ⟨c, rest, rfl⟩ := List.exists_cons_of_ne_nil some
    simp [ih c (by simp) (all c (by simp))]
  | overlay base floated bounds tier ih₁ _ => simp [ih₁ (sound_overlay.mp sound).2.1]

@[simp] theorem isGone_split (axis : SplitAxis) (ratio : Binary32) :
    (split axis ratio first second).isGone = false := rfl

@[simp] theorem isGone_overlay (bounds : Rect) (tier : OverlayTier) :
    (overlay base floated bounds tier).isGone = false := rfl

@[simp] theorem isGone_stack : (stack children).isGone ↔ children = [] := by
  cases children <;> simp [isGone]

theorem Sound.not_gone (sound : node.Sound) : node.isGone = false := by
  by_contra gone
  exact sound.views_ne_nil (views_of_isGone (by simpa using gone))

theorem walk_eq {n : Nat} (walked : node.walk = .ok n) : n = node.leafCount := by
  induction node using LayoutNode.nodeInduction generalizing n with
  | leaf v =>
    cases walked
    rfl
  | split axis ratio first second ih₁ ih₂ =>
    obtain ⟨inRange, ⟨a, first_ok⟩, b, second_ok⟩ := sound_split.mp ⟨n, walked⟩
    simp only [walk, inRange, first_ok, second_ok, bind, Except.bind, pure, Except.pure, Bool.not_true,
      Bool.false_eq_true, if_false, Except.ok.injEq] at walked
    rw [← walked, ih₁ first_ok, ih₂ second_ok, leafCount]
  | stack children ih =>
    obtain ⟨some, all⟩ := sound_stack.mp ⟨n, walked⟩
    have walkedAll : walkAll children = .ok n := by
      obtain ⟨c, rest, rfl⟩ := List.exists_cons_of_ne_nil some
      simpa [walk] using walked
    clear walked some
    simp only [leafCount]
    induction children generalizing n with
    | nil =>
      cases walkedAll
      rfl
    | cons c rest later =>
      obtain ⟨a, head_ok⟩ := all c (by simp)
      obtain ⟨b, tail_ok⟩ := walkAll_ok.mpr fun d member => all d (List.mem_cons_of_mem _ member)
      simp only [walkAll, head_ok, tail_ok, bind, Except.bind, pure, Except.pure, Except.ok.injEq] at walkedAll
      have tail := later (fun d member => ih d (List.mem_cons_of_mem _ member))
        (fun d member => all d (List.mem_cons_of_mem _ member)) tail_ok
      rw [← walkedAll, ih c (by simp) head_ok, tail, leafCountOf]
  | overlay base floated bounds tier ih₁ ih₂ =>
    obtain ⟨some, ⟨a, base_ok⟩, b, over_ok⟩ := sound_overlay.mp ⟨n, walked⟩
    have notEmpty : (base.leafCount = 0 && floated.leafCount = 0) = false := by simpa using some
    simp only [walk, notEmpty, base_ok, over_ok, bind, Except.bind, pure, Except.pure, Bool.false_eq_true, if_false,
      Except.ok.injEq] at walked
    rw [← walked, ih₁ base_ok, ih₂ over_ok, leafCount]

theorem valid_iff : Valid node ↔ Sound node := by
  unfold Valid validateStructure
  constructor
  · rintro ⟨n, validated⟩
    cases walked : node.walk with
    | ok m => exact ⟨m, walked⟩
    | error e => simp [walked, bind, Except.bind] at validated
  · rintro ⟨n, walked⟩
    have counted : n ≠ 0 := by
      rw [walk_eq walked, leafCount_eq, ne_eq, List.length_eq_zero_iff]
      exact Sound.views_ne_nil ⟨n, walked⟩
    exact ⟨n, by simp [walked, bind, Except.bind, pure, Except.pure, counted]⟩

mutual

def isSoleBase (id : ViewId) : LayoutNode → Bool
  | .leaf _ => false
  | .split _ _ first second => isSoleBase id first || isSoleBase id second
  | .stack children => isSoleBaseOf id children
  | .overlay base floated _ _ => base.leafIds = [id] || isSoleBase id base || isSoleBase id floated

def isSoleBaseOf (id : ViewId) : List LayoutNode → Bool
  | [] => false
  | c :: rest => isSoleBase id c || isSoleBaseOf id rest

end

theorem isSoleBase_absent (absent : id ∉ node.leafIds) : isSoleBase id node = false := by
  unfold leafIds at absent
  induction node using LayoutNode.nodeInduction with
  | leaf v => rfl
  | split axis ratio first second ih₁ ih₂ =>
    simp only [views_split, List.map_append, List.mem_append, not_or] at absent
    simp [isSoleBase, ih₁ absent.1, ih₂ absent.2]
  | stack children ih =>
    simp only [isSoleBase]
    induction children with
    | nil => rfl
    | cons c rest later =>
      simp only [views_stack, List.flatMap_cons, List.map_append, List.mem_append, not_or] at absent
      have tail := later (fun d member => ih d (List.mem_cons_of_mem _ member)) (by simpa using absent.2)
      simp [isSoleBaseOf, ih c (by simp) absent.1, tail]
  | overlay base floated bounds tier ih₁ ih₂ =>
    simp only [views_overlay, List.map_append, List.mem_append, not_or] at absent
    have other : base.leafIds ≠ [id] := fun same => absent.1 (by unfold leafIds at same; simp [same])
    simp [isSoleBase, ih₁ absent.1, ih₂ absent.2, other]

theorem Sound.leafIds_ne_nil (sound : node.Sound) : node.leafIds ≠ [] := by
  simpa [leafIds] using sound.views_ne_nil

theorem leafIds_append_ne (sound₁ : first.Sound) (sound₂ : second.Sound) :
    first.views.map (·.id) ++ second.views.map (·.id) ≠ [id] := by
  intro same
  have count := congrArg List.length same
  have some₁ := List.length_pos_iff.mpr sound₁.views_ne_nil
  have some₂ := List.length_pos_iff.mpr sound₂.views_ne_nil
  simp only [List.length_append, List.length_map, List.length_singleton] at count
  omega

theorem isSoleBase_single (sound : node.Sound) (single : node.leafIds = [id]) : isSoleBase id node = false := by
  unfold leafIds at single
  induction node using LayoutNode.nodeInduction with
  | leaf v => rfl
  | split axis ratio first second _ _ =>
    obtain ⟨_, sound₁, sound₂⟩ := sound_split.mp sound
    exact absurd (by simpa using single) (@leafIds_append_ne id _ _ sound₁ sound₂)
  | stack children ih =>
    obtain ⟨some, all⟩ := sound_stack.mp sound
    obtain ⟨c, rest, rfl⟩ := List.exists_cons_of_ne_nil some
    cases rest with
    | nil =>
      have head := ih c (by simp) (all c (by simp)) (by simpa using single)
      simp [isSoleBase, isSoleBaseOf, head]
    | cons d others =>
      have sound₂ : Sound (stack (d :: others)) :=
        sound_stack.mpr ⟨by simp, fun e member => all e (List.mem_cons_of_mem _ member)⟩
      exact absurd (by simpa using single) (@leafIds_append_ne id _ _ (all c (by simp)) sound₂)
  | overlay base floated bounds tier _ _ =>
    obtain ⟨_, sound₁, sound₂⟩ := sound_overlay.mp sound
    exact absurd (by simpa using single) (@leafIds_append_ne id _ _ sound₁ sound₂)

theorem ids_ne_of_other {xs ys : List ViewId} (some : xs ≠ []) (absent : id ∉ xs) : xs ++ ys ≠ [id] := by
  intro same
  obtain ⟨i, rest, rfl⟩ := List.exists_cons_of_ne_nil some
  rw [List.cons_append, List.cons.injEq] at same
  exact absent (by simp [same.1])

/-- What a removal makes of a sound tree: a tombstone when the leaf was the last one, and else a sound tree
unless the base of an overlay was drained. -/
theorem removeLeaf_sound (sound : node.Sound) (distinct : node.leafIds.Nodup) (present : id ∈ node.leafIds) :
    ((removeLeaf id node).1.isGone ↔ node.leafIds = [id]) ∧
      (node.leafIds ≠ [id] → ((removeLeaf id node).1.Sound ↔ isSoleBase id node = false)) := by
  unfold leafIds at distinct present ⊢
  induction node using LayoutNode.nodeInduction with
  | leaf v =>
    have same : v.id = id := by simpa [eq_comm] using present
    simp [removeLeaf, same, isGone]
  | split axis ratio first second ih₁ ih₂ =>
    obtain ⟨inRange, sound₁, sound₂⟩ := sound_split.mp sound
    obtain ⟨distinct₁, distinct₂, apart⟩ := nodup_parts distinct
    have several := @leafIds_append_ne id _ _ sound₁ sound₂
    rcases mem_parts present with inFirst | ⟨notFirst, inSecond⟩
    · obtain ⟨v, rest, removed, -, -⟩ := removeLeaf_present distinct₁ inFirst
      obtain ⟨gone_iff, sound_iff⟩ := ih₁ sound₁ distinct₁ inFirst
      have other := @isSoleBase_absent id second (apart inFirst)
      simp only [removeLeaf, removed] at gone_iff sound_iff ⊢
      by_cases gone : rest.isGone = true
      · have single := @isSoleBase_single id first sound₁ (gone_iff.mp gone)
        simp [gone, sound₂.not_gone, sound₂, several, isSoleBase, single, other]
      · have more : first.views.map (·.id) ≠ [id] := fun same => gone (gone_iff.mpr same)
        simp [gone, several, isSoleBase, other, sound_split, inRange, sound₂, sound_iff more]
    · obtain ⟨v, rest, removed, -, -⟩ := removeLeaf_present distinct₂ inSecond
      obtain ⟨gone_iff, sound_iff⟩ := ih₂ sound₂ distinct₂ inSecond
      have skipped := @removeLeaf_absent id first notFirst
      have other := @isSoleBase_absent id first notFirst
      simp only [removeLeaf, skipped, removed] at gone_iff sound_iff ⊢
      by_cases gone : rest.isGone = true
      · have single := @isSoleBase_single id second sound₂ (gone_iff.mp gone)
        simp [gone, sound₁.not_gone, sound₁, several, isSoleBase, single, other]
      · have more : second.views.map (·.id) ≠ [id] := fun same => gone (gone_iff.mpr same)
        simp [gone, several, isSoleBase, other, sound_split, inRange, sound₁, sound_iff more]
  | stack children ih =>
    obtain ⟨some, all⟩ := sound_stack.mp sound
    simp only [views_stack] at distinct present
    suffices ((removeFromStack id children).1 = [] ↔ (children.flatMap views).map (·.id) = [id]) ∧
        ((children.flatMap views).map (·.id) ≠ [id] →
          ((∀ c ∈ (removeFromStack id children).1, c.Sound) ↔ isSoleBaseOf id children = false)) by
      obtain ⟨gone_iff, sound_iff⟩ := this
      simp only [removeLeaf, views_stack]
      refine ⟨isGone_stack.trans gone_iff, fun several => ?_⟩
      rw [sound_stack, isSoleBase, sound_iff several]
      exact and_iff_right fun empty => several (gone_iff.mp empty)
    clear some sound
    induction children with
    | nil => simp at present
    | cons c rest later =>
      have head := all c (by simp)
      have tail : ∀ d ∈ rest, Sound d := fun d member => all d (List.mem_cons_of_mem _ member)
      rw [List.flatMap_cons] at distinct present
      obtain ⟨distinct₁, distinct₂, apart⟩ := nodup_parts distinct
      rw [List.flatMap_cons, List.map_append]
      rcases mem_parts present with inHead | ⟨notHead, inTail⟩
      · have here : containsLeaf id c := containsLeaf_iff.mpr inHead
        obtain ⟨gone_iff, sound_iff⟩ := ih c (by simp) head distinct₁ inHead
        have other : isSoleBaseOf id rest = false := @isSoleBase_absent id (stack rest) (by simpa [leafIds] using apart inHead)
        simp only [removeFromStack, if_pos here]
        by_cases gone : (removeLeaf id c).1.isGone = true
        · have sole := gone_iff.mp gone
          have single := isSoleBase_single head sole
          have empty_iff : rest = [] ↔ (rest.flatMap views).map (·.id) = [] := by
            refine ⟨fun empty => by simp [empty], fun none => ?_⟩
            by_contra some
            exact (sound_stack.mpr ⟨some, tail⟩).leafIds_ne_nil (by simpa [leafIds] using none)
          rw [if_pos gone, sole, List.cons_append, List.nil_append, List.cons.injEq, isSoleBaseOf, single, other]
          exact ⟨by simpa using empty_iff, fun _ => by simpa using tail⟩
        · have more := fun same => gone (gone_iff.mpr same)
          have several : c.views.map (·.id) ++ (rest.flatMap views).map (·.id) ≠ [id] := by
            rw [ne_eq, List.append_eq_singleton_iff]
            rintro (⟨none, _⟩ | ⟨sole, _⟩)
            · exact head.leafIds_ne_nil none
            · exact more sole
          rw [if_neg gone]
          refine ⟨by simpa using several, fun _ => ?_⟩
          rw [List.forall_mem_cons, sound_iff more, isSoleBaseOf, other, Bool.or_false]
          exact and_iff_left tail
      · have elsewhere : ¬ containsLeaf id c := fun here => notHead (containsLeaf_iff.mp here)
        have other := @isSoleBase_absent id c notHead
        obtain ⟨gone_iff, sound_iff⟩ := later (fun d member => ih d (List.mem_cons_of_mem _ member)) tail distinct₂ inTail
        have several := @ids_ne_of_other id _ ((rest.flatMap views).map (·.id)) head.leafIds_ne_nil notHead
        simp only [removeFromStack, if_neg elsewhere]
        refine ⟨iff_of_false (by simp) several, fun _ => ?_⟩
        rw [List.forall_mem_cons, isSoleBaseOf, other, Bool.false_or]
        by_cases sole : (rest.flatMap views).map (·.id) = [id]
        · have none : (removeFromStack id rest).1 = [] := gone_iff.mpr sole
          have some : rest ≠ [] := fun empty => by simp [empty] at sole
          have single := @isSoleBase_single id (stack rest) (sound_stack.mpr ⟨some, tail⟩) (by simpa [leafIds] using sole)
          rw [isSoleBase] at single
          simp [none, single, head]
        · rw [sound_iff sole]
          exact and_iff_right head
  | overlay base floated bounds tier ih₁ ih₂ =>
    obtain ⟨some, sound₁, sound₂⟩ := sound_overlay.mp sound
    obtain ⟨distinct₁, distinct₂, apart⟩ := nodup_parts distinct
    have several := @leafIds_append_ne id _ _ sound₁ sound₂
    have filled : ∀ {n : LayoutNode}, n.Sound → n.leafCount ≠ 0 := fun {n} sound => by
      rw [leafCount_eq, ne_eq, List.length_eq_zero_iff]
      exact sound.views_ne_nil
    rcases mem_parts present with inBase | ⟨notBase, inOver⟩
    · obtain ⟨v, rest, removed, -, -⟩ := removeLeaf_present distinct₁ inBase
      obtain ⟨gone_iff, sound_iff⟩ := ih₁ sound₁ distinct₁ inBase
      have other := @isSoleBase_absent id floated (apart inBase)
      simp only [removeLeaf, removed] at gone_iff sound_iff ⊢
      by_cases gone : rest.isGone = true
      · have sole : base.leafIds = [id] := gone_iff.mp gone
        have drained : ¬ rest.Sound := fun kept => by simp [kept.not_gone] at gone
        simp [several, isSoleBase, sole, sound_overlay, drained]
      · have more : base.views.map (·.id) ≠ [id] := fun same => gone (gone_iff.mpr same)
        have notSole : base.leafIds ≠ [id] := more
        simp [several, isSoleBase, other, sound_overlay, sound₂, sound_iff more, filled sound₂, notSole]
    · obtain ⟨v, rest, removed, -, -⟩ := removeLeaf_present distinct₂ inOver
      obtain ⟨gone_iff, sound_iff⟩ := ih₂ sound₂ distinct₂ inOver
      have skipped := @removeLeaf_absent id base notBase
      have other := @isSoleBase_absent id base notBase
      have notSole : base.leafIds ≠ [id] := fun same => notBase (by unfold leafIds at same; simp [same])
      simp only [removeLeaf, skipped, removed] at gone_iff sound_iff ⊢
      by_cases gone : rest.isGone = true
      · have single := @isSoleBase_single id floated sound₂ (gone_iff.mp gone)
        simp [gone, sound₁.not_gone, sound₁, several, isSoleBase, single, other, notSole]
      · have more : floated.views.map (·.id) ≠ [id] := fun same => gone (gone_iff.mpr same)
        simp [gone, several, isSoleBase, other, sound_overlay, sound₁, sound_iff more, filled sound₁, notSole]

@[simp] theorem ratioInRange_clampRatio (ratio : Binary32) : ratioInRange (clampRatio ratio) := by
  cases ratio with
  | finite raw =>
    simp only [clampRatio, ratioInRange, Bool.and_eq_true, decide_eq_true_eq]
    have order : MIN_RATIO ≤ MAX_RATIO := by norm_num [ MIN_RATIO, MAX_RATIO]
    exact ⟨le_min (le_max_right _ _) order, min_le_right _ _⟩
  | nan => norm_num [clampRatio, ratioInRange, MIN_RATIO, MAX_RATIO]
  | infinite negative => norm_num [clampRatio, ratioInRange, MIN_RATIO, MAX_RATIO]

theorem leafCount_ne_zero (present : id ∈ node.leafIds) : node.leafCount ≠ 0 := by
  rw [leafCount_eq, ne_eq, List.length_eq_zero_iff]
  intro none
  simp [leafIds, none] at present

theorem leafCount_insertBeside {sibling : ViewId} {dragged : View} {axis : SplitAxis} {ratio : Binary32} {after : Bool}
    (present : sibling ∈ node.leafIds) : (insertBeside sibling dragged axis ratio after node).1.leafCount ≠ 0 := by
  obtain ⟨out, before, s, rest, placed, -, -, views⟩ := @insertBeside_present _ _ dragged axis ratio after present
  rw [placed, leafCount_eq, views]
  cases after <;> simp [neighbours]

/-- An insertion neither repairs nor breaks a tree. -/
theorem insertBeside_sound (sibling : ViewId) (dragged : View) (axis : SplitAxis) (ratio : Binary32) (after : Bool) :
    (insertBeside sibling dragged axis ratio after node).1.Sound ↔ node.Sound := by
  induction node using LayoutNode.nodeInduction with
  | leaf v =>
    simp only [insertBeside]
    split
    · refine iff_of_true ?_ (sound_leaf v)
      cases after <;> exact sound_split.mpr ⟨ratioInRange_clampRatio ratio, sound_leaf _, sound_leaf _⟩
    · rfl
  | split axis' ratio' first second ih₁ ih₂ =>
    simp only [insertBeside]
    split
    · rw [sound_split, sound_split, ih₁]
    · rw [sound_split, sound_split, ih₁, ih₂]
  | stack children ih =>
    simp only [insertBeside]
    have same : (insertInStack sibling dragged axis ratio after children).1 = [] ↔ children = [] := by
      cases children with
      | nil => simp [insertInStack]
      | cons c rest =>
        simp only [insertInStack]
        split <;> simp
    rw [sound_stack, sound_stack, ne_eq, ne_eq, same]
    refine and_congr_right fun some => ?_
    clear some same
    induction children with
    | nil => simp [insertInStack]
    | cons c rest later =>
      have tail := later fun d member => ih d (List.mem_cons_of_mem _ member)
      simp only [insertInStack]
      split
      · rw [List.forall_mem_cons, List.forall_mem_cons, ih c (by simp)]
      · rw [List.forall_mem_cons, List.forall_mem_cons, ih c (by simp), tail]
  | overlay base floated bounds tier ih₁ ih₂ =>
    by_cases inBase : sibling ∈ base.leafIds
    · obtain ⟨out, before, s, rest, placed, -, -, -⟩ := @insertBeside_present _ _ dragged axis ratio after inBase
      have filled := @leafCount_insertBeside _ _ dragged axis ratio after inBase
      rw [placed] at filled ih₁
      have some := leafCount_ne_zero inBase
      simp [insertBeside, placed, sound_overlay, filled, some, ih₁]
    · have skipped := @insertBeside_absent _ _ dragged axis ratio after inBase
      by_cases inOver : sibling ∈ floated.leafIds
      · obtain ⟨out, before, s, rest, placed, -, -, -⟩ := @insertBeside_present _ _ dragged axis ratio after inOver
        have filled := @leafCount_insertBeside _ _ dragged axis ratio after inOver
        rw [placed] at filled ih₂
        have some := leafCount_ne_zero inOver
        simp [insertBeside, skipped, placed, sound_overlay, filled, some, ih₂]
      · have missed := @insertBeside_absent _ _ dragged axis ratio after inOver
        simp [insertBeside, skipped, missed]

@[simp] theorem mapViews_sound (f : View → View) : (mapViews f node).Sound ↔ node.Sound := by
  induction node using LayoutNode.nodeInduction with
  | leaf v => exact iff_of_true (sound_leaf _) (sound_leaf _)
  | split axis ratio first second ih₁ ih₂ => rw [mapViews, sound_split, sound_split, ih₁, ih₂]
  | stack children ih =>
    rw [mapViews, mapViewsOf_eq, sound_stack, sound_stack, List.forall_mem_map]
    refine and_congr (by simp) (forall₂_congr fun c member => ih c member)
  | overlay base floated bounds tier ih₁ ih₂ =>
    rw [mapViews, sound_overlay, sound_overlay, ih₁, ih₂]
    simp only [leafCount_eq, views_mapViews, List.length_map]

end LayoutNode

end Bitty.Ui
