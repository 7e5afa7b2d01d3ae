import Bitty.Ui.Structure

namespace Bitty.Ui

inductive Edit
  | remove (id : ViewId)
  | insert (sibling : ViewId) (dragged : View) (axis : SplitAxis) (ratio : Binary32) (after : Bool)
  | reparent (id sibling : ViewId) (axis : SplitAxis) (ratio : Binary32) (after : Bool)
  | swap (a b : ViewId)

namespace Edit

open LayoutNode

def result : Edit → LayoutNode → LayoutNode
  | remove id, node => (removeLeaf id node).1
  | insert sibling dragged axis ratio after, node => (insertBeside sibling dragged axis ratio after node).1
  | reparent id sibling axis ratio after, node => (reparentLeaf id sibling axis ratio after node).1
  | swap a b, node => (swapLeaves a b node).1

def succeeds : Edit → LayoutNode → Bool
  | remove id, node => (removeLeaf id node).2.isSome
  | insert sibling dragged axis ratio after, node => (insertBeside sibling dragged axis ratio after node).2
  | reparent id sibling axis ratio after, node => (reparentLeaf id sibling axis ratio after node).2
  | swap a b, node => (swapLeaves a b node).2

def Applies : Edit → LayoutNode → Prop
  | remove id, node => id ∈ node.leafIds
  | insert sibling .., node => sibling ∈ node.leafIds
  | reparent id sibling .., node => id ≠ sibling ∧ id ∈ node.leafIds ∧ sibling ∈ node.leafIds
  | swap a b, node => a ≠ b ∧ SENTINEL ∉ node.leafIds ∧ a ∈ node.leafIds ∧ b ∈ node.leafIds

def Moves : Edit → LayoutNode → Prop
  | remove id, node =>
    ∃ v, findLeaf id node = some v ∧ (removeLeaf id node).2 = some v ∧
      (removeLeaf id node).1.views = node.views.filter (·.id ≠ id)
  | insert sibling dragged axis ratio after, node =>
    ∃ before s rest, s.id = sibling ∧ node.views = before ++ s :: rest ∧
      (insertBeside sibling dragged axis ratio after node).1.views = before ++ neighbours after s dragged ++ rest
  | reparent id sibling axis ratio after, node =>
    (reparentLeaf id sibling axis ratio after node).1.views.Perm node.views ∧
      ∃ before v s rest, v.id = id ∧ s.id = sibling ∧
        (reparentLeaf id sibling axis ratio after node).1.views = before ++ neighbours after s v ++ rest
  | swap a b, node =>
    ∃ viewA viewB, findLeaf a node = some viewA ∧ findLeaf b node = some viewB ∧
      (swapLeaves a b node).1 = mapViews (exchange a b viewA viewB) node

/-- What is asked of a call: it succeeds when its ids are there and then moves what it names and nothing else;
it leaves the tree alone when it fails; and a tree that still has a leaf is valid again. -/
structure Keeps (e : Edit) (node : LayoutNode) : Prop where
  succeeds_iff : e.succeeds node ↔ e.Applies node
  moves : e.succeeds node → e.Moves node
  untouched : ¬ e.succeeds node → e.result node = node
  valid : (e.result node).leafIds ≠ [] → (e.result node).Valid

/-- The call takes the last leaf out of the base of an overlay. -/
def DrainsBase : Edit → LayoutNode → Prop
  | remove id, node => isSoleBase id node
  | insert .., _ => False
  | reparent id sibling axis ratio after, node =>
    (reparent id sibling axis ratio after).Applies node ∧ isSoleBase id node
  | swap .., _ => False

variable {node : LayoutNode} {id : ViewId}

theorem perm_without {v : View} (distinct : node.leafIds.Nodup) (found : findLeaf id node = some v) :
    (v :: without id node.views).Perm node.views := by
  rw [findLeaf_eq, List.find?_eq_some_iff_append] at found
  obtain ⟨same, before, after, views, others⟩ := found
  have same : v.id = id := by simpa using same
  unfold leafIds at distinct
  rw [views, List.map_append, List.map_cons, List.nodup_append, List.nodup_cons] at distinct
  have left : without id before = before := by
    refine without_eq_self fun member => ?_
    obtain ⟨w, inBefore, eq⟩ := List.mem_map.mp member
    simpa [eq] using others w inBefore
  have right : without id after = after := without_eq_self (by simpa [same] using distinct.2.1.1)
  have dropped : without id (v :: after) = after := by
    rw [← right, without, without, List.filter_cons_of_neg (by simp [same]), List.filter_filter]
    simp
  rw [views, without_append, left, dropped]
  exact List.perm_middle.symm

theorem leafIds_eq_single (distinct : node.leafIds.Nodup) (present : id ∈ node.leafIds)
    (none : without id node.views = []) : node.leafIds = [id] := by
  obtain ⟨v, found, same⟩ := findLeaf_present present
  have views := perm_without distinct found
  rw [none, List.singleton_perm] at views
  simp [leafIds, ← views, same]

theorem keeps_remove (id : ViewId) (sound : node.Sound) (distinct : node.leafIds.Nodup) :
    (remove id).Keeps node ↔ isSoleBase id node = false := by
  by_cases present : id ∈ node.leafIds
  · obtain ⟨v, rest, removed, found, left⟩ := removeLeaf_present distinct present
    obtain ⟨gone_iff, sound_iff⟩ := removeLeaf_sound sound distinct present
    rw [removed] at gone_iff sound_iff
    constructor
    · intro keeps
      by_cases single : node.leafIds = [id]
      · exact isSoleBase_single sound single
      · have some : rest.leafIds ≠ [] := by
          intro none
          refine single (leafIds_eq_single distinct present ?_)
          rw [← left]
          simpa [leafIds] using none
        have valid := keeps.valid (by simpa [result, removed] using some)
        exact (sound_iff single).mp (valid_iff.mp (by simpa [result, removed] using valid))
    · intro notSole
      refine ⟨by simp [succeeds, removed, Applies, present], fun _ => ⟨v, found, by rw [removed], by rw [removed]; exact left⟩,
        by simp [succeeds, removed], fun some => ?_⟩
      simp only [result, removed] at some ⊢
      have more : node.leafIds ≠ [id] := fun single => some (by
        simp [leafIds, views_of_isGone (gone_iff.mpr single)])
      exact valid_iff.mpr ((sound_iff more).mpr notSole)
  · have skipped := removeLeaf_absent present
    refine iff_of_true ?_ (isSoleBase_absent present)
    exact ⟨by simp [succeeds, skipped, Applies, present], by simp [succeeds, skipped], by simp [result, skipped],
      fun _ => by simpa [result, skipped] using valid_iff.mpr sound⟩

theorem keeps_insert (sibling : ViewId) (dragged : View) (axis : SplitAxis) (ratio : Binary32) (after : Bool)
    (sound : node.Sound) : (insert sibling dragged axis ratio after).Keeps node := by
  have kept := (insertBeside_sound sibling dragged axis ratio after).mpr sound
  by_cases present : sibling ∈ node.leafIds
  · obtain ⟨out, before, s, rest, placed, same, views, views'⟩ :=
      @insertBeside_present _ _ dragged axis ratio after present
    refine ⟨by simp [succeeds, placed, Applies, present], fun _ => ⟨before, s, rest, same, views, ?_⟩,
      by simp [succeeds, placed], fun _ => valid_iff.mpr kept⟩
    rw [placed]
    exact views'
  · have skipped := @insertBeside_absent _ _ dragged axis ratio after present
    exact ⟨by simp [succeeds, skipped, Applies, present], by simp [succeeds, skipped], by simp [result, skipped],
      fun _ => valid_iff.mpr kept⟩

theorem swapLeaves_skipped {a b : ViewId} (skip : ¬ (swap a b).Applies node) : swapLeaves a b node = (node, false) := by
  simp only [Applies, not_and_or] at skip
  unfold swapLeaves
  by_cases refused : (a = b || containsLeaf SENTINEL node) = true
  · rw [if_pos refused]
  · rw [if_neg refused, if_pos]
    simp only [Bool.or_eq_true, decide_eq_true_eq, containsLeaf_iff, not_or] at refused
    simp only [Bool.or_eq_true, Bool.not_eq_true', ← Bool.not_eq_true, containsLeaf_iff]
    tauto

theorem keeps_swap (a b : ViewId) (sound : node.Sound) (distinct : node.leafIds.Nodup) : (swap a b).Keeps node := by
  by_cases applies : (swap a b).Applies node
  · obtain ⟨different, unparked, inA, inB⟩ := applies
    obtain ⟨viewA, viewB, foundA, foundB, swapped⟩ := swapLeaves_present distinct different inA inB unparked
    refine ⟨by simp [succeeds, swapped, Applies, different, unparked, inA, inB],
      fun _ => ⟨viewA, viewB, foundA, foundB, by rw [swapped]⟩, by simp [succeeds, swapped], fun _ => ?_⟩
    simp only [result, swapped]
    exact valid_iff.mpr ((mapViews_sound _).mpr sound)
  · have skipped := swapLeaves_skipped applies
    exact ⟨by simp [succeeds, skipped, applies], by simp [succeeds, skipped], by simp [result, skipped],
      fun _ => by simpa [result, skipped] using valid_iff.mpr sound⟩

theorem neighbours_perm (after : Bool) (s dragged : View) (before rest : List View) :
    (before ++ neighbours after s dragged ++ rest).Perm (dragged :: (before ++ s :: rest)) := by
  rw [List.append_assoc]
  cases after with
  | false => exact List.perm_middle
  | true => exact ((List.Perm.swap dragged s rest).append_left before).trans List.perm_middle

theorem keeps_reparent (id sibling : ViewId) (axis : SplitAxis) (ratio : Binary32) (after : Bool)
    (sound : node.Sound) (distinct : node.leafIds.Nodup) :
    (reparent id sibling axis ratio after).Keeps node ↔ ¬ (reparent id sibling axis ratio after).DrainsBase node := by
  by_cases applies : (reparent id sibling axis ratio after).Applies node
  · obtain ⟨different, present, beside⟩ := applies
    obtain ⟨v, rest, removed, found, left⟩ := removeLeaf_present distinct present
    obtain ⟨gone_iff, sound_iff⟩ := removeLeaf_sound sound distinct present
    rw [removed] at sound_iff
    have sameV : v.id = id := by
      rw [findLeaf_eq] at found
      simpa using List.find?_some found
    have still : sibling ∈ rest.leafIds := by
      obtain ⟨w, member, same⟩ := List.mem_map.mp beside
      have other : w.id ≠ id := fun eq => different (eq.symm.trans same)
      rw [leafIds, left]
      exact List.mem_map.mpr ⟨w, List.mem_filter.mpr ⟨member, by simpa using other⟩, same⟩
    have several : node.leafIds ≠ [id] := by
      intro single
      rw [single, List.mem_singleton] at beside
      exact different beside.symm
    obtain ⟨out, before, s, others, placed, same, views, views'⟩ :=
      @insertBeside_present _ _ v axis ratio after still
    have moved : reparentLeaf id sibling axis ratio after node = (out, true) := by
      unfold reparentLeaf
      rw [if_neg, removed]
      · exact placed
      · simp [different, containsLeaf_iff.mpr present, containsLeaf_iff.mpr beside]
    have kept : out.Sound ↔ isSoleBase id node = false := by
      have same := @insertBeside_sound rest sibling v axis ratio after
      rw [placed] at same
      exact same.trans (sound_iff several)
    have perm : out.views.Perm node.views := by
      refine List.Perm.trans ?_ (perm_without distinct found)
      rw [views', ← left, views]
      exact neighbours_perm after s v before others
    have some : out.leafIds ≠ [] := by
      rw [leafIds, views']
      cases after <;> simp [neighbours]
    constructor
    · intro keeps drains
      have valid := keeps.valid (by simpa [result, moved] using some)
      have notSole := kept.mp (valid_iff.mp (by simpa [result, moved] using valid))
      exact Bool.false_ne_true (notSole.symm.trans drains.2)
    · intro whole
      have notSole : isSoleBase id node = false := by
        by_contra sole
        exact whole ⟨⟨different, present, beside⟩, by simpa using sole⟩
      refine ⟨by simp [succeeds, moved, Applies, different, present, beside], fun _ => ⟨?_, before, v, s, others, sameV, same, ?_⟩,
        by simp [succeeds, moved], fun _ => ?_⟩
      · rw [moved]
        exact perm
      · rw [moved]
        exact views'
      · simp only [result, moved]
        exact valid_iff.mpr (kept.mpr notSole)
  · have skipped : reparentLeaf id sibling axis ratio after node = (node, false) := by
      unfold reparentLeaf
      rw [if_pos]
      simp only [Bool.or_eq_true, decide_eq_true_eq, Bool.not_eq_true', ← Bool.not_eq_true, containsLeaf_iff]
      simp only [Applies, not_and_or] at applies
      tauto
    refine iff_of_true ?_ (fun drains => applies drains.1)
    exact ⟨by simp [succeeds, skipped, applies], by simp [succeeds, skipped], by simp [result, skipped],
      fun _ => by simpa [result, skipped] using valid_iff.mpr sound⟩

/-- Every call on a valid tree of distinct leaves keeps its panes and their order of arrangement; the tree it
leaves is valid again exactly when the base of no overlay is drained. -/
theorem keeps_iff (e : Edit) (valid : node.Valid) (distinct : node.leafIds.Nodup) :
    e.Keeps node ↔ ¬ e.DrainsBase node := by
  have sound : node.Sound := valid_iff.mp valid
  cases e with
  | remove id => simpa [DrainsBase] using keeps_remove id sound distinct
  | insert sibling dragged axis ratio after =>
    exact iff_of_true (keeps_insert sibling dragged axis ratio after sound) not_false
  | reparent id sibling axis ratio after => exact keeps_reparent id sibling axis ratio after sound distinct
  | swap a b => exact iff_of_true (keeps_swap a b sound distinct) not_false

def floating : LayoutNode := .overlay (.leaf (.new 1 40 24)) (.leaf (.new 2 10 5)) ⟨10, 5, 20, 10⟩ .popup

/-- Moving a pane of a tree of three. -/
theorem keeps_iff_three :
    (reparent 1 3 .vertical .nan true).Keeps (.split .horizontal (.finite (1 / 2)) (.leaf (.new 1 1 1))
      (.stack [.leaf (.new 2 1 1), .leaf (.new 3 1 1)])) ↔
    ¬ (reparent 1 3 .vertical .nan true).DrainsBase (.split .horizontal (.finite (1 / 2)) (.leaf (.new 1 1 1))
      (.stack [.leaf (.new 2 1 1), .leaf (.new 3 1 1)])) :=
  keeps_iff (reparent 1 3 .vertical .nan true) ⟨3, by decide +kernel⟩ (by decide)

/-- Closing the base pane of a valid tree leaves a tree that has a leaf and that the validator refuses. -/
theorem floating_drained :
    floating.validateStructure = .ok 2 ∧ floating.leafIds = [1, 2] ∧ (removeLeaf 1 floating).1.leafIds = [2] ∧
      (removeLeaf 1 floating).1.validateStructure = .error .emptyStack ∧ ¬ (remove 1).Keeps floating := by
  refine ⟨by decide, by decide, by decide, by decide, fun keeps => ?_⟩
  obtain ⟨n, valid⟩ := keeps.valid (by decide)
  have refused : ((remove 1).result floating).validateStructure = .error .emptyStack := by decide
  rw [refused] at valid
  cases valid

end Edit

end Bitty.Ui
