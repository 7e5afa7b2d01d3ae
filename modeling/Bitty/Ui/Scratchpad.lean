import Bitty.Ui.Keeps

/-! The hidden slot of a window: a leaf that is parked outside the tree and put back beside its neighbour. -/

namespace Bitty.Ui

def SCRATCHPAD_CMD_TOGGLE : Text := "bitty.workspace:scratchpad-toggle".toList

inductive ScratchpadError
  | occupied | vacant | missingTarget
  | leafNotFound (id : ViewId)
  | rejected (source target : PresentationMode)
  | unknownCommand (command : Text)
  deriving DecidableEq

namespace PresentationMode

def canTransition (_source _target : PresentationMode) : Bool := true

def requestTransition (leaf : View) (mode : PresentationMode) : View × Bool :=
  if canTransition leaf.presentation mode then ({ leaf with presentation := mode }, true) else (leaf, false)

end PresentationMode

open PresentationMode LayoutNode

/-- The parked leaf, the leaf it stood beside, and the side it returns to. -/
structure HiddenEntry where
  view : View
  anchor : Option ViewId
  after : Bool

structure ScratchpadSlot where
  hidden : Option HiddenEntry

structure Workspace where
  tree : LayoutNode
  slot : ScratchpadSlot

abbrev Outcome (α : Type) := Workspace × Except ScratchpadError α

namespace ScratchpadSlot

def new : ScratchpadSlot := ⟨none⟩

def besideAnchor (tree : LayoutNode) (view : View) (anchor : Option ViewId) (after : Bool) : LayoutNode × Bool :=
  match anchor with
  | some a => if a ∈ tree.leafIds then insertBeside a view .horizontal (.finite (1 / 2)) after tree else (tree, false)
  | none => (tree, false)

/-- The tree with the view in it, or nothing when the `expect` of a first leaf panics. -/
def restoreView (tree : LayoutNode) (view : View) (anchor : Option ViewId) (after : Bool) : Option LayoutNode :=
  if tree.leafCount = 0 then some (.leaf view)
  else
    match besideAnchor tree view anchor after with
    | (tree, true) => some tree
    | (tree, false) =>
      match tree.leafIds with
      | [] => none
      | first :: _ =>
        match insertBeside first view .horizontal (.finite (1 / 2)) true tree with
        | (tree, true) => some tree
        | (old, false) => some (clampedSplit .horizontal (.finite (1 / 2)) old (.leaf view))

/-- The leaf behind the one at a place, to restore before it; else the one in front, to restore after it. -/
def anchorAt (ids : List ViewId) (pos : Nat) : Option ViewId × Bool :=
  match ids[pos + 1]? with
  | some next => (some next, false)
  | none => if 0 < pos then (ids[pos - 1]?, true) else (none, true)

def hide (slot : ScratchpadSlot) (tree : LayoutNode) (id : ViewId) : Option (Outcome Unit) :=
  if slot.hidden.isSome then some (⟨tree, slot⟩, .error .occupied)
  else
    match tree.leafIds.findIdx? (· = id) with
    | none => some (⟨tree, slot⟩, .error (.leafNotFound id))
    | some pos =>
      let (anchor, after) := anchorAt tree.leafIds pos
      match removeLeaf id tree with
      | (tree, none) => some (⟨tree, slot⟩, .error (.leafNotFound id))
      | (tree, some view) =>
        match requestTransition view .scratchpad with
        | (view, true) => some (⟨tree, ⟨some ⟨view, anchor, after⟩⟩⟩, .ok ())
        | (view, false) => (restoreView tree view anchor after).map fun tree =>
            (⟨tree, slot⟩, .error (.rejected view.presentation .scratchpad))

def «show» (slot : ScratchpadSlot) (tree : LayoutNode) : Option (Outcome ViewId) :=
  match slot.hidden with
  | none => some (⟨tree, slot⟩, .error .vacant)
  | some entry =>
    match requestTransition entry.view .tiled with
    | (view, true) => (restoreView tree view entry.anchor entry.after).map fun tree => (⟨tree, ⟨none⟩⟩, .ok view.id)
    | (view, false) => some (⟨tree, ⟨some { entry with view }⟩⟩, .error (.rejected view.presentation .tiled))

def toggle (slot : ScratchpadSlot) (tree : LayoutNode) (target : Option ViewId) : Option (Outcome (Option ViewId)) :=
  if slot.hidden.isSome then (slot.show tree).map fun out => (out.1, out.2.map some)
  else
    match target with
    | none => some (⟨tree, slot⟩, .error .missingTarget)
    | some id => (slot.hide tree id).map fun out => (out.1, out.2.map fun _ => none)

def discard (slot : ScratchpadSlot) (id : ViewId) : ScratchpadSlot × Option View :=
  match slot.hidden with
  | some entry => if entry.view.id = id then (⟨none⟩, some entry.view) else (slot, none)
  | none => (slot, none)

end ScratchpadSlot

def applyScratchpadToggle (slot : ScratchpadSlot) (tree : LayoutNode) (command : Text) (target : Option ViewId) :
    Option (Outcome (Option ViewId)) :=
  if command ≠ SCRATCHPAD_CMD_TOGGLE then some (⟨tree, slot⟩, .error (.unknownCommand command))
  else slot.toggle tree target

inductive ScratchpadOp
  | hide (id : ViewId)
  | «show»
  | toggle (target : Option ViewId)
  | command (name : Text) (target : Option ViewId)
  | discard (id : ViewId)
  | removeLeaf (id : ViewId)

/-- What a call answers: its error, or the leaf that it took out of the window. -/
inductive ScratchpadAnswer
  | done
  | failed (error : ScratchpadError)
  | taken (view : Option View)

namespace Workspace

def answered {α : Type} (out : Outcome α) : Workspace × ScratchpadAnswer :=
  (out.1, match out.2 with
    | .ok _ => .done
    | .error e => .failed e)

def step (now : Workspace) : ScratchpadOp → Option (Workspace × ScratchpadAnswer)
  | .hide id => (now.slot.hide now.tree id).map answered
  | .show => (now.slot.show now.tree).map answered
  | .toggle target => (now.slot.toggle now.tree target).map answered
  | .command name target => (applyScratchpadToggle now.slot now.tree name target).map answered
  | .discard id => some (⟨now.tree, (now.slot.discard id).1⟩, .taken (now.slot.discard id).2)
  | .removeLeaf id => some (⟨(LayoutNode.removeLeaf id now.tree).1, now.slot⟩, .taken (LayoutNode.removeLeaf id now.tree).2)

def run (now : Workspace) : List ScratchpadOp → Option (Workspace × List (ScratchpadOp × ScratchpadAnswer))
  | [] => some (now, [])
  | op :: ops => do
    let (next, answer) ← now.step op
    let (last, answers) ← next.run ops
    some (last, (op, answer) :: answers)

def panes (now : Workspace) : List View := now.tree.views ++ (now.slot.hidden.map HiddenEntry.view).toList

end Workspace

/-! A parked leaf is never lost. -/

def View.bare (v : View) : View := { v with presentation := .tiled }

def ScratchpadAnswer.lost : ScratchpadAnswer → List View
  | .taken view => view.toList
  | _ => []

def ScratchpadOp.Removes : ScratchpadOp → ViewId → Prop
  | .discard id, lost => lost = id
  | .removeLeaf id, lost => lost = id
  | _, _ => False

section

variable {tree rest : LayoutNode} {slot : ScratchpadSlot} {v view : View} {xs ys : List View} {id : ViewId}

theorem parts_unique {before behind : List View} {s : View} (distinct : ((xs ++ v :: ys).map (·.id)).Nodup)
    (same : s.id = v.id) (eq : before ++ s :: behind = xs ++ v :: ys) : before = xs ∧ s = v ∧ behind = ys := by
  induction xs generalizing before with
  | nil =>
    cases before with
    | nil =>
      obtain ⟨first, later⟩ := List.cons.inj eq
      exact ⟨rfl, first, later⟩
    | cons b more =>
      obtain ⟨-, later⟩ := List.cons.inj eq
      have inYs : s ∈ ys := later ▸ List.mem_append_right _ List.mem_cons_self
      rw [List.nil_append, List.map_cons, List.nodup_cons] at distinct
      exact absurd (List.mem_map.mpr ⟨s, inYs, same⟩) distinct.1
  | cons x xs ih =>
    rw [List.cons_append, List.map_cons, List.nodup_cons] at distinct
    cases before with
    | nil =>
      obtain ⟨first, -⟩ := List.cons.inj eq
      have here : v ∈ xs ++ v :: ys := List.mem_append_right _ List.mem_cons_self
      exact absurd (List.mem_map.mpr ⟨v, here, same.symm.trans (congrArg View.id first)⟩) distinct.1
    | cons b more =>
      obtain ⟨first, later⟩ := List.cons.inj eq
      obtain ⟨rfl, whole⟩ := ih distinct.2 later
      exact ⟨by rw [first], whole⟩

theorem docked_perm {sibling : ViewId} (inside : sibling ∈ tree.leafIds) (view : View) (after : Bool) :
    ∃ out, insertBeside sibling view .horizontal (.finite (1 / 2)) after tree = (out, true) ∧
      out.views.Perm (view :: tree.views) := by
  obtain ⟨out, before, s, behind, placed, -, views, views'⟩ :=
    @insertBeside_present tree sibling view .horizontal (.finite (1 / 2)) after inside
  refine ⟨out, placed, ?_⟩
  rw [views', views]
  exact Edit.neighbours_perm after s view before behind

namespace ScratchpadSlot

theorem restoreView_perm (tree : LayoutNode) (view : View) (anchor : Option ViewId) (after : Bool) :
    ∃ out, restoreView tree view anchor after = some out ∧ out.views.Perm (view :: tree.views) := by
  unfold restoreView
  rw [leafCount_eq]
  by_cases empty : tree.views.length = 0
  · rw [if_pos empty, List.eq_nil_of_length_eq_zero empty]
    exact ⟨.leaf view, rfl, .refl _⟩
  rw [if_neg empty]
  have beside : (∃ out, besideAnchor tree view anchor after = (out, true) ∧ out.views.Perm (view :: tree.views)) ∨
      besideAnchor tree view anchor after = (tree, false) := by
    unfold besideAnchor
    cases anchor with
    | none => exact .inr rfl
    | some a =>
      dsimp only
      split_ifs with inside
      · exact .inl (docked_perm inside view after)
      · exact .inr rfl
  rcases beside with ⟨out, placed, perm⟩ | missed
  · rw [placed]
    exact ⟨out, rfl, perm⟩
  · rw [missed]
    dsimp only
    cases shape : tree.leafIds with
    | nil =>
      have none := congrArg List.length shape
      rw [leafIds, List.length_map] at none
      exact absurd none empty
    | cons first later =>
      obtain ⟨out, placed, perm⟩ := docked_perm (by rw [shape]; exact List.mem_cons_self) view true
      dsimp only
      rw [placed]
      exact ⟨out, rfl, perm⟩

theorem anchorAt_eq : anchorAt ((xs ++ v :: ys).map (·.id)) xs.length =
    match ys with
    | y :: _ => (some y.id, false)
    | [] => (xs.getLast?.map (·.id), true) := by
  unfold anchorAt
  cases ys with
  | cons y behind => simp
  | nil =>
    rcases List.eq_nil_or_concat xs with rfl | ⟨before, x, rfl⟩
    · rfl
    · simp

/-- A leaf is hidden with the place it had, or nothing happens. -/
theorem hide_cases (distinct : tree.leafIds.Nodup) (slot : ScratchpadSlot) (id : ViewId) :
    (∃ e, slot.hide tree id = some (⟨tree, slot⟩, .error e)) ∨
      slot.hidden = none ∧ ∃ xs v ys rest, tree.views = xs ++ v :: ys ∧ v.id = id ∧ rest.views = xs ++ ys ∧
        slot.hide tree id = some (⟨rest, ⟨some ⟨{ v with presentation := .scratchpad },
          (anchorAt tree.leafIds xs.length).1, (anchorAt tree.leafIds xs.length).2⟩⟩⟩, .ok ()) := by
  unfold hide
  cases occupied : slot.hidden with
  | some entry => exact .inl ⟨_, rfl⟩
  | none =>
    rw [Option.isSome_none, if_neg Bool.false_ne_true]
    by_cases present : id ∈ tree.leafIds
    · obtain ⟨v, rest, removed, found, left⟩ := removeLeaf_present distinct present
      rw [findLeaf_eq, List.find?_eq_some_iff_append] at found
      obtain ⟨mine, xs, ys, parts, before⟩ := found
      have mine : v.id = id := by simpa using mine
      have place : tree.leafIds.findIdx? (· = id) = some xs.length := by
        rw [leafIds, parts, List.map_append, List.findIdx?_append, List.findIdx?_eq_none_iff.mpr]
        · rw [List.map_cons, List.findIdx?_cons, if_pos (by simpa using mine), List.length_map,
            Option.map_some, Nat.zero_add]
          rfl
        · intro a member
          obtain ⟨x, inXs, rfl⟩ := List.mem_map.mp member
          simpa using before x inXs
      refine .inr ⟨rfl, xs, v, ys, rest, parts, mine, ?_, ?_⟩
      · have apart : id ∉ ys.map (·.id) := by
          rw [leafIds, parts, List.map_append, List.map_cons] at distinct
          exact mine ▸ (List.nodup_cons.mp (List.nodup_append.mp distinct).2.1).1
        have front : id ∉ xs.map (·.id) := by
          rintro member
          obtain ⟨x, inXs, same⟩ := List.mem_map.mp member
          simpa [same] using before x inXs
        rw [left, parts, without_append, without_eq_self front]
        congr 1
        exact (List.filter_cons_of_neg (by simp [mine])).trans (without_eq_self apart)
      · rw [place]
        dsimp only
        rw [removed]
        rfl
    · have missed : tree.leafIds.findIdx? (· = id) = none := by
        rw [List.findIdx?_eq_none_iff]
        intro a member
        simpa using fun same : a = id => present (same ▸ member)
      rw [missed]
      exact .inl ⟨_, rfl⟩

theorem show_cases (slot : ScratchpadSlot) (tree : LayoutNode) :
    slot.hidden = none ∧ slot.show tree = some (⟨tree, slot⟩, .error .vacant) ∨
      ∃ entry out, slot.hidden = some entry ∧ out.views.Perm ({ entry.view with presentation := .tiled } :: tree.views) ∧
        slot.show tree = some (⟨out, ⟨none⟩⟩, .ok entry.view.id) := by
  unfold ScratchpadSlot.show
  cases parked : slot.hidden with
  | none => exact .inl ⟨rfl, rfl⟩
  | some entry =>
    obtain ⟨out, restored, perm⟩ := restoreView_perm tree { entry.view with presentation := .tiled } entry.anchor entry.after
    refine .inr ⟨entry, out, rfl, perm, ?_⟩
    change (restoreView tree { entry.view with presentation := .tiled } entry.anchor entry.after).map _ = _
    rw [restored]
    rfl

theorem restoreView_place (distinct : ((xs ++ v :: ys).map (·.id)).Nodup) (left : rest.views = xs ++ ys) :
    ∃ out, restoreView rest view (anchorAt ((xs ++ v :: ys).map (·.id)) xs.length).1
        (anchorAt ((xs ++ v :: ys).map (·.id)) xs.length).2 = some out ∧ out.views = xs ++ view :: ys := by
  have distinct' : ((xs ++ ys).map (·.id)).Nodup := distinct.sublist (by simp)
  -- The dock beside a leaf of the tree that was left.
  have dock {front behind : List View} {s : View} (after : Bool) (parts : xs ++ ys = front ++ s :: behind) :
      ∃ out, restoreView rest view (some s.id) after = some out ∧
        out.views = front ++ neighbours after s view ++ behind := by
    have inside : s.id ∈ rest.leafIds := by
      rw [leafIds, left, parts]
      exact List.mem_map.mpr ⟨s, List.mem_append_right _ List.mem_cons_self, rfl⟩
    obtain ⟨out, before, s', behind', placed, same, views, views'⟩ :=
      @insertBeside_present rest s.id view .horizontal (.finite (1 / 2)) after inside
    rw [left, parts] at views
    rw [parts] at distinct'
    obtain ⟨rfl, rfl, rfl⟩ := parts_unique distinct' same views.symm
    refine ⟨out, ?_, views'⟩
    unfold restoreView besideAnchor
    rw [leafCount_eq, if_neg (by rw [left, parts]; simp)]
    dsimp only
    rw [if_pos inside, placed]
  rw [anchorAt_eq]
  cases ys with
  | cons y behind =>
    obtain ⟨out, restored, views⟩ := dock false rfl
    exact ⟨out, restored, by simpa [neighbours] using views⟩
  | nil =>
    rcases List.eq_nil_or_concat xs with rfl | ⟨before, x, rfl⟩
    · refine ⟨.leaf view, ?_, rfl⟩
      unfold restoreView
      rw [leafCount_eq, left]
      rfl
    · obtain ⟨out, restored, views⟩ := @dock before [] x true (by simp)
      exact ⟨out, by simpa using restored, by simpa [neighbours] using views⟩

end ScratchpadSlot

end

namespace Workspace

variable {now next : Workspace} {answer : ScratchpadAnswer}

/-- What every call does: it neither panics nor loses a leaf but the one it hands out, and when it fails it changes nothing. -/
structure Kept (now : Workspace) (op : ScratchpadOp) (next : Workspace) (answer : ScratchpadAnswer) : Prop where
  panes : ((next.panes ++ answer.lost).map View.bare).Perm (now.panes.map View.bare)
  failed : ∀ e, answer = .failed e → next = now
  named : ∀ v ∈ answer.lost, op.Removes v.id

theorem Kept.same (op : ScratchpadOp) (e : ScratchpadError) : Kept now op now (.failed e) :=
  ⟨by rw [show (ScratchpadAnswer.failed e).lost = [] from rfl, List.append_nil], fun _ _ => rfl, nofun⟩

theorem Kept.of_perm {op : ScratchpadOp} (perm : (next.panes.map View.bare).Perm (now.panes.map View.bare)) :
    Kept now op next .done :=
  ⟨by rwa [show ScratchpadAnswer.done.lost = [] from rfl, List.append_nil], nofun, nofun⟩

theorem panes_of_hidden {entry : HiddenEntry} (parked : now.slot.hidden = some entry) :
    now.panes = now.tree.views ++ [entry.view] := by
  rw [panes, parked]
  rfl

theorem panes_of_vacant (vacant : now.slot.hidden = none) : now.panes = now.tree.views := by
  rw [panes, vacant]
  exact List.append_nil _

theorem hide_kept (distinct : now.tree.leafIds.Nodup) (op : ScratchpadOp) (id : ViewId) :
    ∃ next answer, (now.slot.hide now.tree id).map answered = some (next, answer) ∧ Kept now op next answer := by
  rcases now.slot.hide_cases distinct id with ⟨e, refused⟩ | ⟨vacant, xs, v, ys, rest, parts, mine, left, hidden⟩
  · rw [refused]
    exact ⟨now, .failed e, rfl, .same op e⟩
  · rw [hidden]
    refine ⟨_, .done, rfl, .of_perm ?_⟩
    rw [panes_of_vacant vacant, panes_of_hidden rfl, left, parts, List.map_append, List.map_append, List.map_append,
      List.map_cons, List.append_assoc]
    exact List.Perm.append_left _ (@List.perm_append_comm _ (ys.map View.bare) _)

theorem show_kept (now : Workspace) (op : ScratchpadOp) :
    ∃ next answer, (now.slot.show now.tree).map answered = some (next, answer) ∧ Kept now op next answer := by
  rcases now.slot.show_cases now.tree with ⟨vacant, refused⟩ | ⟨entry, out, parked, perm, shown⟩
  · rw [refused]
    exact ⟨now, .failed .vacant, rfl, .same op .vacant⟩
  · rw [shown]
    refine ⟨_, .done, rfl, .of_perm ?_⟩
    rw [panes_of_vacant rfl, panes_of_hidden parked, List.map_append]
    exact (perm.map View.bare).trans (@List.perm_append_comm _ [entry.view.bare] _)

theorem map_answered {α β : Type} (f : α → β) (out : Option (Outcome α)) :
    (out.map fun x => (x.1, x.2.map f)).map answered = out.map answered := by
  rcases out with _ | ⟨now, _ | a⟩ <;> rfl

theorem toggle_kept (distinct : now.tree.leafIds.Nodup) (op : ScratchpadOp) (target : Option ViewId) :
    ∃ next answer, (now.slot.toggle now.tree target).map answered = some (next, answer) ∧ Kept now op next answer := by
  unfold ScratchpadSlot.toggle
  split_ifs
  · rw [map_answered]
    exact now.show_kept op
  · cases target with
    | none => exact ⟨now, .failed .missingTarget, rfl, .same op _⟩
    | some id =>
      dsimp only
      rw [map_answered]
      exact hide_kept distinct op id

theorem discard_kept (now : Workspace) (id : ViewId) :
    Kept now (.discard id) ⟨now.tree, (now.slot.discard id).1⟩ (.taken (now.slot.discard id).2) := by
  unfold ScratchpadSlot.discard
  cases parked : now.slot.hidden with
  | none => exact ⟨by simp [ScratchpadAnswer.lost, panes], nofun, nofun⟩
  | some entry =>
    dsimp only
    split_ifs with mine
    · refine ⟨?_, nofun, fun v member => ?_⟩
      · rw [panes_of_hidden parked, panes_of_vacant rfl]
        rfl
      · obtain rfl := List.mem_singleton.mp member
        exact mine
    · exact ⟨by simp [ScratchpadAnswer.lost, panes], nofun, nofun⟩

theorem remove_kept (distinct : now.tree.leafIds.Nodup) (id : ViewId) :
    Kept now (.removeLeaf id) ⟨(LayoutNode.removeLeaf id now.tree).1, now.slot⟩
      (.taken (LayoutNode.removeLeaf id now.tree).2) := by
  by_cases present : id ∈ now.tree.leafIds
  · obtain ⟨v, rest, removed, found, left⟩ := removeLeaf_present distinct present
    have perm := Edit.perm_without distinct found
    rw [← left] at perm
    rw [removed]
    refine ⟨?_, nofun, fun w member => ?_⟩
    · simp only [ScratchpadAnswer.lost, Option.toList_some, panes]
      refine List.Perm.map _ ?_
      rw [List.append_assoc]
      exact ((List.perm_append_comm.append_left _).trans List.perm_middle).trans (perm.append_right _)
    · obtain rfl := List.mem_singleton.mp member
      rw [findLeaf_eq] at found
      have mine : w.id = id := by simpa using List.find?_some found
      exact mine
  · rw [removeLeaf_absent present]
    exact ⟨by simp [ScratchpadAnswer.lost, panes], nofun, nofun⟩

theorem step_kept (distinct : now.tree.leafIds.Nodup) (op : ScratchpadOp) :
    ∃ next answer, now.step op = some (next, answer) ∧ Kept now op next answer := by
  cases op with
  | hide id => exact hide_kept distinct _ id
  | «show» => exact now.show_kept _
  | toggle target => exact toggle_kept distinct _ target
  | command name target =>
    unfold step applyScratchpadToggle
    dsimp only
    split_ifs
    · exact ⟨now, .failed _, rfl, .same _ _⟩
    · exact toggle_kept distinct _ target
  | discard id => exact ⟨_, _, rfl, now.discard_kept id⟩
  | removeLeaf id => exact ⟨_, _, rfl, remove_kept distinct id⟩

theorem map_id_bare (views : List View) : (views.map View.bare).map (·.id) = views.map (·.id) := by
  rw [List.map_map]
  rfl

theorem Kept.distinct {op : ScratchpadOp} (kept : Kept now op next answer) (distinct : (now.panes.map (·.id)).Nodup) :
    (next.panes.map (·.id)).Nodup := by
  have perm := kept.panes.map (·.id)
  rw [map_id_bare, map_id_bare] at perm
  refine (perm.nodup_iff.mpr distinct).sublist ?_
  rw [List.map_append]
  exact List.sublist_append_left _ _

theorem distinct_tree (distinct : (now.panes.map (·.id)).Nodup) : now.tree.leafIds.Nodup := by
  refine distinct.sublist ?_
  rw [panes, List.map_append]
  exact List.sublist_append_left _ _

def handed (answers : List (ScratchpadOp × ScratchpadAnswer)) : List View := answers.flatMap fun x => x.2.lost

theorem run_kept (distinct : (now.panes.map (·.id)).Nodup) (ops : List ScratchpadOp) :
    ∃ last answers, now.run ops = some (last, answers) ∧ (last.panes.map (·.id)).Nodup ∧
      ((last.panes ++ handed answers).map View.bare).Perm (now.panes.map View.bare) ∧
      ∀ x ∈ answers, ∀ v ∈ x.2.lost, x.1.Removes v.id := by
  induction ops generalizing now with
  | nil => exact ⟨now, [], rfl, distinct, by simp [handed], nofun⟩
  | cons op ops ih =>
    obtain ⟨next, answer, ran, kept⟩ := step_kept (distinct_tree distinct) op
    obtain ⟨last, answers, rest, distinct', perm, named⟩ := ih (kept.distinct distinct)
    refine ⟨last, (op, answer) :: answers, ?_, distinct', ?_, ?_⟩
    · unfold run
      rw [ran]
      change (next.run ops).bind _ = _
      rw [rest]
      rfl
    · have whole : (last.panes ++ handed ((op, answer) :: answers)).Perm (last.panes ++ handed answers ++ answer.lost) := by
        rw [List.append_assoc]
        exact List.perm_append_comm.append_left _
      refine (whole.map View.bare).trans ?_
      rw [List.map_append]
      refine (perm.append_right _).trans ?_
      rw [← List.map_append]
      exact kept.panes
    · intro x member
      rcases List.mem_cons.mp member with rfl | later
      · exact kept.named
      · exact named x later

def tiled (id : ViewId) (v : View) : View := if v.id = id then { v with presentation := .tiled } else v

theorem show_of_hide (distinct : now.tree.leafIds.Nodup) {id : ViewId} (ran : now.step (.hide id) = some (next, .done)) :
    ∃ shown, next.step .show = some (shown, .done) ∧ shown.slot = .new ∧
      shown.tree.views = now.tree.views.map (tiled id) := by
  change (now.slot.hide now.tree id).map answered = _ at ran
  rcases now.slot.hide_cases distinct id with ⟨e, refused⟩ | ⟨-, xs, v, ys, rest, parts, rfl, left, hidden⟩
  · rw [refused] at ran
    cases ran
  · rw [hidden] at ran
    obtain ⟨rfl, -⟩ := Prod.mk.inj (Option.some.inj ran)
    have distinct' : ((xs ++ v :: ys).map (·.id)).Nodup := parts ▸ distinct
    obtain ⟨out, restored, views⟩ :=
      @ScratchpadSlot.restoreView_place rest v { v with presentation := .tiled } xs ys distinct' left
    have ids : now.tree.leafIds = (xs ++ v :: ys).map (·.id) := by rw [leafIds, parts]
    refine ⟨⟨out, .new⟩, ?_, rfl, ?_⟩
    · change ((ScratchpadSlot.restoreView rest { v with presentation := .tiled }
        (ScratchpadSlot.anchorAt now.tree.leafIds xs.length).1
        (ScratchpadSlot.anchorAt now.tree.leafIds xs.length).2).map _).map answered = _
      rw [ids, restored]
      rfl
    · have others (l : List View) (apart : v.id ∉ l.map (·.id)) : l.map (tiled v.id) = l := by
        refine List.map_congr_left (fun w member => if_neg fun same => ?_) |>.trans (List.map_id l)
        exact apart (List.mem_map.mpr ⟨w, member, same⟩)
      rw [List.map_append, List.map_cons, List.nodup_append] at distinct'
      have front : v.id ∉ xs.map (·.id) := fun member => distinct'.2.2 _ member _ List.mem_cons_self rfl
      rw [views, parts, List.map_append, List.map_cons, others xs front,
        others ys (List.nodup_cons.mp distinct'.2.1).1]
      congr 2
      exact (if_pos rfl).symm

/-- No run panics or loses a leaf: the leaves of the tree and the parked one change by the removals alone, but for their
modes. In what a run leaves, a call that fails changes nothing, and a leaf that is hidden comes back to its place. -/
theorem scratchpad_keeps {tree : LayoutNode} (distinct : tree.leafIds.Nodup) (ops : List ScratchpadOp) :
    ∃ now answers, run ⟨tree, .new⟩ ops = some (now, answers) ∧
      (((now.panes ++ handed answers).map View.bare).Perm (tree.views.map View.bare) ∧
        ∀ x ∈ answers, ∀ v ∈ x.2.lost, x.1.Removes v.id) ∧
      (∀ op, ∃ next answer, now.step op = some (next, answer) ∧ ∀ e, answer = .failed e → next = now) ∧
      ∀ id next, now.step (.hide id) = some (next, .done) → ∃ shown, next.step .show = some (shown, .done) ∧
        shown.slot = .new ∧ shown.tree.views = now.tree.views.map (tiled id) := by
  have start : panes ⟨tree, .new⟩ = tree.views := panes_of_vacant rfl
  obtain ⟨now, answers, ran, distinct', perm, named⟩ := @run_kept ⟨tree, .new⟩ (by rw [start]; exact distinct) ops
  rw [start] at perm
  refine ⟨now, answers, ran, ⟨perm, named⟩, fun op => ?_, fun id next => show_of_hide (distinct_tree distinct')⟩
  obtain ⟨next, answer, stepped, kept⟩ := step_kept (distinct_tree distinct') op
  exact ⟨next, answer, stepped, kept.failed⟩

def floated : LayoutNode := .overlay (.leaf (.new 1 40 24)) (.leaf (.new 2 10 5)) ⟨10, 5, 20, 10⟩ .float

theorem scratchpad_keeps_floated :
    ∃ now answers, run ⟨floated, .new⟩ [.hide 1, .removeLeaf 2] = some (now, answers) ∧
      ((now.panes ++ handed answers).map View.bare).Perm (floated.views.map View.bare) := by
  obtain ⟨now, answers, ran, ⟨perm, -⟩, -⟩ := @scratchpad_keeps floated (by decide) [.hide 1, .removeLeaf 2]
  exact ⟨now, answers, ran, perm⟩

end Workspace

end Bitty.Ui
