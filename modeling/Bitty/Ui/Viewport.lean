import Bitty.Term.Buffer.Rowwise
import Bitty.Ui.Selection

/-! The window of a view on the scrollback and the screen, and the line that keeps it in place. -/

namespace Bitty.Ui

open Bitty.Term PersistentSelection

namespace View

variable {width height : Nat} (view : View) (s : State width height)

def clampScrollOffset (maxScrollback : Nat) : View :=
  let view := if maxScrollback < view.scrollOffset then { view with scrollOffset := maxScrollback } else view
  if view.scrollOffset = 0 then { view with scrollAnchor := none } else view

def captureScrollAnchor : View :=
  if view.scrollOffset = 0 then { view with scrollAnchor := none }
  else
    let start := s.scrollbackLen + height - view.rows - view.scrollOffset
    match if start < s.scrollbackLen then s.scrollbackLine start else none with
    | none => { view with scrollAnchor := none }
    | some line => { view with scrollAnchor := some ⟨line.id, view.scrollOffset⟩ }

def lineIndex (id : Nat) : Option Nat := s.scrollback.lines.findIdx? (·.id = id)

def restoreScrollAnchorPosition (scrollbackLen stateHeight : Nat) (lineIndex : Option Nat) : View :=
  match view.scrollAnchor with
  | none => view.clampScrollOffset scrollbackLen
  | some anchor =>
    match lineIndex with
    | none => { view with scrollOffset := min anchor.fallbackOffset scrollbackLen, scrollAnchor := none }
    | some index =>
      let desired := scrollbackLen + stateHeight - view.rows - index
      let view := { view with scrollOffset := min desired scrollbackLen }
      if view.scrollOffset = 0 then { view with scrollAnchor := none } else view

def restoreScrollAnchor : View :=
  let index := view.scrollAnchor.bind fun anchor => lineIndex s anchor.lineId
  view.restoreScrollAnchorPosition s.scrollbackLen height index

def visibleStart : Nat := (view.scrollAnchor.bind fun anchor => lineIndex s anchor.lineId).getD (viewStart view s)

def historyCell (cells : List Cell) (c : Nat) : Cell := (cells[view.colOffset + c]?).getD Cell.erased

/-- The cell of a screen row at a column of the window, which shows no half of a wide cell alone at an edge. -/
def screenCell (cells : List Cell) (c : Nat) : Cell :=
  match cells[view.colOffset + c]? with
  | none => Cell.erased
  | some cell =>
    let cloned := if c + 1 = view.cols ∧ cell.width = 2 ∧ cell.spacer = false then { cell with width := 1 } else cell
    if cloned.spacer = true ∧ c = 0 then Cell.erased else cloned

def visibleRow (r : Nat) : List Cell :=
  let combined := view.visibleStart s + r
  (List.range view.cols).map fun c =>
    if combined < s.scrollbackLen then ((s.scrollbackLine combined).map (·.cells)).elim Cell.erased (view.historyCell · c)
    else if inside : combined - s.scrollbackLen < height then
      view.screenCell (s.screensActive ⟨combined - s.scrollbackLen, inside⟩).cells.toList c
    else Cell.erased

def visibleCells : List Cell := (List.range view.rows).flatMap (view.visibleRow s)

end View

inductive Event (width height : Nat)
  | act (action : Action width height)
  | restore

namespace Event

variable {width height : Nat}

def apply (now : State width height × View) : Event width height → State width height × View
  | act action => (now.1.perform action, now.2)
  | restore => (now.1, now.2.restoreScrollAnchor now.1)

def run (now : State width height × View) (events : List (Event width height)) : State width height × View :=
  events.foldl apply now

end Event

namespace View

variable {width height : Nat} {view : View} {s : State width height} {index id : Nat} {line : ScrollbackLine}

theorem lineIndex_of_line (here : s.scrollbackLine index = some line) : lineIndex s line.id = some index :=
  Scrollback.findIdx?_id here

theorem lineIndex_of_gone (gone : ∀ line ∈ s.scrollback.lines, line.id ≠ id) : lineIndex s id = none :=
  Scrollback.findIdx?_id_none gone

theorem captureScrollAnchor_eq (rows : view.rows = height) (away : view.scrollOffset ≠ 0) (some : 0 < s.scrollbackLen) :
    ∃ line, s.scrollbackLine (viewStart view s) = .some line ∧
      view.captureScrollAnchor s = { view with scrollAnchor := .some ⟨line.id, view.scrollOffset⟩ } := by
  have start : s.scrollbackLen + height - view.rows - view.scrollOffset = viewStart view s := by
    unfold viewStart
    omega
  have inside : viewStart view s < s.scrollbackLen := by
    unfold viewStart
    omega
  have found : s.scrollbackLine (viewStart view s) = .some s.scrollback.lines[viewStart view s] :=
    List.getElem?_eq_getElem inside
  refine ⟨_, found, ?_⟩
  unfold captureScrollAnchor
  rw [if_neg away]
  simp only [start, if_pos inside, found]

theorem captureScrollAnchor_empty (empty : s.scrollbackLen = 0) :
    view.captureScrollAnchor s = { view with scrollAnchor := none } := by
  unfold captureScrollAnchor
  split_ifs with live
  · rfl
  · simp [empty]

theorem restoreScrollAnchor_found {fallback : Nat} (rows : view.rows = height)
    (anchored : view.scrollAnchor = some ⟨line.id, fallback⟩) (here : s.scrollbackLine index = some line) :
    view.restoreScrollAnchor s = { view with scrollOffset := s.scrollbackLen - index } ∧
      viewStart (view.restoreScrollAnchor s) s = index ∧ (view.restoreScrollAnchor s).visibleStart s = index := by
  have inside : index < s.scrollbackLen := (List.getElem?_eq_some_iff.mp here).1
  have found := lineIndex_of_line here
  have restored : view.restoreScrollAnchor s = { view with scrollOffset := s.scrollbackLen - index } := by
    have desired : min (s.scrollbackLen + height - view.rows - index) s.scrollbackLen = s.scrollbackLen - index := by omega
    have detached : s.scrollbackLen - index ≠ 0 := by omega
    simp only [restoreScrollAnchor, anchored, Option.bind_some, found, restoreScrollAnchorPosition, desired, if_neg detached]
  rw [restored]
  refine ⟨rfl, ?_, ?_⟩
  · simp only [viewStart, rows]
    omega
  · simp only [visibleStart, anchored, Option.bind_some, found, Option.getD_some]

theorem restoreScrollAnchor_gone {fallback : Nat} (anchored : view.scrollAnchor = some ⟨id, fallback⟩)
    (gone : ∀ line ∈ s.scrollback.lines, line.id ≠ id) :
    view.restoreScrollAnchor s = { view with scrollOffset := min fallback s.scrollbackLen, scrollAnchor := none } := by
  simp only [restoreScrollAnchor, anchored, Option.bind_some, lineIndex_of_gone gone, restoreScrollAnchorPosition]

theorem restoreScrollAnchor_none (anchorless : view.scrollAnchor = none) :
    view.restoreScrollAnchor s = { view with scrollOffset := min view.scrollOffset s.scrollbackLen } := by
  simp only [restoreScrollAnchor, anchorless, restoreScrollAnchorPosition, clampScrollOffset]
  by_cases beyond : s.scrollbackLen < view.scrollOffset
  · have least : min view.scrollOffset s.scrollbackLen = s.scrollbackLen := by omega
    simp only [if_pos beyond, least, ← anchorless, ite_self]
  · have least : min view.scrollOffset s.scrollbackLen = view.scrollOffset := by omega
    simp only [if_neg beyond, least, ← anchorless, ite_self]

/-- A line that was captured with an offset, as long as a run goes on: the scrollback goes on from the one of then, and the
view keeps the line or has found it gone. -/
structure Tracks (line : ScrollbackLine) (s : State width height) (captured : View) (now : State width height × View) :
    Prop where
  grows : s.scrollback.Grows now.1.scrollback
  known : line.id < s.scrollback.nextId
  frame : now.2 = { captured with scrollOffset := now.2.scrollOffset, scrollAnchor := now.2.scrollAnchor }
  anchor : now.2.scrollAnchor = some ⟨line.id, captured.scrollOffset⟩ ∨
    now.2.scrollAnchor = none ∧ now.2.scrollOffset ≤ captured.scrollOffset ∧
      ∀ kept ∈ now.1.scrollback.lines, kept.id ≠ line.id

variable {captured : View} {now : State width height × View}

theorem Tracks.fresh (tracks : Tracks line s captured now) : line.id < now.1.scrollback.nextId :=
  Nat.lt_of_lt_of_le tracks.known tracks.grows.1

theorem Tracks.rows (tracks : Tracks line s captured now) : now.2.rows = captured.rows := by rw [tracks.frame]

theorem retained_or_gone (s : State width height) (id : Nat) :
    (∃ kept ∈ s.scrollback.lines, kept.id = id) ∨ ∀ kept ∈ s.scrollback.lines, kept.id ≠ id := by
  by_cases retained : ∃ kept ∈ s.scrollback.lines, kept.id = id
  · exact .inl retained
  · exact .inr fun kept member same => retained ⟨kept, member, same⟩

theorem Tracks.found (tracks : Tracks line s captured now) (rows : captured.rows = height)
    (here : s.scrollbackLine index = some line) (retained : ∃ kept ∈ now.1.scrollback.lines, kept.id = line.id) :
    ∃ j, now.1.scrollbackLine j = some line ∧
      (∀ r, index + r < s.scrollbackLen → now.1.scrollbackLine (j + r) = s.scrollbackLine (index + r)) ∧
      now.2.restoreScrollAnchor now.1 = { now.2 with scrollOffset := now.1.scrollbackLen - j } ∧
      viewStart (now.2.restoreScrollAnchor now.1) now.1 = j ∧ (now.2.restoreScrollAnchor now.1).visibleStart now.1 = j := by
  obtain ⟨j, there, followers⟩ := tracks.grows.kept here retained
  rcases tracks.anchor with anchored | ⟨_, _, gone⟩
  · have restored := restoreScrollAnchor_found (tracks.rows.trans rows) anchored there
    exact ⟨j, there, followers, restored⟩
  · obtain ⟨kept, member, same⟩ := retained
    exact absurd same (gone kept member)

theorem Tracks.lost (tracks : Tracks line s captured now) (gone : ∀ kept ∈ now.1.scrollback.lines, kept.id ≠ line.id) :
    now.2.restoreScrollAnchor now.1 = { now.2 with
      scrollOffset := min (if now.2.scrollAnchor = none then now.2.scrollOffset else captured.scrollOffset)
        now.1.scrollbackLen
      scrollAnchor := none } := by
  rcases tracks.anchor with anchored | ⟨anchorless, _, _⟩
  · rw [restoreScrollAnchor_gone anchored gone, anchored]
    rfl
  · rw [restoreScrollAnchor_none anchorless, if_pos anchorless, ← anchorless]

theorem Tracks.step (tracks : Tracks line s captured now) (rows : captured.rows = height)
    (here : s.scrollbackLine index = some line) (event : Event width height) :
    Tracks line s captured (Event.apply now event) := by
  cases event with
  | act action =>
    have onward := Scrollback.Grows.perform now.1 action
    refine ⟨tracks.grows.trans onward, tracks.known, tracks.frame, ?_⟩
    rcases tracks.anchor with anchored | ⟨anchorless, bound, gone⟩
    · exact .inl anchored
    · exact .inr ⟨anchorless, bound, onward.gone tracks.fresh gone⟩
  | restore =>
    rcases retained_or_gone now.1 line.id with retained | gone
    · obtain ⟨j, _, _, restored, _⟩ := tracks.found rows here retained
      refine ⟨tracks.grows, tracks.known, ?_, ?_⟩
      · simp only [Event.apply, restored]
        rw [tracks.frame]
      · rcases tracks.anchor with anchored | ⟨_, _, gone⟩
        · simp only [Event.apply, restored]
          exact .inl anchored
        · obtain ⟨kept, member, same⟩ := retained
          exact absurd same (gone kept member)
    · have restored := tracks.lost gone
      refine ⟨tracks.grows, tracks.known, ?_, .inr ?_⟩
      · simp only [Event.apply, restored]
        rw [tracks.frame]
      · simp only [Event.apply, restored]
        refine ⟨trivial, ?_, gone⟩
        rcases tracks.anchor with anchored | ⟨anchorless, bound, _⟩
        · rw [anchored, if_neg (by simp)]
          omega
        · rw [if_pos anchorless]
          omega

theorem Tracks.run (tracks : Tracks line s captured now) (rows : captured.rows = height)
    (here : s.scrollbackLine index = some line) (events : List (Event width height)) :
    Tracks line s captured (Event.run now events) := by
  induction events generalizing now with
  | nil => exact tracks
  | cons event rest ih => exact ih (tracks.step rows here event)

theorem restoreScrollAnchor_idem (view : View) (s : State width height) (rows : view.rows = height) :
    (view.restoreScrollAnchor s).restoreScrollAnchor s = view.restoreScrollAnchor s := by
  cases anchor : view.scrollAnchor with
  | none =>
    have first := restoreScrollAnchor_none (s := s) anchor
    have still : (view.restoreScrollAnchor s).scrollAnchor = none := by
      rw [first]
      exact anchor
    rw [restoreScrollAnchor_none still, first]
    simp only [Nat.min_assoc, Nat.min_self]
  | some captured =>
    rcases retained_or_gone s captured.lineId with ⟨kept, member, same⟩ | gone
    · obtain ⟨j, here⟩ := List.mem_iff_getElem?.mp member
      have anchored : view.scrollAnchor = some ⟨kept.id, captured.fallbackOffset⟩ := by rw [anchor, same]
      obtain ⟨first, _, _⟩ := restoreScrollAnchor_found (s := s) rows anchored here
      have rowsAgain : ({ view with scrollOffset := s.scrollbackLen - j } : View).rows = height := rows
      rw [first]
      exact (restoreScrollAnchor_found (s := s) rowsAgain anchored here).1
    · have anchored : view.scrollAnchor = some ⟨captured.lineId, captured.fallbackOffset⟩ := anchor
      have first := restoreScrollAnchor_gone (s := s) anchored gone
      have still : (view.restoreScrollAnchor s).scrollAnchor = none := by rw [first]
      rw [restoreScrollAnchor_none still, first]
      simp only [Nat.min_assoc, Nat.min_self]

theorem anchorless_run (anchorless : now.2.scrollAnchor = none) (events : List (Event width height)) :
    (Event.run now events).2.scrollAnchor = none := by
  induction events generalizing now with
  | nil => exact anchorless
  | cons event rest ih =>
    cases event with
    | act action => exact ih anchorless
    | restore =>
      refine ih ?_
      simp only [Event.apply, restoreScrollAnchor_none anchorless]
      exact anchorless

theorem rows_captureScrollAnchor (view : View) (s : State width height) :
    (view.captureScrollAnchor s).rows = view.rows := by
  unfold captureScrollAnchor
  split
  · rfl
  · dsimp only
    split <;> rfl

theorem rows_restoreScrollAnchor (view : View) (s : State width height) :
    (view.restoreScrollAnchor s).rows = view.rows := by
  cases anchor : view.scrollAnchor with
  | none => rw [restoreScrollAnchor_none anchor]
  | some captured =>
    simp only [restoreScrollAnchor, anchor, restoreScrollAnchorPosition]
    split
    · rfl
    · split <;> rfl

theorem rows_run (now : State width height × View) (events : List (Event width height)) :
    (Event.run now events).2.rows = now.2.rows := by
  induction events generalizing now with
  | nil => rfl
  | cons event rest ih =>
    cases event with
    | act action => exact ih _
    | restore => exact (ih _).trans (rows_restoreScrollAnchor _ _)

theorem visibleRow_kept {later : View} {t : State width height} {i j r : Nat} (start : captured.visibleStart s = i)
    (start' : later.visibleStart t = j) (inHistory : i + r < s.scrollbackLen)
    (same : t.scrollbackLine (j + r) = s.scrollbackLine (i + r)) (cols : later.cols = captured.cols)
    (colOffset : later.colOffset = captured.colOffset) : later.visibleRow t r = captured.visibleRow s r := by
  have still : j + r < t.scrollbackLen := by
    have found : s.scrollbackLine (i + r) = some _ := List.getElem?_eq_getElem inHistory
    rw [found] at same
    exact (List.getElem?_eq_some_iff.mp same).1
  unfold visibleRow
  simp only [start, start', if_pos still, if_pos inHistory, same, cols, historyCell, colOffset]

/-- A detached view stays on its text: as long as the line at its top is retained a restore puts the window there, with the
same lines below it; when the line is gone the offset is kept within the scrollback. -/
theorem detached_stays {view : View} {s : State width height} (rows : view.rows = height) (away : view.scrollOffset ≠ 0)
    (events : List (Event width height)) :
    let captured := view.captureScrollAnchor s
    let now := Event.run (s, captured) events
    let restored := now.2.restoreScrollAnchor now.1
    (0 < s.scrollbackLen → ∃ line, s.scrollbackLine (captured.visibleStart s) = some line ∧
      viewStart captured s = captured.visibleStart s ∧
      ((∃ kept ∈ now.1.scrollback.lines, kept.id = line.id) →
        now.1.scrollbackLine (restored.visibleStart now.1) = some line ∧
        viewStart restored now.1 = restored.visibleStart now.1 ∧
        ∀ r, captured.visibleStart s + r < s.scrollbackLen → restored.visibleRow now.1 r = captured.visibleRow s r) ∧
      ((∀ kept ∈ now.1.scrollback.lines, kept.id ≠ line.id) → restored.scrollAnchor = none ∧
        restored.scrollOffset = min (if now.2.scrollAnchor = none then now.2.scrollOffset else view.scrollOffset)
          now.1.scrollbackLen)) ∧
    (s.scrollbackLen = 0 → restored.scrollAnchor = none ∧
      restored.scrollOffset = min now.2.scrollOffset now.1.scrollbackLen) ∧
    restored.restoreScrollAnchor now.1 = restored := by
  dsimp only
  refine ⟨fun some => ?_, fun empty => ?_, ?_⟩
  · obtain ⟨line, here, captured⟩ := captureScrollAnchor_eq rows away some
    have known := s.scrollback.fresh line (List.mem_of_getElem? here)
    have start : (view.captureScrollAnchor s).visibleStart s = viewStart view s := by
      rw [captured]
      simp only [visibleStart, Option.bind_some, lineIndex_of_line here, Option.getD_some]
    have sameStart : viewStart (view.captureScrollAnchor s) s = viewStart view s := by
      rw [captured]
      rfl
    have rowsCaptured : (view.captureScrollAnchor s).rows = height := by
      rw [captured]
      exact rows
    have begins : Tracks line s (view.captureScrollAnchor s) (s, view.captureScrollAnchor s) := by
      refine ⟨Scrollback.Grows.refl _, known, rfl, .inl ?_⟩
      rw [captured]
    have tracks := begins.run rowsCaptured here events
    rw [start, sameStart]
    refine ⟨line, here, rfl, fun retained => ?_, fun gone => ?_⟩
    · obtain ⟨j, there, followers, restored, offsetStart, anchorStart⟩ := tracks.found rowsCaptured here retained
      rw [anchorStart, offsetStart]
      refine ⟨there, rfl, fun r inHistory => ?_⟩
      refine visibleRow_kept start anchorStart inHistory (followers r inHistory) ?_ ?_
      · rw [restored, tracks.frame]
      · rw [restored, tracks.frame]
    · have offset : (view.captureScrollAnchor s).scrollOffset = view.scrollOffset := by rw [captured]
      rw [tracks.lost gone, offset]
      exact ⟨rfl, rfl⟩
  · have anchorless : (view.captureScrollAnchor s).scrollAnchor = none := by rw [captureScrollAnchor_empty empty]
    have still := @anchorless_run _ _ (s, view.captureScrollAnchor s) anchorless events
    rw [restoreScrollAnchor_none still]
    exact ⟨still, rfl⟩
  · refine restoreScrollAnchor_idem _ _ ?_
    rw [rows_run, rows_captureScrollAnchor]
    exact rows

def threeLines : State 1 1 :=
  let screen : State 1 1 := ⟨fun _ => Row.blank 1, fun _ => Row.blank 1, false, .withMaxLines 4, 0, 0⟩
  ((screen.perform (.scrollUpRegion 1)).perform (.scrollUpRegion 1)).perform (.scrollUpRegion 1)

def secondLine : View := { View.new 1 1 1 with scrollOffset := 2 }

theorem detached_stays_second :
    let events := [.act (.scrollUpRegion 1), .restore, .act (.scrollUpRegion 1)]
    let now := Event.run (threeLines, secondLine.captureScrollAnchor threeLines) events
    let restored := now.2.restoreScrollAnchor now.1
    (∃ line, threeLines.scrollbackLine ((secondLine.captureScrollAnchor threeLines).visibleStart threeLines) = some line ∧
      ((∃ kept ∈ now.1.scrollback.lines, kept.id = line.id) →
        now.1.scrollbackLine (restored.visibleStart now.1) = some line)) ∧
      restored.restoreScrollAnchor now.1 = restored := by
  have stays := detached_stays (s := threeLines) (by decide : secondLine.rows = 1) (by decide)
    [.act (.scrollUpRegion 1), .restore, .act (.scrollUpRegion 1)]
  obtain ⟨line, here, _, found, _⟩ := stays.1 (by decide)
  exact ⟨⟨line, here, fun retained => (found retained).1⟩, stays.2.2⟩

end View

end Bitty.Ui
