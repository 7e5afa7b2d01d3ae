import Bitty.Term.Buffer.State
import Bitty.Ui.Tree

/-! A selection that is anchored to the scrollback followed by the screen. -/

namespace Bitty.Ui

open Bitty.Term

structure CellPos where
  row : Nat
  col : Nat
  deriving DecidableEq

inductive SelectionKind
  | simple
  | word
  | line
  | block
  deriving DecidableEq

structure Selection where
  anchor : CellPos
  focus : CellPos
  kind : SelectionKind
  active : Bool
  deriving DecidableEq

structure BufferPos where
  bufferRow : Nat
  col : Nat

structure PersistentSelection where
  anchor : BufferPos
  anchorLineId : Option Nat
  focus : BufferPos
  focusLineId : Option Nat
  kind : SelectionKind
  active : Bool

/-- The text of the cells in a span of that many columns; a wide cell takes the next one along. -/
def spanText : List Cell → Nat → Bool → Text
  | [], _, _ => []
  | _ :: _, 0, _ => []
  | _ :: rest, span + 1, true => spanText rest span false
  | cell :: rest, span + 1, false =>
    if cell.spacer then spanText rest span false else cell.text ++ spanText rest span (cell.width = 2)

/-- The text between two columns of a row; a span that reaches the edge loses its trailing blanks. -/
def lineText (cells : List Cell) (colStart colEnd : Nat) : Text :=
  let line := spanText (cells.drop colStart) (colEnd + 1 - colStart) false
  if cells.length - 1 ≤ colEnd then line.rdropWhile (· = ' ') else line

namespace PersistentSelection

variable {width height : Nat} (p : PersistentSelection) (s : State width height)

def fromGridSelection (sel : Selection) (s : State width height) : PersistentSelection where
  anchor := ⟨s.scrollbackLen + sel.anchor.row, sel.anchor.col⟩
  anchorLineId := none
  focus := ⟨s.scrollbackLen + sel.focus.row, sel.focus.col⟩
  focusLineId := none
  kind := sel.kind
  active := sel.active

def viewStart (view : View) (s : State width height) : Nat :=
  s.scrollbackLen + height - view.rows - min view.scrollOffset s.scrollbackLen

def lineIdAt (s : State width height) (row : Nat) : Option Nat :=
  if row < s.scrollbackLen then (s.scrollbackLine row).map (·.id) else none

def fromViewSelection (sel : Selection) (view : View) (s : State width height) : PersistentSelection where
  anchor := ⟨viewStart view s + sel.anchor.row, sel.anchor.col⟩
  anchorLineId := lineIdAt s (viewStart view s + sel.anchor.row)
  focus := ⟨viewStart view s + sel.focus.row, sel.focus.col⟩
  focusLineId := lineIdAt s (viewStart view s + sel.focus.row)
  kind := sel.kind
  active := sel.active

def checkEndpoint (s : State width height) (bp : BufferPos) (lineId : Option Nat) : Bool :=
  if s.scrollbackLen + height ≤ bp.bufferRow then false
  else match lineId with
    | none => true
    | some id =>
      if s.scrollbackLen ≤ bp.bufferRow then false
      else match s.scrollbackLine bp.bufferRow with
        | some line => line.id = id
        | none => false

def isValid : Bool := checkEndpoint s p.anchor p.anchorLineId && checkEndpoint s p.focus p.focusLineId

def resolve (s : State width height) (bp : BufferPos) : Option Nat → Option BufferPos
  | none => some bp
  | some id =>
    match s.scrollbackLine bp.bufferRow with
    | none => none
    | some line =>
      if line.id ≠ id then none
      else if s.scrollback.lines.findIdx? (·.id = id) = some bp.bufferRow then some bp
      else none

def before (a b : BufferPos) : Bool := a.bufferRow < b.bufferRow || (a.bufferRow = b.bufferRow && a.col ≤ b.col)

def orderedBufferEndpoints : Option (BufferPos × BufferPos) :=
  if p.isValid s then do
    let anchor ← resolve s p.anchor p.anchorLineId
    let focus ← resolve s p.focus p.focusLineId
    some (if before anchor focus then (anchor, focus) else (focus, anchor))
  else none

/-- The rows between two indices, joined by line breaks; a row that does not exist is left out. -/
def joinRows (s : State width height) (start stop : Nat) (text : Nat → List Cell → Text) : Text :=
  (List.range' start (stop + 1 - start)).flatMap fun row =>
    match s.bufferRow row with
    | none => []
    | some cells => text row cells ++ if row = stop then [] else ['\n']

def blockText : Option Text := do
  let (first, last) ← p.orderedBufferEndpoints s
  let colMin := min first.col last.col
  let colMax := max first.col last.col
  some (joinRows s first.bufferRow last.bufferRow fun _ cells => spanText (cells.drop colMin) (colMax + 1 - colMin) false)

def text : Option Text :=
  if p.kind = .block then p.blockText s
  else do
    let (first, last) ← p.orderedBufferEndpoints s
    some (joinRows s first.bufferRow last.bufferRow fun row cells =>
      lineText cells (if row = first.bufferRow then first.col else 0)
        (if row = last.bufferRow then last.col else cells.length - 1))

def Selects (i : Nat) : Prop := min p.anchor.bufferRow p.focus.bufferRow ≤ i ∧ i ≤ max p.anchor.bufferRow p.focus.bufferRow

inductive Lifted (s : State width height) : PersistentSelection → Prop
  | grid (sel : Selection) (anchor : sel.anchor.row < height) (focus : sel.focus.row < height) :
      Lifted s (fromGridSelection sel s)
  | view (sel : Selection) (view : View) (fits : view.rows ≤ s.scrollbackLen + height)
      (anchor : sel.anchor.row < view.rows) (focus : sel.focus.row < view.rows) :
      Lifted s (fromViewSelection sel view s)

end PersistentSelection

end Bitty.Ui

/-! Positions on a screen that is shown, moved off the second halves of its wide cells. -/

namespace Bitty.Ui

open Bitty.Term

attribute [ext] CellPos

def CellPos.before (a b : CellPos) : Bool := a.row < b.row || (a.row = b.row && a.col ≤ b.col)

structure SelectionRange where
  start : CellPos
  stop : CellPos

namespace SelectionRange

def new (a b : CellPos) : SelectionRange := if a.before b then ⟨a, b⟩ else ⟨b, a⟩

def contains (range : SelectionRange) (pos : CellPos) : Bool :=
  if pos.row < range.start.row || range.stop.row < pos.row then false
  else if pos.row = range.start.row && pos.row = range.stop.row then
    range.start.col ≤ pos.col && pos.col ≤ range.stop.col
  else if pos.row = range.start.row then range.start.col ≤ pos.col
  else if pos.row = range.stop.row then pos.col ≤ range.stop.col
  else true

theorem new_of_le {row a b : Nat} (le : a ≤ b) : new ⟨row, a⟩ ⟨row, b⟩ = ⟨⟨row, a⟩, ⟨row, b⟩⟩ := by
  simp [new, CellPos.before, le]

theorem contains_iff {range : SelectionRange} {pos : CellPos} :
    range.contains pos ↔ (range.start.row ≤ pos.row ∧ pos.row ≤ range.stop.row) ∧
      (pos.row = range.start.row → range.start.col ≤ pos.col) ∧ (pos.row = range.stop.row → pos.col ≤ range.stop.col) := by
  unfold contains
  grind

theorem new_rows (a b : CellPos) : (new a b).start.row = min a.row b.row ∧ (new a b).stop.row = max a.row b.row := by
  unfold new CellPos.before
  grind

theorem new_ends (a b : CellPos) :
    (new a b).start = a ∧ (new a b).stop = b ∨ (new a b).start = b ∧ (new a b).stop = a := by
  unfold new
  split_ifs
  · exact .inl ⟨rfl, rfl⟩
  · exact .inr ⟨rfl, rfl⟩

theorem contains_row {row a b : Nat} {pos : CellPos} :
    contains ⟨⟨row, a⟩, ⟨row, b⟩⟩ pos ↔ pos.row = row ∧ a ≤ pos.col ∧ pos.col ≤ b := by
  rw [contains_iff]
  grind

end SelectionRange

def cellAt (snap : Snapshot) (pos : CellPos) : Option Cell :=
  if snap.height ≤ pos.row || snap.width ≤ pos.col then none else snap.cells[pos.row * snap.width + pos.col]?

def clampPos (snap : Snapshot) (pos : CellPos) : CellPos := ⟨min pos.row (snap.height - 1), min pos.col (snap.width - 1)⟩

def snapToLeading (snap : Snapshot) (pos : CellPos) : CellPos :=
  if snap.width = 0 || snap.height = 0 then pos
  else
    let row := min pos.row (snap.height - 1)
    let col := min pos.col (snap.width - 1)
    match snap.cells[row * snap.width + col]? with
    | some cell => if cell.spacer && 0 < col then ⟨pos.row, col - 1⟩ else pos
    | none => pos

theorem snapToLeading_col_le (snap : Snapshot) (pos : CellPos) : (snapToLeading snap pos).col ≤ pos.col := by
  unfold snapToLeading
  dsimp only
  split_ifs
  · exact Nat.le_refl _
  · split
    · split_ifs
      · have smaller : min pos.col (snap.width - 1) ≤ pos.col := Nat.min_le_left _ _
        dsimp only
        omega
      · exact Nat.le_refl _
    · exact Nat.le_refl _

theorem snapToLeading_row (snap : Snapshot) (pos : CellPos) : (snapToLeading snap pos).row = pos.row := by
  unfold snapToLeading
  grind

variable {snap : Snapshot} {pos : CellPos}

structure Inside (snap : Snapshot) (pos : CellPos) : Prop where
  row : pos.row < snap.height
  col : pos.col < snap.width

def Leading (snap : Snapshot) (pos : CellPos) : Prop := ∃ cell, cellAt snap pos = some cell ∧ cell.spacer = false

theorem Inside.cellAt_eq (inside : Inside snap pos) : cellAt snap pos = (snap.row pos.row)[pos.col]? := by
  rw [Snapshot.getElem?_row inside.col, cellAt, if_neg]
  have row := inside.row
  have col := inside.col
  simp only [Bool.or_eq_true, decide_eq_true_eq]
  omega

theorem Inside.cellAt_isSome (inside : Inside snap pos) : ∃ cell, cellAt snap pos = some cell := by
  rw [inside.cellAt_eq]
  refine ⟨_, List.getElem?_eq_getElem ?_⟩
  rw [Snapshot.length_row inside.row]
  exact inside.col

theorem Inside.of_cellAt {cell : Cell} (found : cellAt snap pos = some cell) : Inside snap pos := by
  unfold cellAt at found
  split_ifs at found with outside
  simp only [Bool.or_eq_true, decide_eq_true_eq, not_or, Nat.not_le] at outside
  exact ⟨outside.1, outside.2⟩

theorem Leading.inside (leading : Leading snap pos) : Inside snap pos := by
  obtain ⟨cell, found, _⟩ := leading
  exact Inside.of_cellAt found

theorem Inside.clampPos_eq (inside : Inside snap pos) : clampPos snap pos = pos := by
  have row := inside.row
  have col := inside.col
  cases pos
  simp only [clampPos, CellPos.mk.injEq]
  simp only at row col
  omega

theorem Inside.snapToLeading_eq (inside : Inside snap pos) {cell : Cell} (found : cellAt snap pos = some cell) :
    snapToLeading snap pos = if cell.spacer && 0 < pos.col then ⟨pos.row, pos.col - 1⟩ else pos := by
  have row := inside.row
  have col := inside.col
  rw [inside.cellAt_eq, Snapshot.getElem?_row col] at found
  have sameRow : min pos.row (snap.height - 1) = pos.row := by omega
  have sameCol : min pos.col (snap.width - 1) = pos.col := by omega
  have sized : (decide (snap.width = 0) || decide (snap.height = 0)) = false := by
    simp only [Bool.or_eq_false_iff, decide_eq_false_iff_not]
    omega
  unfold snapToLeading
  simp only [sized, sameRow, sameCol, found]
  rfl

theorem Leading.snapToLeading_eq (leading : Leading snap pos) : snapToLeading snap pos = pos := by
  obtain ⟨cell, found, plain⟩ := leading
  rw [Inside.snapToLeading_eq (Leading.inside ⟨cell, found, plain⟩) found, plain]
  rfl

theorem lead_of_spacer (paired : snap.Paired) {row col : Nat} {half : Cell}
    (found : cellAt snap ⟨row, col⟩ = some half) (second : half.spacer = true) (inside : Inside snap ⟨row, col⟩) :
    ∃ b first, col = b + 1 ∧ cellAt snap ⟨row, b⟩ = some first ∧ first.width = 2 ∧ first.spacer = false := by
  rw [inside.cellAt_eq] at found
  obtain ⟨b, first, next, there, wide, plain⟩ := (paired row inside.row).lead found second
  have before : Inside snap ⟨row, b⟩ := ⟨inside.row, by have := inside.col; simp only at this next ⊢; omega⟩
  exact ⟨b, first, next, by rw [before.cellAt_eq]; exact there, wide, plain⟩

theorem spacer_of_lead (paired : snap.Paired) {row col : Nat} {first : Cell}
    (found : cellAt snap ⟨row, col⟩ = some first) (wide : first.width = 2) (plain : first.spacer = false) :
    ∃ half, cellAt snap ⟨row, col + 1⟩ = some half ∧ half.spacer = true := by
  have inside := Leading.inside ⟨first, found, plain⟩
  rw [inside.cellAt_eq] at found
  obtain ⟨half, there, second⟩ := (paired row inside.row).spacer found wide plain
  have short := (List.getElem?_eq_some_iff.mp there).1
  rw [Snapshot.length_row inside.row] at short
  have after : Inside snap ⟨row, col + 1⟩ := ⟨inside.row, short⟩
  exact ⟨half, by rw [after.cellAt_eq]; exact there, second⟩

theorem Inside.snapped (inside : Inside snap pos) (paired : snap.Paired) :
    Leading snap (snapToLeading snap pos) ∧ (snapToLeading snap pos).row = pos.row ∧
      ((snapToLeading snap pos).col = pos.col ∨
        (snapToLeading snap pos).col + 1 = pos.col ∧ ∃ half, cellAt snap pos = some half ∧ half.spacer = true) := by
  obtain ⟨cell, found⟩ := inside.cellAt_isSome
  cases half : cell.spacer with
  | false =>
    rw [Leading.snapToLeading_eq ⟨cell, found, half⟩]
    exact ⟨⟨cell, found, half⟩, rfl, .inl rfl⟩
  | true =>
    obtain ⟨b, first, next, there, wide, plain⟩ := lead_of_spacer paired found half inside
    have moved : snapToLeading snap pos = ⟨pos.row, b⟩ := by
      rw [inside.snapToLeading_eq found, half, next]
      simp
    rw [moved]
    exact ⟨⟨first, there, plain⟩, rfl, .inr ⟨next.symm, cell, found, half⟩⟩

end Bitty.Ui
