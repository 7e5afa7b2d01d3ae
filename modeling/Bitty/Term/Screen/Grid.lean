import Bitty.Library.Sweep
import Bitty.Vt.Action

/-! Cell content and resolved text styles of the grid. -/

namespace Bitty.Screen

open Bitty.Vt

def MAX_CLUSTER_SCALARS : Nat := 6

structure Attributes where
  bold : Bool := false
  faint : Bool := false
  italic : Bool := false
  underline : UnderlineStyle := .none
  blink : Bool := false
  inverse : Bool := false
  invisible : Bool := false
  strikethrough : Bool := false
  deriving DecidableEq

/-- Disabling any underline collapses to none; enabling replaces the shape. -/
def Attributes.applyChange (a : Attributes) (enabled : Bool) : Attribute → Attributes
  | .bold => { a with bold := enabled }
  | .faint => { a with faint := enabled }
  | .italic => { a with italic := enabled }
  | .underline style => { a with underline := if enabled then style else .none }
  | .blink => { a with blink := enabled }
  | .inverse => { a with inverse := enabled }
  | .invisible => { a with invisible := enabled }
  | .strikethrough => { a with strikethrough := enabled }

structure Style where
  foreground : Option Color := none
  background : Option Color := none
  underlineColor : Option Color := none
  attributes : Attributes := {}
  deriving DecidableEq

structure Zerowidth where
  chars : List Char
  bounded : chars.length ≤ MAX_CLUSTER_SCALARS
  deriving DecidableEq

namespace Zerowidth

def new : Zerowidth := ⟨[], Nat.zero_le _⟩

def push (z : Zerowidth) (mark : Char) : Option Zerowidth :=
  if room : z.chars.length < MAX_CLUSTER_SCALARS then
    some ⟨z.chars ++ [mark], by rw [List.length_append, List.length_singleton]; omega⟩
  else none

end Zerowidth

/-- The trailing half of a wide character has `spacer`, erased blanks have `padding`, and `hyperlink` is an identifier
of the hyperlink table. -/
structure Cell where
  glyph : Char
  style : Style
  width : Nat
  spacer : Bool
  padding : Bool
  hyperlink : Option Nat
  zerowidth : Zerowidth
  deriving DecidableEq

namespace Cell

def erased (style : Style) : Cell := ⟨' ', style, 1, false, true, none, Zerowidth.new⟩

def wideSpacer (style : Style) : Cell := ⟨' ', style, 2, true, true, none, Zerowidth.new⟩

def isBlank (cell : Cell) : Bool := !cell.spacer && cell.glyph == ' ' && cell.zerowidth.chars.isEmpty

def pushZerowidth (cell : Cell) (mark : Char) : Option Cell :=
  if cell.spacer then none else (cell.zerowidth.push mark).map fun z => { cell with zerowidth := z }

def Lead (cell : Cell) : Prop := cell.width = 2 ∧ cell.spacer = false

instance (cell : Cell) : Decidable cell.Lead := inferInstanceAs (Decidable (_ ∧ _))

def Narrow (cell : Cell) : Prop := ¬cell.Lead ∧ cell.spacer = false

instance (cell : Cell) : Decidable cell.Narrow := inferInstanceAs (Decidable (_ ∧ _))

variable {cell : Cell} {style : Style}

theorem not_lead_of_spacer (spacer : cell.spacer = true) : ¬cell.Lead := fun lead => by simp [lead.2] at spacer

theorem narrow_or (cell : Cell) : cell.Narrow ∨ cell.Lead ∨ cell.spacer = true := by
  by_cases spacer : cell.spacer = true
  · exact .inr (.inr spacer)
  · by_cases lead : cell.Lead
    · exact .inr (.inl lead)
    · exact .inl ⟨lead, Bool.eq_false_iff.mpr spacer⟩

@[simp] theorem spacer_erased : (erased style).spacer = false := rfl

@[simp] theorem not_lead_erased : ¬(erased style).Lead := fun lead => absurd lead.1 (show 1 ≠ 2 by omega)

theorem narrow_erased : (erased style).Narrow := ⟨not_lead_erased, rfl⟩

@[simp] theorem spacer_wideSpacer : (wideSpacer style).spacer = true := rfl

@[simp] theorem hyperlink_erased : (erased style).hyperlink = none := rfl

@[simp] theorem hyperlink_wideSpacer : (wideSpacer style).hyperlink = none := rfl

theorem pushZerowidth_some {cell' : Cell} {mark : Char} (pushed : cell.pushZerowidth mark = some cell') :
    ∃ z, cell.zerowidth.push mark = some z ∧ cell.spacer = false ∧ cell' = { cell with zerowidth := z } := by
  unfold pushZerowidth at pushed
  split at pushed
  next => cases pushed
  next plain =>
    obtain ⟨z, room, rfl⟩ := Option.map_eq_some_iff.mp pushed
    exact ⟨z, room, Bool.eq_false_iff.mpr plain, rfl⟩

end Cell

end Bitty.Screen

/-! The edits of one row. Wide pairs are written, moved and erased whole. -/

namespace Bitty.Screen

open Sweep

def outside : Cell := Cell.erased {}

structure Row where
  cells : List Cell
  wrapped : Bool
  deriving DecidableEq

namespace Row

def blank (cols : Nat) (style : Style) : Row := ⟨List.replicate cols (Cell.erased style), false⟩

variable (row : Row) (style : Style)

def get (col : Nat) : Cell := row.cells.getD col outside

def set (col : Nat) (cell : Cell) : Row := { row with cells := row.cells.set col cell }

def breakPair (col : Nat) : Row := (row.set col (Cell.erased style)).set (col + 1) (Cell.erased style)

def cutBefore (col : Nat) : Row := if 0 < col ∧ (row.get col).spacer then row.breakPair style (col - 1) else row

def fill (lo count : Nat) : Row :=
  { row with cells := sweep outside (Cell.erased style) (fun _ => none) (List.range' lo count) row.cells }

/-- Erases columns `start` to `stop`, and the pairs that straddle either edge whole. -/
def eraseRange (start stop : Nat) : Row :=
  let last := row.cells.length - 1
  let start := min start last
  let stop := min stop last
  if row.cells.length = 0 ∨ stop < start then row
  else
    let start := if 0 < start ∧ (row.get start).spacer then start - 1 else start
    let stop := if (row.get stop).width = 2 ∧ stop < last ∧ (row.get (stop + 1)).spacer then stop + 1 else stop
    { row.fill style start (stop + 1 - start) with wrapped := false }

/-- Before cells shift right by `n`, the pairs that the start or the right margin would tear are blanked. -/
def insertCut (last col n : Nat) : Row :=
  let row := row.cutBefore style col
  if n ≤ last - col ∧ (row.get (last - n)).Lead then row.breakPair style (last - n) else row

def insertBlanks (col n : Nat) : Row :=
  let last := row.cells.length - 1
  let col := min col last
  let n := max n 1
  let cells := sweep outside (Cell.erased style) (fun i => some (i - n)) (List.range' (col + n) (last + 1 - (col + n))).reverse
    (row.insertCut style last col n).cells
  (Row.mk cells false).fill style col (min (col + n) (last + 1) - col)

/-- Before `n` cells are deleted, the pairs that the start or the end of the deleted cells would tear are blanked. -/
def deleteCut (last col n : Nat) : Row :=
  let row := row.cutBefore style col
  if col + n ≤ last then row.cutBefore style (col + n) else row

/-- Deletes `n` cells from `col` on and shifts the tail left. -/
def deleteChars (col n : Nat) : Row :=
  let last := row.cells.length - 1
  let col := min col last
  let n := max n 1
  let cells := sweep outside (Cell.erased style) (fun i => if i + n ≤ last then some (i + n) else none)
    (List.range' col (last + 1 - col)) (row.deleteCut style last col n).cells
  ⟨cells, false⟩

/-- A half of a wide pair whose other half is missing is erased, from left to right; `prev` stands before the cells. -/
def repairCells (style : Style) : Cell → List Cell → List Cell
  | _, [] => []
  | prev, [cell] => if (cell.spacer ∧ ¬prev.Lead) ∨ cell.Lead then [Cell.erased style] else [cell]
  | prev, cell :: next :: rest =>
    if cell.spacer then
      if prev.Lead then cell :: repairCells style cell (next :: rest)
      else Cell.erased style :: repairCells style (Cell.erased style) (next :: rest)
    else if cell.width = 2 then
      if next.spacer then cell :: next :: repairCells style next rest
      else Cell.erased style :: repairCells style (Cell.erased style) (next :: rest)
    else cell :: repairCells style cell (next :: rest)

def repair : Row := { row with cells := repairCells style outside row.cells }

end Row

end Bitty.Screen

/-! The visible character grid and its line motions. -/

namespace Bitty.Screen

structure Grid where
  cols : Nat
  lines : List Row

namespace Grid

def new (rows cols : Nat) : Grid := ⟨cols, List.replicate rows (Row.blank cols {})⟩

variable (g : Grid)

def row (r : Nat) : Row := g.lines.getD r ⟨[], false⟩

def get (r c : Nat) : Cell := (g.row r).get c

def wrapped (r : Nat) : Bool := (g.row r).wrapped

def modifyRow (r : Nat) (f : Row → Row) : Grid := { g with lines := g.lines.modify r f }

def setWrapped (r : Nat) (value : Bool) : Grid := g.modifyRow r fun row => { row with wrapped := value }

def set (r c : Nat) (cell : Cell) : Grid := g.modifyRow r (·.set c cell)

def fillAll (style : Style) : Grid := { g with lines := g.lines.map fun _ => Row.blank g.cols style }

/-- Fills the rows of an inclusive rectangle; they and the row above lose their continuation. -/
def fillRect (top left bottom right : Nat) (style : Style) : Grid :=
  let top := min top (g.lines.length - 1)
  let bottom := min bottom (g.lines.length - 1)
  let left := min left (g.cols - 1)
  let right := min right (g.cols - 1)
  { g with lines := g.lines.mapIdx fun r row =>
      if top ≤ r ∧ r ≤ bottom then { row.fill style left (right + 1 - left) with wrapped := false }
      else if r + 1 = top then { row with wrapped := false }
      else row }

def eraseRangeInRow (r start stop : Nat) (style : Style) : Grid := g.modifyRow r (·.eraseRange style start stop)

def insertBlanksInRow (r col n : Nat) (style : Style) : Grid := g.modifyRow r (·.insertBlanks style col n)

def deleteCharsInRow (r col n : Nat) (style : Style) : Grid := g.modifyRow r (·.deleteChars style col n)

def repairRow (r : Nat) (style : Style) : Grid := g.modifyRow r (·.repair style)

def removed (top bottom count : Nat) : List Row := (g.lines.drop top).take (min count (bottom + 1 - top))

def removeLinesUp (top bottom count : Nat) (style : Style) : Grid :=
  let span := bottom + 1 - top
  let count := min count span
  { g with lines := g.lines.take top ++ (g.lines.drop (top + count)).take (span - count) ++
      List.replicate count (Row.blank g.cols style) ++ g.lines.drop (bottom + 1) }

/-- The rows of a region move down; erased rows enter at its top and break the continuation from above. -/
def insertBlankLinesDown (top bottom count : Nat) (style : Style) : Grid :=
  let span := bottom + 1 - top
  let count := min count span
  let g := { g with lines := g.lines.take top ++ List.replicate count (Row.blank g.cols style) ++
      (g.lines.drop top).take (span - count) ++ g.lines.drop (bottom + 1) }
  if 0 < top then g.setWrapped (top - 1) false else g

end Grid

structure ScrollbackLine where
  id : Nat
  cells : List Cell
  wrapped : Bool

/-- The retained lines, oldest first. -/
structure Scrollback where
  lines : List ScrollbackLine
  nextId : Nat
  totalWritten : Nat
  maxLines : Nat

namespace Scrollback

def SCROLLBACK_MAX_LINES : Nat := 100000

def withMaxLines (maxLines : Nat) : Scrollback := ⟨[], 0, 0, min maxLines SCROLLBACK_MAX_LINES⟩

variable (sb : Scrollback)

def pushWithWrap (cells : List Cell) (wrapped : Bool) : Scrollback :=
  let lines := sb.lines ++ [⟨sb.nextId, cells, wrapped⟩]
  { sb with lines := lines.drop (lines.length - sb.maxLines), nextId := sb.nextId + 1, totalWritten := sb.totalWritten + 1 }

def pushRows (rows : List Row) : Scrollback := rows.foldl (fun sb row => sb.pushWithWrap row.cells row.wrapped) sb

def clear : Scrollback := { sb with lines := [] }

end Scrollback

end Bitty.Screen
