import Bitty.Term.Screen.State

/-! Line motions of the active screen, and the printing of scalars. -/

namespace Bitty.Screen

open Bitty.Vt

/-- Breaks the pairs that a cell of a given width only partly covers, as the row is before the cell is written. -/
def Row.uncover (row : Row) (erase : Style) (col width : Nat) : Row :=
  let last := row.cells.length - 1
  let atCol := row.get col
  let ahead := row.get (col + 1)
  let row := if atCol.spacer ∧ 0 < col then row.set (col - 1) (Cell.erased erase) else row
  if width = 1 then
    if atCol.width = 2 ∧ ¬atCol.spacer ∧ col < last then row.set (col + 1) (Cell.erased erase) else row
  else if col < last ∧ ahead.width = 2 ∧ ¬ahead.spacer ∧ col + 2 ≤ last then row.set (col + 2) (Cell.erased erase)
  else row

def Row.put (row : Row) (col width : Nat) (cell : Cell) : Row :=
  let row := row.set col cell
  if width = 2 then row.set (col + 1) (Cell.wideSpacer cell.style) else row

/-- Writes a cell at a column; insert mode shifts the rest of the row, and the repair pass erases what is left of
torn pairs. -/
def Row.write (row : Row) (erase : Style) (col width : Nat) (insert : Bool) (cell : Cell) : Row :=
  let row := row.uncover erase col width
  let row := if insert then row.insertBlanks erase col width else row
  (row.put col width cell).repair erase

/-- Stores a cell that grew to two columns: its spacer takes the next column. -/
def Row.widen (row : Row) (erase : Style) (col : Nat) (insert : Bool) (cell : Cell) : Row :=
  let row :=
    if insert then row.insertBlanks erase (col + 1) 1
    else
      let ahead := row.get (col + 1)
      if ahead.width = 2 ∧ ¬ahead.spacer ∧ col + 2 < row.cells.length then row.set (col + 2) (Cell.erased erase) else row
  row.put col 2 cell

namespace State

variable (s : State)

def scrollUpRegion (n : Nat) : State :=
  let removed := s.screensActive.removed s.scrollRegionTop s.scrollRegionBottom n
  let scrolled := s.editActive (·.removeLinesUp s.scrollRegionTop s.scrollRegionBottom n s.bceStyle)
  let captures := !s.altScreenActive ∧ s.scrollRegionBottom = s.height - 1
  { scrolled with scrollback := if captures then s.scrollback.pushRows removed else s.scrollback }

def scrollDownRegion (n : Nat) : State :=
  s.editActive (·.insertBlankLinesDown s.scrollRegionTop s.scrollRegionBottom n s.bceStyle)

def indexLinefeed : State :=
  let row := s.cursor.position.row
  let s :=
    if row = s.scrollRegionBottom then s.scrollUpRegion 1
    else if row < s.height - 1 then s.moveCursor (row + 1) s.cursor.position.col
    else s
  s.latchWrap false

def reverseIndex : State :=
  let row := s.cursor.position.row
  let s := if row = s.scrollRegionTop then s.scrollDownRegion 1 else s.moveCursor (row - 1) s.cursor.position.col
  s.latchWrap false

def softWrap : State :=
  let s := (s.editActive (·.setWrapped s.cursor.position.row true)).indexLinefeed
  s.moveCursor s.cursor.position.row 0

def noteOutputPrint : State :=
  let row := min s.cursor.position.row (s.height - 1)
  let mark : OutputPrintMark :=
    ⟨s.scrollback.lines.length + row, s.scrollbackEvictedTotal, s.bufferEpoch, s.altScreenActive⟩
  { s with lastOutputPrint := some mark }

/-- The cursor after a cell that ends before column `advanced`. -/
def advanceTo (advanced : Nat) : State :=
  if s.width ≤ advanced then (s.moveCursor s.cursor.position.row (s.width - 1)).latchWrap s.modes.autoWrap
  else s.moveCursor s.cursor.position.row advanced

def penCell (ch : Char) (width : Nat) : Cell :=
  ⟨ch, s.cursor.style, width, false, false, s.links.current, Zerowidth.new⟩

def place (ch : Char) (width : Nat) : State :=
  let row := s.cursor.position.row
  let col := s.cursor.position.col
  let written := s.editActive (·.modifyRow row (·.write s.bceStyle col width s.modes.insert (s.penCell ch width)))
  written.noteOutputPrint.advanceTo (col + width)

/-- Places a scalar that starts a new cell, after the wrap that is pending or that its width asks for. -/
def layout (ch : Char) (width : Nat) : State :=
  let s := (if s.modes.autoWrap ∧ s.cursor.pendingWrap then s.softWrap else s).latchWrap false
  if width = 2 ∧ s.width < 2 then s
  else if width = 2 ∧ s.width ≤ s.cursor.position.col + 1 then
    if s.modes.autoWrap then s.softWrap.place ch width else s
  else s.place ch width

def printKittyPlaceholder (ch : Char) : State := s.layout ch 1

/-- The last written cell of the cursor's row, stepping back over a spacer. -/
def clusterTarget : Option (Nat × Nat) :=
  let row := s.cursor.position.row
  let col := s.cursor.position.col
  let target := if s.cursor.pendingWrap then some col else if 0 < col then some (col - 1) else none
  target.bind fun target =>
    if (s.screensActive.get row target).spacer then if target = 0 then none else some (row, target - 1)
    else some (row, target)

def commitClusterCell (row col : Nat) (cell : Cell) (width : Nat) (allowGrow : Bool) : State :=
  if allowGrow ∧ cell.width < width ∧ col + 1 < s.width then
    let cell := { cell with width := width }
    (s.editActive (·.modifyRow row (·.widen s.bceStyle col s.modes.insert cell))).advanceTo (col + 2)
  else s.editActive (·.set row col cell)

variable (tables : UnicodeTables)

def extendCluster (row col : Nat) (scalar : Char) : Option State :=
  ((s.screensActive.get row col).pushZerowidth scalar).map fun cell =>
    let width := tables.clusterCellWidthParts cell.glyph cell.zerowidth.chars s.ambiguousWidth
    (s.commitClusterCell row col cell width true).noteOutputPrint

/-- Where a scalar without a column of its own goes; a bidi control that leads a line goes nowhere. -/
def zerowidthTarget (mark : Char) : Option (Nat × Nat) :=
  let row := s.cursor.position.row
  let col := s.cursor.position.col
  let softWrapped := decide (0 < row) && s.screensActive.wrapped (row - 1)
  let leading := col == 0 && !s.cursor.pendingWrap && !softWrapped && isBidiFormatScalar mark
  let target :=
    if s.cursor.pendingWrap then some (row, col)
    else if 0 < col then some (row, col - 1)
    else if 0 < row ∧ !leading then some (row - 1, s.width - 1)
    else none
  target.bind fun target =>
    if (s.screensActive.get target.1 target.2).spacer then if target.2 = 0 then none else some (target.1, target.2 - 1)
    else some target

def attachZerowidth (mark : Char) : State :=
  match s.zerowidthTarget mark with
  | none => s
  | some (row, col) =>
    match (s.screensActive.get row col).pushZerowidth mark with
    | none => s
    | some cell =>
      let active := row = s.cursor.position.row ∧ col + cell.width = s.cursor.position.col
      let width := tables.clusterCellWidthParts cell.glyph cell.zerowidth.chars s.ambiguousWidth
      s.commitClusterCell row col cell width active

def continued (ch : Char) : Option State :=
  s.clusterTarget.bind fun (row, col) =>
    let cell := s.screensActive.get row col
    if !cell.spacer ∧ tables.clusterContinues cell.glyph cell.zerowidth.chars ch then s.extendCluster tables row col ch
    else none

def printScalar (ch : Char) : State :=
  if ch = Char.ofNat 0 then s
  else if isKittyPlaceholder ch then s.printKittyPlaceholder ch
  else
    let width := tables.charCellWidthIn ch s.ambiguousWidth
    if width = 0 then s.attachZerowidth tables ch
    else (s.continued tables ch).getD (s.layout ch width)

def print (scalar : Char) : State :=
  let (table, charsets) := s.charsets.consumeTranslationTable
  { s with charsets := charsets }.printScalar tables (Charsets.translate table scalar)

end State

end Bitty.Screen
