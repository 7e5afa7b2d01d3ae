import Bitty.Term.Buffer.Scrollback

namespace Bitty.Term

structure Row (width : Nat) where
  cells : Vector Cell width
  wrapped : Bool

def Row.blank (width : Nat) : Row width := ⟨Vector.replicate width Cell.erased, false⟩

abbrev Grid (width height : Nat) := Fin height → Row width

namespace Grid

variable {width height : Nat} (g : Grid width height)

def removeLinesUp (top bottom : Fin height) (count : Nat) : Grid width height := fun r =>
  if top ≤ r ∧ r ≤ bottom then
    if inside : r + min count (bottom + 1 - top) ≤ bottom then g ⟨r + min count (bottom + 1 - top), by omega⟩
    else Row.blank width
  else g r

def removed (top bottom : Fin height) (count : Nat) : List (Row width) :=
  ((List.finRange height).drop top).take (min count (bottom + 1 - top)) |>.map g

/-- Rows of a region move down; blank rows enter at its top and break the continuation from above. -/
def insertBlankLinesDown (top bottom : Fin height) (count : Nat) : Grid width height := fun r =>
  if r + 1 = top.val then { g r with wrapped := false }
  else if top ≤ r ∧ r ≤ bottom then
    if r < top + min count (bottom + 1 - top) then Row.blank width else g ⟨r - min count (bottom + 1 - top), by omega⟩
  else g r

def set (row : Fin height) (content : Row width) : Grid width height := Function.update g row content

def cleared (_ : Grid width height) : Grid width height := fun _ => Row.blank width

end Grid

instance neZeroOne : NeZero (0 + 1) := ⟨Nat.succ_ne_zero 0⟩

/-- What text extraction reads of a terminal, and the region that its scrolling is confined to. -/
structure State (width height : Nat) where
  main : Grid width height
  alt : Grid width height
  altScreen : Bool
  scrollback : Scrollback
  scrollRegionTop : Fin height
  scrollRegionBottom : Fin height

inductive Action (width height : Nat)
  | write (row : Fin height) (content : Row width)
  | scrollUpRegion (n : Nat)
  | scrollDownRegion (n : Nat)
  | insertLines (row : Fin height) (n : Nat)
  | deleteLines (row : Fin height) (n : Nat)
  | setScrollRegion (top bottom : Fin height)
  | eraseScrollback
  | scrollAndClear
  | enterAltScreen (clears : Bool)
  | leaveAltScreen
  | fullReset
  | restoreScrollback (lines : List (List Cell))

namespace State

variable {width height : Nat} (s : State width height)

def screensActive : Grid width height := if s.altScreen then s.alt else s.main

def setActive (g : Grid width height) : State width height :=
  if s.altScreen then { s with alt := g } else { s with main := g }

def scrollbackLen : Nat := s.scrollback.lines.length

def scrollbackLine (i : Nat) : Option ScrollbackLine := s.scrollback.lines[i]?

def captured (rows : List (Row width)) : List (List Cell × Bool) := rows.map fun row => (row.cells.toList, row.wrapped)

def captures : Prop := s.altScreen = false ∧ s.scrollRegionBottom + 1 = height

instance : Decidable s.captures := inferInstanceAs (Decidable (_ ∧ _))

def scrollUpRegion (n : Nat) : State width height :=
  let removed := s.screensActive.removed s.scrollRegionTop s.scrollRegionBottom n
  let scrolled := s.setActive (s.screensActive.removeLinesUp s.scrollRegionTop s.scrollRegionBottom n)
  if s.captures then { scrolled with scrollback := s.scrollback.pushAll (captured removed) } else scrolled

def scrollDownRegion (n : Nat) : State width height :=
  s.setActive (s.screensActive.insertBlankLinesDown s.scrollRegionTop s.scrollRegionBottom n)

def inRegion (row : Fin height) : Prop := s.scrollRegionTop ≤ row ∧ row ≤ s.scrollRegionBottom

instance (row : Fin height) : Decidable (s.inRegion row) := inferInstanceAs (Decidable (_ ∧ _))

def insertLines (row : Fin height) (n : Nat) : State width height :=
  if s.inRegion row then s.setActive (s.screensActive.insertBlankLinesDown row s.scrollRegionBottom n) else s

def deleteLines (row : Fin height) (n : Nat) : State width height :=
  if s.inRegion row then s.setActive (s.screensActive.removeLinesUp row s.scrollRegionBottom n) else s

def setScrollRegion (top bottom : Fin height) : State width height :=
  if bottom < top then s else { s with scrollRegionTop := top, scrollRegionBottom := bottom }

def scrollAndClear : State width height :=
  let rows := (List.finRange height).map s.screensActive
  let cleared := s.setActive s.screensActive.cleared
  if s.altScreen then cleared else { cleared with scrollback := s.scrollback.pushAll (captured rows) }

def switchAltScreen (enabled clears : Bool) : State width height :=
  if enabled = s.altScreen then s
  else if enabled then { s with altScreen := true, alt := if clears then s.alt.cleared else s.alt }
  else { s with altScreen := false }

/-- A reset gives the whole screen back to scrolling; a screen without rows has nothing to reset. -/
def fullReset : State width height where
  main := s.main.cleared
  alt := s.alt.cleared
  altScreen := false
  scrollback := s.scrollback.clear
  scrollRegionTop := ⟨0, by have := s.scrollRegionTop.isLt; omega⟩
  scrollRegionBottom := ⟨height - 1, by have := s.scrollRegionTop.isLt; omega⟩

def restoreScrollback (lines : List (List Cell)) : State width height :=
  { s with scrollback := s.scrollback.pushAll (lines.map fun cells => (cells, false)) }

def perform (s : State width height) : Action width height → State width height
  | .write row content => s.setActive (s.screensActive.set row content)
  | .scrollUpRegion n => s.scrollUpRegion n
  | .scrollDownRegion n => s.scrollDownRegion n
  | .insertLines row n => s.insertLines row n
  | .deleteLines row n => s.deleteLines row n
  | .setScrollRegion top bottom => s.setScrollRegion top bottom
  | .eraseScrollback => { s with scrollback := s.scrollback.clear }
  | .scrollAndClear => s.scrollAndClear
  | .enterAltScreen clears => s.switchAltScreen true clears
  | .leaveAltScreen => s.switchAltScreen false false
  | .fullReset => s.fullReset
  | .restoreScrollback lines => s.restoreScrollback lines

def bufferRow (i : Nat) : Option (List Cell) :=
  if i < s.scrollbackLen then (s.scrollbackLine i).map (·.cells)
  else if inside : i - s.scrollbackLen < height then some (s.screensActive ⟨i - s.scrollbackLen, inside⟩).cells.toList
  else none

end State

end Bitty.Term
