import Bitty.Term.Screen.Grapheme

/-! The terminal state: grids, cursor, modes, scrollback, hyperlinks and zones. -/

namespace Bitty.Screen

open Bitty.Vt

def DEFAULT_TAB_INTERVAL : Nat := 8

def GRID_COLUMNS : Nat := 80

def GRID_ROWS : Nat := 24

def HYPERLINK_TABLE_MAX : Nat := 1024

def ZONE_RECORDS_MAX : Nat := 1024

def KITTY_PLACEHOLDER : Char := Char.ofNat 0x10EEEE

def isKittyPlaceholder (ch : Char) : Bool := ch == KITTY_PLACEHOLDER

structure Charsets where
  slots : Vector CharsetTable 4 := Vector.replicate 4 .ascii
  locking : CharsetSlot := .g0
  single : Option CharsetSlot := none

namespace Charsets

def slotIndex : CharsetSlot → Fin 4
  | .g0 => 0
  | .g1 => 1
  | .g2 => 2
  | .g3 => 3

variable (sets : Charsets)

def designate (slot : CharsetSlot) (table : CharsetTable) : Charsets := { sets with slots := sets.slots.set (slotIndex slot) table }

def consumeTranslationTable : CharsetTable × Charsets :=
  (sets.slots.get (slotIndex (sets.single.getD sets.locking)), { sets with single := none })

def DEC_SPECIAL_GRAPHICS : List (Char × Nat) :=
  [('_', 0x20), (Char.ofNat 0x60, 0x25C6), ('a', 0x2592), ('b', 0x2409), ('c', 0x240C), ('d', 0x240D), ('e', 0x240A),
    ('f', 0x00B0), ('g', 0x00B1), ('h', 0x2420), ('i', 0x240B), ('j', 0x2518), ('k', 0x2510), ('l', 0x250C), ('m', 0x2514),
    ('n', 0x253C), ('o', 0x23BA), ('p', 0x23BB), ('q', 0x2500), ('r', 0x23BC), ('s', 0x23BD), ('t', 0x251C), ('u', 0x2524),
    ('v', 0x2534), ('w', 0x252C), ('x', 0x2502), ('y', 0x2264), ('z', 0x2265), (Char.ofNat 0x7B, 0x03C0), ('|', 0x2260),
    (Char.ofNat 0x7D, 0x00A3), ('~', 0x00B7)]

def decSpecialGraphics (c : Char) : Char := ((DEC_SPECIAL_GRAPHICS.lookup c).map Char.ofNat).getD c

def translate (table : CharsetTable) (c : Char) : Char :=
  match table with
  | .ascii => c
  | .unitedKingdom => if c = '#' then Char.ofNat 0xA3 else c
  | .decSpecialGraphics => decSpecialGraphics c

end Charsets

structure TabStops where
  bits : List Bool

namespace TabStops

def defaultLattice (columns : Nat) : TabStops :=
  ⟨(List.range columns).map fun col => decide (DEFAULT_TAB_INTERVAL ≤ col ∧ col % DEFAULT_TAB_INTERVAL = 0)⟩

variable (stops : TabStops)

def contains (col : Nat) : Bool := stops.bits.getD col false

def set (col : Nat) : TabStops := ⟨stops.bits.set col true⟩

def clearAt (col : Nat) : TabStops := ⟨stops.bits.set col false⟩

def clearAll : TabStops := ⟨stops.bits.map fun _ => false⟩

def nextAfter (col : Nat) : Option Nat := (List.range' (col + 1) (stops.bits.length - (col + 1))).find? (stops.contains ·)

def prevBefore (col : Nat) : Option Nat := (List.range col).reverse.find? (stops.contains ·)

def forward (last : Nat) : Nat → Nat → Nat
  | 0, col => col
  | steps + 1, col => if last ≤ col then col else forward last steps ((stops.nextAfter col).getD last)

def backward : Nat → Nat → Nat
  | 0, col => col
  | steps + 1, col => if col = 0 then col else backward steps ((stops.prevBefore col).getD 0)

end TabStops

/-- A bounded stack of flag registers, of which the last is the current one. -/
structure EnhancedKeyboardState where
  entries : List Nat := []

namespace EnhancedKeyboardState

def ENHANCED_KEYBOARD_STACK_MAX : Nat := 8

def ENHANCED_KEYBOARD_FLAG_MASK : Nat := 0x1F

variable (keyboard : EnhancedKeyboardState)

def flags : Nat := (keyboard.entries.getLast?.getD 0) &&& ENHANCED_KEYBOARD_FLAG_MASK

def set (flags : Nat) (mode : EnhancedKeyboardSetMode) : EnhancedKeyboardState :=
  let flags := flags &&& ENHANCED_KEYBOARD_FLAG_MASK
  let entries := if keyboard.entries.isEmpty then [0] else keyboard.entries
  let top := entries.getLast?.getD 0
  let value := match mode with
    | .assign => flags
    | .set => top ||| flags
    | .reset => top &&& (0xFF ^^^ flags)
  ⟨entries.dropLast ++ [value]⟩

def push (flags : Nat) : EnhancedKeyboardState :=
  let entries := if keyboard.entries.length = ENHANCED_KEYBOARD_STACK_MAX then keyboard.entries.drop 1 else keyboard.entries
  ⟨entries ++ [flags &&& ENHANCED_KEYBOARD_FLAG_MASK]⟩

def pop (n : Nat) : EnhancedKeyboardState := ⟨keyboard.entries.take (keyboard.entries.length - n)⟩

end EnhancedKeyboardState

structure Modes where
  insert : Bool := false
  lineFeedNewLine : Bool := false
  applicationKeypad : Bool := false
  applicationCursorKeys : Bool := false
  column132Requested : Bool := false
  reverseVideo : Bool := false
  origin : Bool := false
  autoWrap : Bool := true
  cursorBlinking : Bool := false
  bracketedPaste : Bool := false
  focusEvents : Bool := false
  alternateScroll : Bool := false
  synchronizedUpdate : Bool := false
  enhancedKeyboard : EnhancedKeyboardState := {}
  modifyOtherKeys : Nat := 0
  mouseTracking : Option MouseTrackingMode := none
  mouseCoordinateEncoding : Option MouseCoordinateEncoding := none

inductive AltScreen
  | off | via47 | via1049
  deriving DecidableEq

structure CursorPosition where
  row : Nat := 0
  col : Nat := 0
  deriving DecidableEq

structure Cursor where
  position : CursorPosition := {}
  style : Style := {}
  visible : Bool := true
  cursorStyle : CursorStyle := .default
  pendingWrap : Bool := false
  deriving DecidableEq

structure SavedCursor where
  position : CursorPosition
  pendingWrap : Bool
  style : Style
  originMode : Bool
  autoWrap : Bool
  charsets : Charsets

structure ScreenSave where
  cursorPosition : CursorPosition
  pendingWrap : Bool
  style : Style
  cursorStyle : CursorStyle
  cursorVisible : Bool
  charsets : Charsets
  modes : Modes

structure HyperlinkEntry where
  id : Nat
  idParam : Option BoundedString
  uri : BoundedString

/-- The hyperlink table, oldest entry first, with the next identifier and the link under the pen. -/
structure Links where
  table : List HyperlinkEntry
  next : Nat
  current : Option Nat

structure ZoneRecord where
  ordinal : Nat
  kind : ZoneKind
  exitCode : Option Int
  bufferRow : Nat
  evictedAtMark : Nat
  epochAtMark : Nat
  onAltScreen : Bool
  outputOnMarkRow : Bool

/-- Where the last printable output landed since the last output start. -/
structure OutputPrintMark where
  bufferRow : Nat
  evictedAt : Nat
  epochAt : Nat
  onAltScreen : Bool

structure ScreenPair where
  main : Grid
  alt : Grid

structure State where
  width : Nat
  height : Nat
  screens : ScreenPair
  altScreen : AltScreen
  primarySave : Option ScreenSave
  enhancedKeyboardStash : EnhancedKeyboardState
  savedMain : Option SavedCursor
  savedAlt : Option SavedCursor
  cursor : Cursor
  defaultCursorStyle : CursorStyle
  ambiguousWidth : AmbiguousWidth
  modes : Modes
  scrollRegionTop : Nat
  scrollRegionBottom : Nat
  tabs : TabStops
  charsets : Charsets
  scrollback : Scrollback
  links : Links
  zones : List ZoneRecord
  zoneCounter : Nat
  lastOutputPrint : Option OutputPrintMark
  bufferEpoch : Nat

namespace State

/-- A fresh terminal that retains at most `maxLines` lines. -/
def withScrollbackLines (maxLines : Nat) : State where
  width := GRID_COLUMNS
  height := GRID_ROWS
  screens := ⟨Grid.new GRID_ROWS GRID_COLUMNS, Grid.new GRID_ROWS GRID_COLUMNS⟩
  altScreen := .off
  primarySave := none
  enhancedKeyboardStash := {}
  savedMain := none
  savedAlt := none
  cursor := {}
  defaultCursorStyle := .default
  ambiguousWidth := .narrow
  modes := {}
  scrollRegionTop := 0
  scrollRegionBottom := GRID_ROWS - 1
  tabs := TabStops.defaultLattice GRID_COLUMNS
  charsets := {}
  scrollback := Scrollback.withMaxLines maxLines
  links := ⟨[], 0, none⟩
  zones := []
  zoneCounter := 0
  lastOutputPrint := none
  bufferEpoch := 0

variable (s : State)

def altScreenActive : Bool := s.altScreen != .off

def screensActive : Grid :=
  match s.altScreen with
  | .off => s.screens.main
  | .via47 | .via1049 => s.screens.alt

def editActive (f : Grid → Grid) : State :=
  { s with
    screens :=
      match s.altScreen with
      | .off => { s.screens with main := f s.screens.main }
      | .via47 | .via1049 => { s.screens with alt := f s.screens.alt } }

def bceStyle : Style := { background := s.cursor.style.background }

def scrollbackEvictedTotal : Nat := s.scrollback.totalWritten - s.scrollback.lines.length

def moveCursor (row col : Nat) : State := { s with cursor := { s.cursor with position := ⟨row, col⟩ } }

def latchWrap (pendingWrap : Bool) : State := { s with cursor := { s.cursor with pendingWrap := pendingWrap } }

def enforceCursorInvariants : State :=
  let row := min s.cursor.position.row (s.height - 1)
  let col := min s.cursor.position.col (s.width - 1)
  let row := if s.modes.origin then max s.scrollRegionTop (min row s.scrollRegionBottom) else row
  let col := if (s.screensActive.get row col).spacer ∧ 0 < col then col - 1 else col
  s.moveCursor row col

end State

end Bitty.Screen
