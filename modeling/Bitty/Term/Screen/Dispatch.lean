import Bitty.Term.Screen.Print

/-! The transition function of the terminal: one case for each action. -/

namespace Bitty.Screen

open Bitty.Vt

def effectiveCount (n : Nat) : Nat := max n 1

def colorOption (color : Color) : Option Color := if color = .default then none else some color

namespace Style

def applyAttribute (style : Style) : AttributeChange → Style
  | .reset => {}
  | .enable attr => { style with attributes := style.attributes.applyChange true attr }
  | .disable attr => { style with attributes := style.attributes.applyChange false attr }
  | .foreground color => { style with foreground := colorOption color }
  | .background color => { style with background := colorOption color }
  | .underlineColor color => { style with underlineColor := colorOption color }

end Style

/-- A link that stands in the table keeps its identifier; another one is issued the next. -/
def Links.osc (links : Links) : Option Hyperlink → Links
  | none => { links with current := none }
  | some link =>
    match links.table.find? fun entry => entry.idParam == link.id && entry.uri == link.uri with
    | some entry => { links with current := some entry.id }
    | none =>
      let restart := links.next = 2 ^ 32 - 1
      let table := if restart then [] else links.table
      let id := if restart then 0 else links.next
      let table := if HYPERLINK_TABLE_MAX ≤ table.length then table.drop 1 else table
      ⟨table ++ [⟨id, link.id, link.uri⟩], id + 1, some id⟩

/-- The identity of a link, by the distance of its identifier from the oldest one. -/
def Links.hyperlinkEntry (links : Links) (id : Nat) : Option (Option BoundedString × BoundedString) :=
  links.table.head?.bind fun front =>
    if front.id ≤ id then
      links.table[id - front.id]?.bind fun entry => if entry.id = id then some (entry.idParam, entry.uri) else none
    else none

namespace State

variable (s : State)

def resolveCursorStyle (style : CursorStyle) : CursorStyle := if style = .default then s.defaultCursorStyle else style

def tabForwardSteps (steps : Nat) : State :=
  (s.moveCursor s.cursor.position.row (s.tabs.forward (s.width - 1) steps s.cursor.position.col)).latchWrap false

def tabBackwardSteps (steps : Nat) : State :=
  (s.moveCursor s.cursor.position.row (s.tabs.backward steps s.cursor.position.col)).latchWrap false

def printControl (byte : UInt8) : State :=
  let toColumn (col : Nat) := s.moveCursor s.cursor.position.row col
  match byte.toNat with
  | 0x08 => if s.cursor.pendingWrap then s.latchWrap false else toColumn (s.cursor.position.col - 1)
  | 0x09 => s.tabForwardSteps 1
  | 0x0A | 0x0B | 0x0C => (if s.modes.lineFeedNewLine then toColumn 0 else s).indexLinefeed
  | 0x0D => (toColumn 0).latchWrap false
  | 0x0E => { s with charsets := { s.charsets with locking := .g1 } }
  | 0x0F => { s with charsets := { s.charsets with locking := .g0 } }
  | 0x84 => s.indexLinefeed
  | 0x85 => (toColumn 0).indexLinefeed
  | 0x8D => s.reverseIndex
  | _ => s

def cursorMove (dir : Direction) (n : Nat) : State :=
  let lastRow := s.height - 1
  let lastCol := s.width - 1
  let row := s.cursor.position.row
  let col := s.cursor.position.col
  -- a destination on a spacer snaps to the leading half
  let snap (c : Nat) : Nat := if (s.screensActive.get row c).spacer then c - 1 else c
  let moved :=
    match dir with
    | .up => s.moveCursor (max (row - n) (if s.scrollRegionTop ≤ row then s.scrollRegionTop else 0)) col
    | .down => s.moveCursor (min (min (row + n) (if row ≤ s.scrollRegionBottom then s.scrollRegionBottom else lastRow)) lastRow) col
    | .right => s.moveCursor row (snap (min (col + n) lastCol))
    | .left => s.moveCursor row (snap (col - n))
  moved.latchWrap false

def cursorPosition (row col : Nat) : State :=
  let regionRows := s.scrollRegionBottom - s.scrollRegionTop + 1
  let newRow :=
    if row = SENTINEL then s.cursor.position.row
    else
      let raw := max row 1 - 1
      if s.modes.origin then s.scrollRegionTop + min raw (regionRows - 1) else min raw (s.height - 1)
  let newCol := if col = SENTINEL then s.cursor.position.col else min (max col 1 - 1) (s.width - 1)
  (s.moveCursor newRow newCol).latchWrap false

def cursorSave : State :=
  let saved : SavedCursor :=
    ⟨s.cursor.position, s.cursor.pendingWrap, s.cursor.style, s.modes.origin, s.modes.autoWrap, s.charsets⟩
  if s.altScreenActive then { s with savedAlt := some saved } else { s with savedMain := some saved }

def cursorRestore : State :=
  let saved := ((if s.altScreenActive then s.savedAlt else s.savedMain)).getD ⟨{}, false, {}, false, true, {}⟩
  { s with
    cursor := { s.cursor with position := saved.position, pendingWrap := saved.pendingWrap, style := saved.style }
    modes := { s.modes with origin := saved.originMode, autoWrap := saved.autoWrap }
    charsets := saved.charsets }

def eraseInDisplay (mode : EraseDisplayMode) : State :=
  let row := s.cursor.position.row
  let col := s.cursor.position.col
  let lastRow := s.height - 1
  let lastCol := s.width - 1
  let erase := s.bceStyle
  match mode with
  | .below =>
    let erased := s.editActive (·.eraseRangeInRow row col lastCol erase)
    if row < lastRow then erased.editActive (·.fillRect (row + 1) 0 lastRow lastCol erase) else erased
  | .above =>
    let erased := if 0 < row then s.editActive (·.fillRect 0 0 (row - 1) lastCol erase) else s
    erased.editActive (·.eraseRangeInRow row 0 col erase)
  | .all => s.editActive (·.fillRect 0 0 lastRow lastCol erase)
  | .scrollback => { s with scrollback := s.scrollback.clear, bufferEpoch := s.bufferEpoch + 1 }
  | .scrollAndClear =>
    let captured :=
      if s.altScreenActive then s
      else { s with scrollback := s.scrollback.pushRows (s.screensActive.lines.take s.height) }
    captured.editActive (·.fillRect 0 0 lastRow lastCol erase)

def eraseInLine (mode : EraseLineMode) : State :=
  let row := s.cursor.position.row
  let col := s.cursor.position.col
  let lastCol := s.width - 1
  match mode with
  | .right => s.editActive (·.eraseRangeInRow row col lastCol s.bceStyle)
  | .left => s.editActive (·.eraseRangeInRow row 0 col s.bceStyle)
  | .all => s.editActive (·.eraseRangeInRow row 0 lastCol s.bceStyle)

def eraseChars (n : Nat) : State :=
  let row := s.cursor.position.row
  let col := s.cursor.position.col
  let erased := s.editActive (·.eraseRangeInRow row col (col + effectiveCount n - 1) s.bceStyle)
  erased.editActive (·.repairRow row s.bceStyle)

def insertChars (n : Nat) : State :=
  let row := s.cursor.position.row
  let inserted := s.editActive (·.insertBlanksInRow row s.cursor.position.col (effectiveCount n) s.bceStyle)
  inserted.editActive (·.repairRow row s.bceStyle)

def deleteChars (n : Nat) : State :=
  let row := s.cursor.position.row
  let deleted := s.editActive (·.deleteCharsInRow row s.cursor.position.col (effectiveCount n) s.bceStyle)
  deleted.editActive (·.repairRow row s.bceStyle)

def insertLines (n : Nat) : State :=
  let row := s.cursor.position.row
  if row < s.scrollRegionTop ∨ s.scrollRegionBottom < row then s
  else s.editActive (·.insertBlankLinesDown row s.scrollRegionBottom n s.bceStyle)

def deleteLines (n : Nat) : State :=
  let row := s.cursor.position.row
  if row < s.scrollRegionTop ∨ s.scrollRegionBottom < row then s
  else s.editActive (·.removeLinesUp row s.scrollRegionBottom n s.bceStyle)

def homeCursor : State := (s.moveCursor (if s.modes.origin then s.scrollRegionTop else 0) 0).latchWrap false

def setScrollRegion (top bottom : Nat) : State :=
  let last := s.height - 1
  let t := top - 1
  let b := min (if bottom = SENTINEL then last else bottom - 1) last
  if b < t then s else { s with scrollRegionTop := t, scrollRegionBottom := b }.homeCursor

def applyAttributeDiff (changes : List AttributeChange) : State :=
  { s with cursor := { s.cursor with style := changes.foldl Style.applyAttribute s.cursor.style } }

def enterAltScreen (variant : AltScreen) : State :=
  let save : ScreenSave :=
    ⟨s.cursor.position, s.cursor.pendingWrap, s.cursor.style, s.cursor.cursorStyle, s.cursor.visible, s.charsets, s.modes⟩
  let entered := { s with
    primarySave := some save
    modes := { s.modes with enhancedKeyboard := s.enhancedKeyboardStash }
    enhancedKeyboardStash := s.modes.enhancedKeyboard
    altScreen := variant }
  if variant = .via1049 then
    { entered with screens := { entered.screens with alt := entered.screens.alt.fillAll s.bceStyle } }
  else entered

/-- The alternate screen is left: the modes come back, and the cursor when both ways were `?1049`. -/
def leaveAltScreen (variant : AltScreen) : State :=
  let restoreCursor := s.altScreen = .via1049 ∧ variant = .via1049
  let altEnhanced := s.modes.enhancedKeyboard
  let emptied := { s with modes := { s.modes with enhancedKeyboard := {} } }
  let restored :=
    match s.primarySave with
    | none => emptied
    | some save =>
      let cursor :=
        if restoreCursor then
          { s.cursor with
            position := save.cursorPosition, pendingWrap := save.pendingWrap, style := save.style,
            cursorStyle := save.cursorStyle, visible := save.cursorVisible }
        else s.cursor
      { emptied with primarySave := none, cursor := cursor, charsets := save.charsets, modes := save.modes }
  { restored with
    modes := { restored.modes with mouseTracking := none }
    enhancedKeyboardStash := altEnhanced
    altScreen := .off }

def switchAltScreen (variant : AltScreen) (enabled : Bool) : State :=
  if enabled then if s.altScreen = .off then s.enterAltScreen variant else s
  else if s.altScreen = .off then s
  else s.leaveAltScreen variant

def setModes (modes : Modes) : State := { s with modes := modes }

def setMode (mode : Mode) (enabled : Bool) : State :=
  match mode with
  | .insert => s.setModes { s.modes with insert := enabled }
  | .lineFeedNewLine => s.setModes { s.modes with lineFeedNewLine := enabled }
  | .applicationKeypad => s.setModes { s.modes with applicationKeypad := enabled }
  | .applicationCursorKeys => s.setModes { s.modes with applicationCursorKeys := enabled }
  | .column132 =>
    let cleared := (s.setModes { s.modes with column132Requested := enabled }).editActive
      (·.fillRect 0 0 (s.height - 1) (s.width - 1) s.bceStyle)
    { cleared with scrollRegionTop := 0, scrollRegionBottom := s.height - 1 }.homeCursor
  | .reverseVideo => s.setModes { s.modes with reverseVideo := enabled }
  | .origin => (s.setModes { s.modes with origin := enabled }).homeCursor
  | .autoWrap => (s.setModes { s.modes with autoWrap := enabled }).latchWrap false
  | .cursorBlinking => s.setModes { s.modes with cursorBlinking := enabled }
  | .alternateScreen => s.switchAltScreen .via47 enabled
  | .alternateScreenClearAndRestore => s.switchAltScreen .via1049 enabled
  | .bracketedPaste => s.setModes { s.modes with bracketedPaste := enabled }
  | .focusEvents => s.setModes { s.modes with focusEvents := enabled }
  | .alternateScroll => s.setModes { s.modes with alternateScroll := enabled }
  | .synchronizedUpdate => s.setModes { s.modes with synchronizedUpdate := enabled }
  | .kittyKeyboard flags =>
    let keyboard := s.modes.enhancedKeyboard
    let keyboard :=
      if enabled then keyboard.set flags .set
      else if flags = 0 then keyboard.pop keyboard.entries.length
      else keyboard.set flags .reset
    s.setModes { s.modes with enhancedKeyboard := keyboard }
  | .mouseTracking tracking => s.setModes { s.modes with mouseTracking := if enabled then some tracking else none }
  | .mouseCoordinateEncoding encoding =>
    if enabled then s.setModes { s.modes with mouseCoordinateEncoding := some encoding }
    else if s.modes.mouseCoordinateEncoding = some encoding then s.setModes { s.modes with mouseCoordinateEncoding := none }
    else s

def oscHyperlink (link : Option Hyperlink) : State := { s with links := s.links.osc link }

def outputPrintOnRow (row : Nat) : Bool :=
  s.lastOutputPrint.any fun mark =>
    let drift := s.scrollbackEvictedTotal - mark.evictedAt
    mark.epochAt = s.bufferEpoch ∧ mark.onAltScreen = s.altScreenActive ∧ mark.evictedAt ≤ s.scrollbackEvictedTotal ∧
      drift ≤ mark.bufferRow ∧ mark.bufferRow - drift < s.scrollback.lines.length + s.height ∧ mark.bufferRow - drift = row

def recordZone (kind : ZoneKind) (exitCode : Option Int) : State :=
  let bufferRow := s.scrollback.lines.length + min s.cursor.position.row (s.height - 1)
  let record : ZoneRecord :=
    { ordinal := s.zoneCounter + 1
      kind := kind
      exitCode := if kind = .outputEnd then exitCode else none
      bufferRow := bufferRow
      evictedAtMark := s.scrollbackEvictedTotal
      epochAtMark := s.bufferEpoch
      onAltScreen := s.altScreenActive
      outputOnMarkRow := decide (kind = .outputEnd) && s.outputPrintOnRow bufferRow }
  let zones := s.zones ++ [record]
  { s with
    zones := zones.drop (zones.length - ZONE_RECORDS_MAX)
    zoneCounter := s.zoneCounter + 1
    lastOutputPrint := if kind = .outputStart then none else s.lastOutputPrint }

/-- A placement with a span moves the cursor past it, unless it is virtual, relative, or keeps the cursor. -/
def kittyGraphics (action : Option Char) (cols rows cursorMove : Nat) (keys : KittyControlKeys) : State :=
  let places := action = none ∨ action = some 'T' ∨ action = some 'p'
  let isVirtual := keys.unicodePlacement = 1
  let hasParent := keys.parentId ≠ 0
  if places ∧ ¬(cols = 0 ∧ rows = 0) ∧ cursorMove ≠ 1 ∧ ¬isVirtual ∧ ¬hasParent then
    s.moveCursor (min (s.cursor.position.row + rows) (s.height - 1)) (min (s.cursor.position.col + cols) (s.width - 1))
  else s

def applyEnhancedKeyboard (op : EnhancedKeyboardOp) : State :=
  let keyboard := s.modes.enhancedKeyboard
  match op with
  | .set flags mode => s.setModes { s.modes with enhancedKeyboard := keyboard.set flags mode }
  | .push flags => s.setModes { s.modes with enhancedKeyboard := keyboard.push flags }
  | .pop n => s.setModes { s.modes with enhancedKeyboard := keyboard.pop n }
  | .query => s

def applyModifyOtherKeys : ModifyOtherKeysOp → State
  | .set level => s.setModes { s.modes with modifyOtherKeys := level }
  | .query => s

def softReset : State :=
  { s with
    cursor := { s.cursor with visible := true, pendingWrap := false, style := {} }
    modes := { s.modes with insert := false, origin := false, autoWrap := false }
    scrollRegionTop := 0
    scrollRegionBottom := s.height - 1
    charsets := {} }

def fullReset : State :=
  { s with
    screens := ⟨s.screens.main.fillAll {}, s.screens.alt.fillAll {}⟩
    altScreen := .off
    primarySave := none
    enhancedKeyboardStash := {}
    savedMain := none
    savedAlt := none
    cursor := { cursorStyle := s.defaultCursorStyle }
    modes := {}
    scrollRegionTop := 0
    scrollRegionBottom := s.height - 1
    tabs := TabStops.defaultLattice s.width
    charsets := {}
    scrollback := s.scrollback.clear
    bufferEpoch := 0
    links := ⟨[], 0, none⟩
    zones := []
    zoneCounter := 0
    lastOutputPrint := none }

variable (tables : UnicodeTables)

def handle : TerminalAction → State
  | .print cell => s.print tables cell
  | .printControl control => s.printControl control
  | .cursorMove dir n => s.cursorMove dir (effectiveCount n)
  | .cursorPosition row col => s.cursorPosition row col
  | .cursorSave => s.cursorSave
  | .cursorRestore => s.cursorRestore
  | .cursorStyle style => { s with cursor := { s.cursor with cursorStyle := s.resolveCursorStyle style } }
  | .cursorVisibility visible => { s with cursor := { s.cursor with visible := visible } }
  | .eraseInDisplay mode => s.eraseInDisplay mode
  | .eraseInLine mode => s.eraseInLine mode
  | .eraseChars n => s.eraseChars n
  | .insertLines n => s.insertLines (effectiveCount n)
  | .deleteLines n => s.deleteLines (effectiveCount n)
  | .insertChars n => s.insertChars n
  | .deleteChars n => s.deleteChars n
  | .scrollUp n => s.scrollUpRegion (effectiveCount n)
  | .scrollDown n => s.scrollDownRegion (effectiveCount n)
  | .setScrollRegion top bottom => s.setScrollRegion top bottom
  | .setAttributes attrs => s.applyAttributeDiff attrs
  | .setMode mode enabled => s.setMode mode enabled
  | .tabSet => { s with tabs := s.tabs.set s.cursor.position.col }
  | .tabClear .current => { s with tabs := s.tabs.clearAt s.cursor.position.col }
  | .tabClearAll => { s with tabs := s.tabs.clearAll }
  | .tabForward n => s.tabForwardSteps (effectiveCount n)
  | .tabBackward n => s.tabBackwardSteps (effectiveCount n)
  | .selectCharset slot table => { s with charsets := s.charsets.designate slot table }
  | .invokeCharset slot => { s with charsets := { s.charsets with locking := slot } }
  | .singleShiftCharset slot => { s with charsets := { s.charsets with single := some slot } }
  | .enhancedKeyboard op => s.applyEnhancedKeyboard op
  | .modifyOtherKeys op => s.applyModifyOtherKeys op
  | .oscHyperlink link => s.oscHyperlink link
  | .oscPromptMark kind exitCode => s.recordZone kind exitCode
  | .kittyGraphics _ _ _ action cols rows cursorMove _ keys => s.kittyGraphics action cols rows cursorMove keys
  | .softReset => s.softReset
  | .fullReset => s.fullReset
  -- titles, replies, notifications, images and counters are no part of this state
  | .requestDeviceStatus _ | .reply _ | .oscTitle _ | .oscDynamicColor _ _ | .oscPalette _ | .oscClipboard _ _ | .oscCwd _
  | .oscNotification _ | .kittyNotificationChunk _ | .oscPointerShape _ | .oscUnknown _ _ | .kittyFontQuery _
  | .iterm2Image _ _ _ | .iterm2ImageRejected _ | .sixelGraphics _ | .sixelRejected _ | .controlStringRejected _ _
  | .unknown _ => s

def apply (action : TerminalAction) : State := (s.handle tables action).enforceCursorInvariants

def applyAll (actions : List TerminalAction) : State := actions.foldl (·.apply tables ·) s

end State

end Bitty.Screen
