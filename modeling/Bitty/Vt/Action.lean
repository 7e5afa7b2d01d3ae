import Mathlib

namespace Bitty.Vt

/-- The longest prefix of `text` that ends on a character boundary within `limit` bytes. -/
def truncateUtf8 : Nat → List Char → List Char
  | _, [] => []
  | limit, c :: rest => if c.utf8Size ≤ limit then c :: truncateUtf8 (limit - c.utf8Size) rest else []

def utf8Length (text : List Char) : Nat := (text.map Char.utf8Size).sum

theorem utf8Length_truncateUtf8 (limit : Nat) (text : List Char) :
    utf8Length (truncateUtf8 limit text) ≤ limit := by
  induction text generalizing limit with
  | nil => simp [truncateUtf8, utf8Length]
  | cons c rest ih =>
    have later := ih (limit - c.utf8Size)
    by_cases fits : c.utf8Size ≤ limit
    · simp only [truncateUtf8, if_pos fits, utf8Length, List.map_cons, List.sum_cons] at later ⊢
      omega
    · simp [truncateUtf8, fits, utf8Length]

instance lawfulBEqBytes : LawfulBEq (List UInt8) := inferInstance

/-- A UTF-8 string of at most `MAX_LEN` bytes. -/
structure BoundedString where
  text : List Char
  bounded : utf8Length text ≤ 4096
  deriving DecidableEq

namespace BoundedString

def MAX_LEN : Nat := 4096

def new (value : List Char) : BoundedString := ⟨truncateUtf8 MAX_LEN value, utf8Length_truncateUtf8 _ _⟩

def len (s : BoundedString) : Nat := utf8Length s.text

def isEmpty (s : BoundedString) : Bool := s.text.isEmpty

end BoundedString

/-- A byte string of at most `MAX_LEN` bytes. -/
structure BoundedBytes where
  bytes : List UInt8
  bounded : bytes.length ≤ 4096
  deriving DecidableEq

namespace BoundedBytes

def MAX_LEN : Nat := 4096

def new (value : List UInt8) : BoundedBytes :=
  ⟨value.take MAX_LEN, List.length_take_le MAX_LEN value⟩

end BoundedBytes

/-- `u16::MAX`, the row or column of a one-axis cursor address. -/
def SENTINEL : Nat := 65535

inductive Direction
  | up | down | right | left
  deriving DecidableEq

inductive CursorStyle
  | default | blinkingBlock | steadyBlock | blinkingUnderline | steadyUnderline | blinkingBar | steadyBar
  deriving DecidableEq

inductive EraseDisplayMode
  | below | above | all | scrollback | scrollAndClear
  deriving DecidableEq

inductive EraseLineMode
  | right | left | all
  deriving DecidableEq

structure Rgb where
  r : UInt8
  g : UInt8
  b : UInt8
  deriving DecidableEq

inductive Color
  | default
  | indexed (index : UInt8)
  | rgb (value : Rgb)
  deriving DecidableEq

inductive UnderlineStyle
  | none | single | double | curly | dotted | dashed
  deriving DecidableEq

inductive Attribute
  | bold | faint | italic
  | underline (style : UnderlineStyle)
  | blink | inverse | invisible | strikethrough
  deriving DecidableEq

inductive AttributeChange
  | reset
  | enable (attr : Attribute)
  | disable (attr : Attribute)
  | foreground (color : Color)
  | background (color : Color)
  | underlineColor (color : Color)
  deriving DecidableEq

inductive MouseTrackingMode
  | x10 | normal | button | any
  deriving DecidableEq

inductive MouseCoordinateEncoding
  | utf8 | sgr | sgrPixels | urxvt
  deriving DecidableEq

inductive Mode
  | insert | lineFeedNewLine | applicationKeypad | applicationCursorKeys | column132 | reverseVideo
  | origin | autoWrap | cursorBlinking | alternateScreen | alternateScreenClearAndRestore
  | bracketedPaste | focusEvents | alternateScroll | synchronizedUpdate
  | kittyKeyboard (flags : Nat)
  | mouseTracking (mode : MouseTrackingMode)
  | mouseCoordinateEncoding (encoding : MouseCoordinateEncoding)
  deriving DecidableEq

inductive EnhancedKeyboardSetMode
  | assign | set | reset
  deriving DecidableEq

inductive EnhancedKeyboardOp
  | set (flags : Nat) (mode : EnhancedKeyboardSetMode)
  | push (flags : Nat)
  | pop (n : Nat)
  | query
  deriving DecidableEq

inductive ModifyOtherKeysOp
  | set (level : Nat)
  | query
  deriving DecidableEq

inductive TabTargets
  | current
  deriving DecidableEq

inductive CharsetSlot
  | g0 | g1 | g2 | g3
  deriving DecidableEq

inductive CharsetTable
  | ascii | unitedKingdom | decSpecialGraphics
  deriving DecidableEq

inductive StatusKind
  | operatingStatus | cursorPosition | deviceAttributes
  deriving DecidableEq

inductive ClipboardOp
  | read | write
  deriving DecidableEq

structure Hyperlink where
  id : Option BoundedString
  uri : BoundedString
  deriving DecidableEq

inductive DynamicColorTarget
  | foreground | background | cursor
  deriving DecidableEq

inductive DynamicColorOp
  | query
  | set (color : Rgb)
  deriving DecidableEq

inductive PaletteColorOp
  | query
  | set (color : Rgb)
  deriving DecidableEq

structure PaletteOp where
  index : UInt8
  op : PaletteColorOp
  deriving DecidableEq

inductive NotificationSource
  | osc9 | osc777 | osc99 | plugin
  deriving DecidableEq

structure Notification where
  source : NotificationSource
  title : Option BoundedString
  body : BoundedString
  deriving DecidableEq

inductive KittyPayloadType
  | title | body
  deriving DecidableEq

structure KittyNotificationChunk where
  id : BoundedString
  payloadType : KittyPayloadType
  payload : BoundedString
  isDone : Bool
  deriving DecidableEq

inductive ZoneKind
  | promptStart | inputStart | outputStart | outputEnd
  deriving DecidableEq

inductive PointerShape
  | default | contextMenu | help | pointer | progress | wait | cell | crosshair | text | verticalText
  | alias | copy | move | noDrop | notAllowed | grab | grabbing | eResize | nResize | neResize | nwResize
  | sResize | seResize | swResize | wResize | ewResize | nsResize | neswResize | nwseResize | colResize
  | rowResize | allScroll | zoomIn | zoomOut
  deriving DecidableEq

inductive PointerShapeOp
  | set (shape : Option PointerShape)
  | push (shapes : List PointerShape)
  | pop
  deriving DecidableEq

inductive ControlStringKind
  | osc | dcs | sos | pm | apc
  deriving DecidableEq

inductive ControlStringReject
  | overflow
  deriving DecidableEq

inductive SequenceKind
  | csi | esc | dcs
  deriving DecidableEq

structure UnrecognizedSequence where
  kind : SequenceKind
  finalByte : UInt8
  intermediates : UInt8 × UInt8
  deriving DecidableEq

/-- Where the pixels of a kitty transmission are: in the escape code, or in a named object. -/
inductive KittyMedium
  | direct | file | tempFile | sharedMemory
  deriving DecidableEq

def KittyMedium.isDirect (medium : KittyMedium) : Bool := medium = .direct

structure KittyControlKeys where
  medium : KittyMedium := .direct
  imageId : Nat := 0
  imageNumber : Nat := 0
  placementId : Nat := 0
  quiet : Nat := 0
  delete : Option Char := none
  srcX : Nat := 0
  srcY : Nat := 0
  srcW : Nat := 0
  srcH : Nat := 0
  cellXOffset : Nat := 0
  cellYOffset : Nat := 0
  zIndex : Int := 0
  unicodePlacement : Nat := 0
  parentId : Nat := 0
  parentPlacementId : Nat := 0
  parentDx : Int := 0
  parentDy : Int := 0
  dataSize : Nat := 0
  dataOffset : Nat := 0
  usageHints : Nat := 0
  deriving DecidableEq

structure KittyFontQuery where
  family : Bool := false
  size : Bool := false
  deriving DecidableEq

def KittyFontQuery.isEmpty (q : KittyFontQuery) : Bool := !q.family && !q.size

inductive Iterm2Reject
  | aborted | malformedAttribute | unknownAttribute | duplicateAttribute | badValue | zeroDimension
  | unsupportedDimension | unsupportedAspect | transmitOnly | missingPayload | badBase64
  | oversizePayload | unsupportedFormat | oversizePixels
  deriving DecidableEq

structure SixelParams where
  aspect : Nat := 0
  transparent : Bool := false

structure SixelImage where
  width : Nat
  height : Nat
  transparent : Bool
  rgba : List UInt8
  deriving DecidableEq

inductive SixelReject
  | empty
  | payloadTooLarge (bytes : Nat)
  | paletteOverflow (register : Nat)
  | dimensionsTooLarge (width height : Nat)
  | tooManyPixels (pixels : Nat)
  | imageTooLarge (bytes : Nat)
  | malformed (offset : Nat)
  deriving DecidableEq

/-- The typed interface between the parser and the terminal state. -/
inductive TerminalAction
  | print (cell : Char)
  | printControl (control : UInt8)
  | cursorMove (dir : Direction) (n : Nat)
  | cursorPosition (row col : Nat)
  | cursorSave
  | cursorRestore
  | cursorStyle (style : CursorStyle)
  | cursorVisibility (visible : Bool)
  | eraseInDisplay (mode : EraseDisplayMode)
  | eraseInLine (mode : EraseLineMode)
  | eraseChars (n : Nat)
  | insertLines (n : Nat)
  | deleteLines (n : Nat)
  | insertChars (n : Nat)
  | deleteChars (n : Nat)
  | scrollUp (n : Nat)
  | scrollDown (n : Nat)
  | setScrollRegion (top bottom : Nat)
  | setAttributes (attrs : List AttributeChange)
  | setMode (mode : Mode) (enabled : Bool)
  | tabSet
  | tabClear (targets : TabTargets)
  | tabClearAll
  | tabForward (n : Nat)
  | tabBackward (n : Nat)
  | selectCharset (slot : CharsetSlot) (table : CharsetTable)
  | invokeCharset (slot : CharsetSlot)
  | singleShiftCharset (slot : CharsetSlot)
  | enhancedKeyboard (op : EnhancedKeyboardOp)
  | modifyOtherKeys (op : ModifyOtherKeysOp)
  | requestDeviceStatus (kind : StatusKind)
  | reply (bytes : List UInt8)
  | oscTitle (text : BoundedString)
  | oscDynamicColor (target : DynamicColorTarget) (op : DynamicColorOp)
  | oscPalette (ops : List PaletteOp)
  | oscClipboard (op : ClipboardOp) (data : BoundedBytes)
  | oscCwd (url : BoundedString)
  | oscNotification (notification : Notification)
  | kittyNotificationChunk (chunk : KittyNotificationChunk)
  | oscHyperlink (link : Option Hyperlink)
  | oscPromptMark (kind : ZoneKind) (exitCode : Option Int)
  | oscPointerShape (op : PointerShapeOp)
  | oscUnknown (id : Nat) (data : BoundedBytes)
  | kittyGraphics (formatF : Nat) (widthS heightV : Option Nat) (actionA : Option Char)
      (colsC rowsR cursorMovementC : Nat) (payload : List UInt8) (control : KittyControlKeys)
  | kittyFontQuery (query : KittyFontQuery)
  | iterm2Image (cols rows : Nat) (payload : List UInt8)
  | iterm2ImageRejected (reason : Iterm2Reject)
  | sixelGraphics (image : SixelImage)
  | sixelRejected (reason : SixelReject)
  | controlStringRejected (kind : ControlStringKind) (reason : ControlStringReject)
  | unknown (sequence : UnrecognizedSequence)
  | softReset
  | fullReset
  deriving DecidableEq

end Bitty.Vt
