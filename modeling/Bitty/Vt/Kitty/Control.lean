import Bitty.Vt.Action
import Bitty.Vt.Kitty.Base64

namespace Bitty.Vt

def bytesOf (text : String) : List UInt8 := text.toList.map (fun c => UInt8.ofNat c.toNat)

/-- `char::from` on a byte. -/
def charOf (byte : UInt8) : Char := Char.ofNat byte.toNat

def KITTY_APC_LEDGER_CAP : Nat := 4 * 1024 * 1024
def KITTY_APC_MAX_CONTROL_BYTES : Nat := 4096
def KITTY_APC_STALL_MAX_BYTES : Nat := 64 * 1024
def KITTY_APC_DECODE_MAX_DIMENSION : Nat := 8192
def KITTY_APC_DECODE_MAX_PIXELS : Nat := 4096 * 4096
def KITTY_APC_DECODE_MAX_BYTES : Nat := 64 * 1024 * 1024
def KITTY_APC_PATH_MAX_BYTES : Nat := 4096
def KITTY_APC_SHM_NAME_MAX : Nat := 255

def splitAtByte (separator : UInt8) (piece : List UInt8) : Option (List UInt8 × List UInt8) :=
  if separator ∈ piece then
    some (piece.takeWhile (· ≠ separator), (piece.dropWhile (· ≠ separator)).drop 1)
  else none

/-- Strict ASCII decimal of at most `width` digits and value at most `limit`. -/
def parseUnsigned (width limit : Nat) (value : List UInt8) : Option Nat :=
  if value = [] ∨ value.length > width then none
  else value.foldlM (fun acc b =>
    if 0x30 ≤ b ∧ b ≤ 0x39 ∧ acc * 10 + (b.toNat - 0x30) ≤ limit then some (acc * 10 + (b.toNat - 0x30))
    else none) 0

def parseU32 : List UInt8 → Option Nat := parseUnsigned 10 (2 ^ 32 - 1)
def parseU16 : List UInt8 → Option Nat := parseUnsigned 5 (2 ^ 16 - 1)
def parseU8 : List UInt8 → Option Nat := parseUnsigned 3 (2 ^ 8 - 1)

def parseI32 (value : List UInt8) : Option Int :=
  match value with
  | 0x2D :: digits =>
    if digits = bytesOf "2147483648" then some (-2147483648)
    else (parseUnsigned 10 (2 ^ 31 - 1) digits).map (fun n => -(n : Int))
  | digits => (parseUnsigned 10 (2 ^ 31 - 1) digits).map (fun n => (n : Int))

structure KittyApcParams where
  formatF : Nat
  widthS : Option Nat
  heightV : Option Nat
  actionA : Option Char
  colsC : Nat
  rowsR : Nat
  cursorMovementC : Nat
  more : Bool
  compressed : Bool
  keys : KittyControlKeys

def carriesData (action : Option Char) : Bool :=
  action = none ∨ action = some 'T' ∨ action = some 't' ∨ action = some 'f' ∨ action = some 'q'

def KittyApcParams.carriesData (params : KittyApcParams) : Bool := Vt.carriesData params.actionA

/-- The variables of the loop of `parse_control`. -/
structure ControlFields where
  formatF : Option Nat := none
  widthS : Option Nat := none
  heightV : Option Nat := none
  actionA : Option Char := none
  colsC : Nat := 0
  rowsR : Nat := 0
  cursorMovementC : Nat := 0
  more : Bool := false
  compressed : Bool := false
  keys : KittyControlKeys := {}

def numeric {α : Type*} (value : Option α) : Except KittyApcReject α :=
  match value with
  | some n => .ok n
  | none => .error .malformedControl

def oneChar (reject : KittyApcReject) (value : List UInt8) : Except KittyApcReject (Option Char) :=
  match value with
  | [] => .ok none
  | [single] => .ok (some (charOf single))
  | _ => .error reject

def parseMore (value : List UInt8) : Except KittyApcReject Bool :=
  if value = bytesOf "0" then .ok false
  else if value = bytesOf "1" then .ok true
  else .error .badMore

def parseMedium (value : List UInt8) : Except KittyApcReject KittyMedium :=
  if value = bytesOf "d" then .ok .direct
  else if value = bytesOf "f" then .ok .file
  else if value = bytesOf "t" then .ok .tempFile
  else if value = bytesOf "s" then .ok .sharedMemory
  else .error .malformedControl

def setField (f : ControlFields) (key : Char) (value : List UInt8) : Except KittyApcReject ControlFields :=
  match key with
  | 'f' => return { f with formatF := some (← numeric (parseU32 value)) }
  | 's' => return { f with widthS := some (← numeric (parseU32 value)) }
  | 'v' => return { f with heightV := some (← numeric (parseU32 value)) }
  | 'a' => return { f with actionA := ← oneChar .badAction value }
  | 'c' => return { f with colsC := ← numeric (parseU16 value) }
  | 'r' => return { f with rowsR := ← numeric (parseU16 value) }
  | 'C' => return { f with cursorMovementC := ← numeric (parseU8 value) }
  | 'm' => return { f with more := ← parseMore value }
  | 'o' =>
    if value = [] then return { f with compressed := false }
    else if value = bytesOf "z" then return { f with compressed := true }
    else .error .malformedControl
  | 't' => return { f with keys.medium := ← parseMedium value }
  | 'i' => return { f with keys.imageId := ← numeric (parseU32 value) }
  | 'I' => return { f with keys.imageNumber := ← numeric (parseU32 value) }
  | 'p' => return { f with keys.placementId := ← numeric (parseU32 value) }
  | 'q' => return { f with keys.quiet := ← numeric (parseU8 value) }
  | 'd' => return { f with keys.delete := ← oneChar .malformedControl value }
  | 'x' => return { f with keys.srcX := ← numeric (parseU32 value) }
  | 'y' => return { f with keys.srcY := ← numeric (parseU32 value) }
  | 'w' => return { f with keys.srcW := ← numeric (parseU32 value) }
  | 'h' => return { f with keys.srcH := ← numeric (parseU32 value) }
  | 'X' => return { f with keys.cellXOffset := ← numeric (parseU32 value) }
  | 'Y' => return { f with keys.cellYOffset := ← numeric (parseU32 value) }
  | 'z' => return { f with keys.zIndex := ← numeric (parseI32 value) }
  | 'U' => return { f with keys.unicodePlacement := ← numeric (parseU8 value) }
  | 'P' => return { f with keys.parentId := ← numeric (parseU32 value) }
  | 'Q' => return { f with keys.parentPlacementId := ← numeric (parseU32 value) }
  | 'H' => return { f with keys.parentDx := ← numeric (parseI32 value) }
  | 'V' => return { f with keys.parentDy := ← numeric (parseI32 value) }
  | 'S' => return { f with keys.dataSize := ← numeric (parseU32 value) }
  | 'O' => return { f with keys.dataOffset := ← numeric (parseU32 value) }
  | 'N' => return { f with keys.usageHints := ← numeric (parseU32 value) }
  | _ => return f

/-- One `key=value` piece; empty pieces and multi-letter keys are skipped. -/
def parsePiece (f : ControlFields) (piece : List UInt8) : Except KittyApcReject ControlFields :=
  if piece = [] then .ok f
  else match splitAtByte 0x3D piece with
    | none => .error .malformedControl
    | some ([key], value) => setField f (charOf key) value
    | some _ => .ok f

/-- Parses the `G` control section. -/
def parseControl (control : List UInt8) : Except KittyApcReject KittyApcParams :=
  if control = [] then .error .missingFormat
  else do
    let f ← (control.splitOn 0x2C).foldlM parsePiece {}
    if f.keys.imageId ≠ 0 ∧ f.keys.imageNumber ≠ 0 then .error .malformedControl
    else if f.actionA = some 'q' ∧ f.keys.quiet > 2 then .error .malformedControl
    else
      let formatF ← match f.formatF, carriesData f.actionA with
        | some format, _ => .ok format
        | none, false => .ok 0
        | none, true => .error .missingFormat
      return {
        formatF, widthS := f.widthS, heightV := f.heightV, actionA := f.actionA, colsC := f.colsC
        rowsR := f.rowsR, cursorMovementC := f.cursorMovementC, more := f.more
        compressed := f.compressed, keys := f.keys }

structure Continuation where
  more : Option Bool := none
  delete : Bool := false
  action : Option Char := none
  deriving DecidableEq

def continuationPiece (flags : Continuation) (piece : List UInt8) : Except KittyApcReject Continuation :=
  match splitAtByte 0x3D piece with
  | none => .ok flags
  | some (key, value) =>
    if key = bytesOf "m" then return { flags with more := some (← parseMore value) }
    else if key = bytesOf "a" ∧ value = bytesOf "d" then .ok { flags with delete := true }
    else if key = bytesOf "a" then return { flags with action := ← oneChar .badAction value }
    else .ok flags

/-- Scans a continuation control section for `m=`, `a=d`, and an explicit action. -/
def continuationFlags (control : List UInt8) : Except KittyApcReject Continuation :=
  (control.splitOn 0x2C).foldlM continuationPiece {}

def validateKittyPath (medium : KittyMedium) (name : List UInt8) : Except KittyApcReject Unit :=
  if name = [] ∨ name.length > KITTY_APC_PATH_MAX_BYTES ∨ 0 ∈ name then .error .badPath
  else match medium with
    | .direct => .ok ()
    | .sharedMemory =>
      if name.length ≥ 2 ∧ name.length ≤ KITTY_APC_SHM_NAME_MAX ∧ name.head? = some 0x2F ∧ 0x2F ∉ name.drop 1 then
        .ok ()
      else .error .badPath
    | _ =>
      if medium = .tempFile ∧ ¬bytesOf "tty-graphics-protocol" <:+: name then .error .badPath
      else if bytesOf ".." ∈ name.splitOn 0x2F then .error .badPath
      else .ok ()

def rawClaimBytes (formatF : Nat) (widthS heightV : Option Nat) (payloadCap : Nat) :
    Except KittyApcReject (Option Nat) :=
  if formatF ≠ 24 ∧ formatF ≠ 32 then .ok none
  else
    let channels := if formatF = 24 then 3 else 4
    match widthS, heightV with
    | some w, some h =>
      if w = 0 ∨ h = 0 then .ok none
      else if w > KITTY_APC_DECODE_MAX_DIMENSION ∨ h > KITTY_APC_DECODE_MAX_DIMENSION then .error .oversizeClaim
      else if w * h > KITTY_APC_DECODE_MAX_PIXELS then .error .oversizeClaim
      else if w * h * channels ≤ payloadCap then .ok (some (w * h * channels))
      else .error .oversizeClaim
    | _, _ => .ok none

def validateRawClaim (formatF : Nat) (widthS heightV : Option Nat) (payloadCap : Nat) : Except KittyApcReject Unit :=
  (rawClaimBytes formatF widthS heightV payloadCap).map (fun _ => ())

end Bitty.Vt

namespace Bitty.Vt

def KITTY_FONT_QUERY_WIRE_MAX_BYTES : Nat := 512
def KITTY_FONT_QUERY_DECODED_MAX_BYTES : Nat := 128
def KITTY_FONT_QUERY_MAX_KEYS : Nat := 8

def hexNibble (byte : UInt8) : Option Nat :=
  if 0x30 ≤ byte ∧ byte ≤ 0x39 then some (byte.toNat - 0x30)
  else if 0x61 ≤ byte ∧ byte ≤ 0x66 then some (byte.toNat - 0x61 + 10)
  else if 0x41 ≤ byte ∧ byte ≤ 0x46 then some (byte.toNat - 0x41 + 10)
  else none

def decodeHexPairs : List UInt8 → Option (List UInt8)
  | [] => some []
  | [_] => none
  | hi :: lo :: rest => do
    let high ← hexNibble hi
    let low ← hexNibble lo
    let later ← decodeHexPairs rest
    return UInt8.ofNat (high * 16 + low) :: later

def decodeHex (token : List UInt8) : Option (List UInt8) :=
  if token.length % 2 ≠ 0 ∨ token.length / 2 > KITTY_FONT_QUERY_DECODED_MAX_BYTES then none
  else decodeHexPairs token

def noteKey (out : KittyFontQuery) (token : List UInt8) : KittyFontQuery :=
  if token = bytesOf "kitty-query-font_family" then { out with family := true }
  else if token = bytesOf "kitty-query-font_size" then { out with size := true }
  else out

/-- Parses the payload body after the `+q` introducer. -/
def parseKittyFontQueryBody (body : List UInt8) : Option KittyFontQuery := do
  if body = [] ∨ body.length > KITTY_FONT_QUERY_WIRE_MAX_BYTES then none
  else
    let query ←
      if 0x3B ∈ body then
        ((body.splitOn 0x3B).take KITTY_FONT_QUERY_MAX_KEYS).foldlM
          (fun query token => (decodeHex token).map (noteKey query)) ({} : KittyFontQuery)
      else (decodeHex body).map (fun decoded => (decoded.splitOn 0x3B).foldl noteKey {})
    if query.isEmpty then none else some query

/-- Parses a raw APC payload beginning with `+q`. -/
def parseKittyFontQuery : List UInt8 → Option KittyFontQuery
  | 0x2B :: 0x71 :: body => parseKittyFontQueryBody body
  | _ => none

def asciiLower (byte : UInt8) : UInt8 := if 0x41 ≤ byte ∧ byte ≤ 0x5A then byte + 0x20 else byte

/-- Whether a DCS `+q` payload starts with the hex of `kitty-query-`. -/
def looksLikeKittyFontQuery (body : List UInt8) : Bool :=
  bytesOf "6b697474792d71756572792d" <+: body.map asciiLower

inductive DcsQueryClass
  | font (query : KittyFontQuery)
  | reservedFont
  | xtgettcap

def classifyDcsQueryBody (body : List UInt8) : DcsQueryClass :=
  match parseKittyFontQueryBody body with
  | some query => .font query
  | none => if body = [] ∨ looksLikeKittyFontQuery body then .reservedFont else .xtgettcap

end Bitty.Vt
