import Bitty.Vt.Kitty.Control

namespace Bitty.Vt

def ITERM2_OSC_PREFIX : List UInt8 := bytesOf "1337;File="
def ITERM2_OSC_MAX_WIRE_BYTES : Nat := 4 * 1024 * 1024
def ITERM2_OSC_MAX_DECODED_BYTES : Nat := 3 * 1024 * 1024
def ITERM2_OSC_MAX_ATTRIBUTE_BYTES : Nat := 4096
def ITERM2_OSC_MAX_BODY_BYTES : Nat := ITERM2_OSC_MAX_ATTRIBUTE_BYTES + 1 + ITERM2_OSC_MAX_WIRE_BYTES
def ITERM2_OSC_MAX_NAME_BYTES : Nat := 256
def ITERM2_OSC_MAX_CELL_SPAN : Nat := 4096
def ITERM2_DECODE_MAX_DIMENSION : Nat := 8192
def ITERM2_DECODE_MAX_PIXELS : Nat := 4096 * 4096

/-- One admitted request: requested cell span plus decoded PNG bytes. -/
structure Iterm2Request where
  cols : Nat
  rows : Nat
  payload : List UInt8
  deriving DecidableEq

namespace Iterm2

def decodeReject (reject : KittyApcReject) : Iterm2Reject :=
  if reject = .oversize then .oversizePayload else .badBase64

def decodeWith (encoded : List UInt8) (limit : Nat) : Except Iterm2Reject (List UInt8) :=
  match (do
    let (decoder, output) ← ({} : Base64Stream).push encoded {} limit
    decoder.finish output limit : Except KittyApcReject (Base64Stream × Buffer)) with
  | .ok (_, output) => .ok output.bytes
  | .error reason => .error (decodeReject reason)

/-- The value of a nonempty run of ASCII digits, if it is at most `limit`. -/
def digits (limit : Nat) (value : List UInt8) : Option Nat :=
  if value = [] ∨ ¬(value.all fun b => 0x30 ≤ b ∧ b ≤ 0x39) then none
  else
    let n := value.foldl (fun acc b => acc * 10 + (b.toNat - 0x30)) 0
    if n ≤ limit then some n else none

def validateName (value : List UInt8) : Except Iterm2Reject Unit :=
  if value = [] then .ok ()
  else match decodeWith value ITERM2_OSC_MAX_NAME_BYTES with
    | .ok _ => .ok ()
    | .error _ => .error .badValue

def validateSize (value : List UInt8) : Except Iterm2Reject Unit :=
  if (digits (2 ^ 64 - 1) value).isSome then .ok () else .error .badValue

/-- Parses `auto` or a cell count; other units are refused. -/
def parseDimension (value : List UInt8) : Except Iterm2Reject Nat :=
  if value = bytesOf "auto" then .ok 0
  else if bytesOf "px" <:+ value ∨ bytesOf "%" <:+ value then .error .unsupportedDimension
  else match digits (2 ^ 32 - 1) value with
    | none => .error .unsupportedDimension
    | some cells =>
      if cells = 0 then .error .zeroDimension
      else if cells > ITERM2_OSC_MAX_CELL_SPAN then .error .unsupportedDimension
      else .ok cells

/-- The variables of the loop of `parse_attributes`; `seen` lists the attributes met so far. -/
structure Attributes where
  cols : Nat := 0
  rows : Nat := 0
  seen : List (List UInt8) := []
  inlineAdmitted : Bool := false

def parsePair (a : Attributes) (pair : List UInt8) : Except Iterm2Reject Attributes :=
  match splitAtByte 0x3D pair with
  | none => .error .malformedAttribute
  | some (key, value) =>
    if key ∉ [bytesOf "name", bytesOf "size", bytesOf "width", bytesOf "height",
        bytesOf "preserveAspectRatio", bytesOf "inline"] then .error .unknownAttribute
    else if key ∈ a.seen then .error .duplicateAttribute
    else
      let a := { a with seen := key :: a.seen }
      if key = bytesOf "name" then do
        validateName value
        return a
      else if key = bytesOf "size" then do
        validateSize value
        return a
      else if key = bytesOf "width" then return { a with cols := ← parseDimension value }
      else if key = bytesOf "height" then return { a with rows := ← parseDimension value }
      else if key = bytesOf "preserveAspectRatio" then
        if value = bytesOf "1" then .ok a
        else if value = bytesOf "0" then .error .unsupportedAspect
        else .error .badValue
      else
        if value = bytesOf "1" then .ok { a with inlineAdmitted := true }
        else if value = bytesOf "0" then .error .transmitOnly
        else .error .badValue

/-- Parses the `;`-separated attribute list into the admitted cell span. -/
def parseAttributes (header : List UInt8) : Except Iterm2Reject (Nat × Nat) :=
  if header.length > ITERM2_OSC_MAX_ATTRIBUTE_BYTES then .error .malformedAttribute
  else if header = [] then .error .transmitOnly
  else do
    let a ← (header.splitOn 0x3B).foldlM parsePair {}
    if a.inlineAdmitted then return (a.cols, a.rows) else .error .transmitOnly

def decodePayload (encoded : List UInt8) : Except Iterm2Reject (List UInt8) :=
  if encoded = [] then .error .missingPayload
  else if encoded.length > ITERM2_OSC_MAX_WIRE_BYTES then .error .oversizePayload
  else decodeWith encoded ITERM2_OSC_MAX_DECODED_BYTES

/-- `u32::from_be_bytes` of the four bytes at `offset`. -/
def bigEndian (payload : List UInt8) (offset : Nat) : Nat :=
  ((payload.drop offset).take 4).foldl (fun acc b => acc * 256 + b.toNat) 0

/-- Admits PNG only and validates `IHDR`. -/
def validatePng (payload : List UInt8) : Except Iterm2Reject Unit :=
  if payload.length < 33 ∨ payload.take 8 ≠ [0x89, 0x50, 0x4E, 0x47, 0x0D, 0x0A, 0x1A, 0x0A] ∨
      (payload.drop 12).take 4 ≠ bytesOf "IHDR" then .error .unsupportedFormat
  else if bigEndian payload 8 ≠ 13 then .error .unsupportedFormat
  else
    let width := bigEndian payload 16
    let height := bigEndian payload 20
    if width = 0 ∨ height = 0 then .error .zeroDimension
    else if width > ITERM2_DECODE_MAX_DIMENSION ∨ height > ITERM2_DECODE_MAX_DIMENSION ∨
        width * height > ITERM2_DECODE_MAX_PIXELS then .error .oversizePixels
    else .ok ()

/-- Parses the collected `<attrs>:<base64>` body. -/
def parseBody (body : List UInt8) : Except Iterm2Reject Iterm2Request :=
  match splitAtByte 0x3A body with
  | none => .error .missingPayload
  | some (header, encoded) => do
    let (cols, rows) ← parseAttributes header
    let payload ← decodePayload encoded
    validatePng payload
    return { cols, rows, payload }

end Iterm2

inductive ScanState
  | idle
  | probe
  | collect
  | awaitSt
  deriving DecidableEq

inductive OscOutcome
  | consumed
  | passThrough
  | finished
  | finishedThenPassThrough

/-- Byte-level detector and collector for `OSC 1337;File=`. -/
structure Iterm2OscScanner where
  state : ScanState := .idle
  matched : Nat := 0
  body : List UInt8 := []
  rejecting : Option Iterm2Reject := none
  replay : List UInt8 := []
  finished : Option (Except Iterm2Reject Iterm2Request) := none
  deriving DecidableEq

namespace Iterm2OscScanner

def isActive (s : Iterm2OscScanner) : Bool := s.state ≠ .idle

def isCollecting (s : Iterm2OscScanner) : Bool := s.state = .collect ∨ s.state = .awaitSt

/-- Opens a candidate after the caller consumed `ESC ]`. -/
def begin (_ : Iterm2OscScanner) : Iterm2OscScanner := { state := .probe }

def clearReplay (s : Iterm2OscScanner) : Iterm2OscScanner := { s with replay := [] }

def pushBody (s : Iterm2OscScanner) (byte : UInt8) : Iterm2OscScanner :=
  if s.rejecting.isSome then s
  else if s.body.length ≥ ITERM2_OSC_MAX_BODY_BYTES then { s with rejecting := some .oversizePayload, body := [] }
  else { s with body := s.body ++ [byte] }

def finish (s : Iterm2OscScanner) (forced : Option Iterm2Reject) : Iterm2OscScanner :=
  let result := match forced.or s.rejecting with
    | some reason => .error reason
    | none => Iterm2.parseBody s.body
  { s with state := .idle, matched := 0, rejecting := none, body := [], finished := some result }

def push (s : Iterm2OscScanner) (byte : UInt8) : Iterm2OscScanner × OscOutcome :=
  match s.state with
  | .idle => (s, .consumed)
  | .probe =>
    if ITERM2_OSC_PREFIX[s.matched]? = some byte then
      let matched := s.matched + 1
      ({ s with matched, state := if matched = ITERM2_OSC_PREFIX.length then .collect else .probe }, .consumed)
    else
      ({ s with state := .idle, replay := [0x1B, 0x5D] ++ ITERM2_OSC_PREFIX.take s.matched }, .passThrough)
  | .collect =>
    if byte = 0x07 then (s.finish none, .finished)
    else if byte = 0x1B then ({ s with state := .awaitSt }, .consumed)
    else if byte = 0x18 ∨ byte = 0x1A then (s.finish (some (s.rejecting.getD .aborted)), .finished)
    else (s.pushBody byte, .consumed)
  | .awaitSt =>
    if byte = 0x5C then (s.finish none, .finished)
    else ({ s.finish (some (s.rejecting.getD .aborted)) with replay := [0x1B] }, .finishedThenPassThrough)

theorem push_idle (s : Iterm2OscScanner) (byte : UInt8) (past : (s.push byte).2 ≠ .consumed) :
    (s.push byte).1.state = .idle := by
  unfold push at past ⊢
  cases state : s.state with
  | idle => exact state
  | probe =>
    simp only [state] at past ⊢
    split_ifs at past ⊢ <;> first | rfl | exact absurd rfl past
  | collect =>
    simp only [state] at past ⊢
    split_ifs at past ⊢ <;> first | rfl | exact absurd rfl past
  | awaitSt =>
    dsimp only
    split_ifs <;> rfl

end Iterm2OscScanner

def finishIterm2 (result : Option (Except Iterm2Reject Iterm2Request)) : List TerminalAction :=
  match result with
  | some (.ok request) => [.iterm2Image request.cols request.rows request.payload]
  | some (.error reason) => [.iterm2ImageRejected reason]
  | none => []

end Bitty.Vt
