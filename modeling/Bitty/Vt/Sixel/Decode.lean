import Bitty.Vt.Action

/-! The sixel decoder: one walk over the payload measures it, and a second one draws. -/

namespace Bitty.Vt.Sixel

def SIXEL_MAX_PAYLOAD_BYTES : Nat := 4 * 1024 * 1024

def SIXEL_MAX_COLORS : Nat := 256

def SIXEL_MAX_WIDTH : Nat := 8192

def SIXEL_MAX_HEIGHT : Nat := 8192

def SIXEL_MAX_PIXELS : Nat := 4096 * 4096

def SIXEL_MAX_BYTES : Nat := 64 * 1024 * 1024

def SIXEL_BAND_ROWS : Nat := 6

def SIXEL_DATA_BASE : Nat := 0x3F

def U32_MAX : Nat := 2 ^ 32 - 1

def toU32 (n fallback : Nat) : Nat := if n ≤ U32_MAX then n else fallback

abbrev Color3 := UInt8 × UInt8 × UInt8

structure Palette where
  colors : Vector Color3 SIXEL_MAX_COLORS

namespace Palette

def DEFAULTS : List Color3 :=
  [(0, 0, 0), (0, 0, 170), (0, 170, 0), (0, 170, 170), (170, 0, 0), (170, 0, 170), (170, 85, 0), (170, 170, 170), (85, 85, 85),
    (85, 85, 255), (85, 255, 85), (85, 255, 255), (255, 85, 85), (255, 85, 255), (255, 255, 85), (255, 255, 255)]

def default : Palette := ⟨Vector.ofFn fun register => DEFAULTS.getD register.val (0, 0, 0)⟩

def lookup (palette : Palette) (register : Nat) : Color3 := palette.colors[register]?.getD (0, 0, 0)

end Palette

/-- One data byte after its repeat: identical strips of six pixels from column `x` rightwards, bit 0 at row `y`. -/
structure Cell where
  x : Nat
  y : Nat
  repeats : Nat
  bits : Nat
  color : Nat
  deriving DecidableEq

structure Extent where
  width : Nat := 0
  height : Nat := 0
  cells : Nat := 0

structure Walk (σ : Type) where
  x : Nat := 0
  y : Nat := 0
  color : Nat := 0
  repeats : Nat := 1
  palette : Palette := Palette.default
  extent : Extent := {}
  sink : σ

abbrev Position := Nat × List UInt8

/-- The digits of a number, which saturates at 32 bits. -/
def digits : Nat → Nat → List UInt8 → Nat × Position
  | value, index, [] => (value, index, [])
  | value, index, byte :: rest =>
    if 0x30 ≤ byte.toNat ∧ byte.toNat ≤ 0x39 then
      digits (min (min (value * 10) U32_MAX + (byte.toNat - 0x30)) U32_MAX) (index + 1) rest
    else (value, index, byte :: rest)

def parseNumber (start : Position) : Except SixelReject (Nat × Position) :=
  let (value, stop) := digits 0 start.1 start.2
  if stop.1 = start.1 then .error (.malformed start.1) else .ok (value, stop)

def definition : Nat → List Nat → Position → Except SixelReject (List Nat × Position)
  | room, values, (index, 0x3B :: rest) =>
    match room with
    | 0 => .error (.malformed (index + 1))
    | room + 1 => do
      let (value, next) ← parseNumber (index + 1, rest)
      definition room (values ++ [value]) next
  | _, values, position => .ok (values, position)

def attributes : Nat → List Nat → Position → Except SixelReject (List Nat × Position)
  | 0, _, (index, _) => .error (.malformed index)
  | room + 1, values, position => do
    let (value, next) ← parseNumber position
    match next with
    | (index, 0x3B :: rest) => attributes room (values ++ [value]) (index + 1, rest)
    | _ => return (values ++ [value], next)

def percentToByte (value : Nat) : UInt8 := UInt8.ofNat ((min value 100 * 255 + 50) / 100)

variable (hlsToRgb : Nat → Nat → Nat → Color3) {σ : Type} (sink : σ → Palette → Cell → σ)

/-- A definition in percent of red, green and blue, or in hue, lightness and saturation. -/
def defineColor (palette : Palette) (register : Nat) (values : List Nat) : Palette :=
  let first := values.getD 1 0
  let second := values.getD 2 0
  let third := values.getD 3 0
  let rgb :=
    if values.getD 0 0 = 1 then hlsToRgb first second third
    else (percentToByte first, percentToByte second, percentToByte third)
  ⟨palette.colors.setIfInBounds register rgb⟩

def selectColor (w : Walk σ) (position : Position) : Except SixelReject (Walk σ × Position) := do
  let (register, next) ← parseNumber position
  if SIXEL_MAX_COLORS ≤ register then throw (.paletteOverflow register)
  let w := { w with color := register }
  if next.2.head? = some 0x3B then
    let (values, next) ← definition 4 [] next
    if values.length ≠ 4 then throw (.malformed next.1)
    return ({ w with palette := defineColor hlsToRgb w.palette register values }, next)
  else return (w, next)

def rasterAttributes (w : Walk σ) (position : Position) : Except SixelReject (Walk σ × Position) := do
  let (values, next) ← attributes 4 [] position
  if values.length ≠ 4 then throw (.malformed next.1)
  let declaredWidth := values.getD 2 0
  let declaredHeight := values.getD 3 0
  if SIXEL_MAX_WIDTH < declaredWidth ∨ SIXEL_MAX_HEIGHT < declaredHeight then
    throw (.dimensionsTooLarge declaredWidth declaredHeight)
  return (w, next)

def graphicsNewline (w : Walk σ) : Except SixelReject (Walk σ) :=
  let next := w.y + SIXEL_BAND_ROWS
  if SIXEL_MAX_HEIGHT < next then .error (.dimensionsTooLarge 0 (toU32 next U32_MAX))
  else .ok { w with y := toU32 next SIXEL_MAX_HEIGHT, x := 0, repeats := 1 }

/-- A data byte is measured and handed to the sink, once its strips are known to fit. -/
def sixelData (bits : Nat) (w : Walk σ) : Except SixelReject (Walk σ) :=
  let columns := w.x + w.repeats
  let bandEnd := w.y + SIXEL_BAND_ROWS
  if SIXEL_MAX_WIDTH < columns ∨ SIXEL_MAX_HEIGHT < bandEnd then
    .error (.dimensionsTooLarge (toU32 columns U32_MAX) (toU32 bandEnd U32_MAX))
  else
    let rows := Nat.log2 bits + 1
    let extent : Extent :=
      { width := max w.extent.width (toU32 columns SIXEL_MAX_WIDTH)
        height := if bits ≠ 0 then max w.extent.height (min (w.y + rows) U32_MAX) else w.extent.height
        cells := w.extent.cells + 1 }
    let cell : Cell := ⟨w.x, w.y, w.repeats, bits, w.color⟩
    .ok { w with extent := extent, sink := sink w.sink w.palette cell, x := toU32 columns SIXEL_MAX_WIDTH, repeats := 1 }

def walkByte (byte : UInt8) (index : Nat) (rest : List UInt8) (w : Walk σ) : Except SixelReject (Walk σ × Position) :=
  let next : Position := (index + 1, rest)
  match byte.toNat with
  | 0x23 => selectColor hlsToRgb w next
  | 0x22 => rasterAttributes w next
  | 0x21 => (parseNumber next).map fun (repeats, next) => ({ w with repeats := repeats }, next)
  | 0x24 => .ok ({ w with x := 0, repeats := 1 }, next)
  | 0x2D => (graphicsNewline w).map fun w => (w, next)
  | 0x0D | 0x0A => .ok (w, next)
  | n =>
    if SIXEL_DATA_BASE ≤ n ∧ n ≤ 0x7E then (sixelData sink (n - SIXEL_DATA_BASE) w).map fun w => (w, next)
    else .error (.malformed index)

/-- The bytes of a payload, one after another; every turn takes at least one byte. -/
def walkLoop : Nat → Position → Walk σ → Except SixelReject (Walk σ)
  | _, (_, []), w => .ok w
  | 0, (_, _ :: _), w => .ok w
  | turns + 1, (index, byte :: rest), w => do
    let (w, position) ← walkByte hlsToRgb sink byte index rest w
    walkLoop turns position w

def walk (payload : List UInt8) (start : σ) : Except SixelReject (Walk σ) :=
  walkLoop hlsToRgb sink payload.length (0, payload) { sink := start }

def measure (payload : List UInt8) : Except SixelReject Extent := do
  if SIXEL_MAX_PAYLOAD_BYTES < payload.length then throw (.payloadTooLarge payload.length)
  if payload.isEmpty then throw .empty
  let measured ← walk hlsToRgb (fun _ _ _ => ()) payload ()
  let extent := measured.extent
  if extent.cells = 0 ∨ extent.width = 0 ∨ extent.height = 0 then throw .empty
  let pixels := extent.width * extent.height
  if SIXEL_MAX_PIXELS < pixels then throw (.tooManyPixels pixels)
  let bytes := pixels * 4
  if SIXEL_MAX_BYTES < bytes then throw (.imageTooLarge bytes)
  return extent

/-- Four bytes of the buffer, unless they lie past its end. -/
def setPixel (rgba : List UInt8) (pixel : Nat) (rgb : Color3) : List UInt8 :=
  let offset := pixel * 4
  if offset + 4 ≤ rgba.length then rgba.take offset ++ [rgb.1, rgb.2.1, rgb.2.2, 255] ++ rgba.drop (offset + 4) else rgba

def draw (width : Nat) (rgba : List UInt8) (palette : Palette) (cell : Cell) : List UInt8 :=
  let rgb := palette.lookup cell.color
  (List.range 6).foldl (fun rgba bit =>
    if cell.bits.testBit bit then
      (List.range cell.repeats).foldl (fun rgba step => setPixel rgba ((cell.y + bit) * width + (cell.x + step)) rgb) rgba
    else rgba) rgba

/-- The second pass: the image, and the extent that this pass measures once more. -/
def render (payload : List UInt8) (params : SixelParams) (extent : Extent) : Except SixelReject (SixelImage × Extent) := do
  let rgba := List.replicate (extent.width * extent.height * 4) 0
  let drawn ← walk hlsToRgb (draw extent.width) payload rgba
  return (⟨extent.width, extent.height, params.transparent, drawn.sink⟩, drawn.extent)

def decodeSixel (payload : List UInt8) (params : SixelParams) : Except SixelReject SixelImage := do
  let extent ← measure hlsToRgb payload
  let (image, _) ← render hlsToRgb payload params extent
  return image

end Bitty.Vt.Sixel
