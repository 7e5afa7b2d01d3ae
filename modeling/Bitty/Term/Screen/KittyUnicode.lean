import Bitty.Term.Screen.State

/-! Image placeholders in the grid: the tile that a cell shows, and the runs of such cells in a row. -/

namespace Bitty.Screen

open Bitty.Vt

structure KittyUnicodeId where
  imageId : Nat
  placementId : Option Nat
  row : Nat
  col : Nat
  deriving DecidableEq

structure KittyUnicodeCell where
  gridRow : Nat
  gridCol : Nat
  id : KittyUnicodeId
  deriving DecidableEq

abbrev KittyUnicodeRunCells := List KittyUnicodeCell × Nat × Option Nat

def colorIdFragment : Option Color → Nat
  | none | some .default => 0
  | some (.indexed i) => i.toNat
  | some (.rgb ⟨r, g, b⟩) => r.toNat * 2 ^ 16 + g.toNat * 2 ^ 8 + b.toNat

def kittyPlacementId (underlineColor : Option Color) : Option Nat :=
  let fragment := colorIdFragment underlineColor
  if fragment = 0 then none else some fragment

def ROWCOLUMN_DIACRITICS : List Nat :=
  [0x0305, 0x030D, 0x030E, 0x0310, 0x0312, 0x033D, 0x033E, 0x033F, 0x0346, 0x034A, 0x034B, 0x034C, 0x0350, 0x0351, 0x0352,
    0x0357, 0x035B, 0x0363, 0x0364, 0x0365, 0x0366, 0x0367, 0x0368, 0x0369, 0x036A, 0x036B, 0x036C, 0x036D, 0x036E, 0x036F,
    0x0483, 0x0484, 0x0485, 0x0486, 0x0487, 0x0592, 0x0593, 0x0594, 0x0595, 0x0597, 0x0598, 0x0599, 0x059C, 0x059D, 0x059E,
    0x059F, 0x05A0, 0x05A1, 0x05A8, 0x05A9, 0x05AB, 0x05AC, 0x05AF, 0x05C4, 0x0610, 0x0611, 0x0612, 0x0613, 0x0614, 0x0615,
    0x0616, 0x0617, 0x0657, 0x0658, 0x0659, 0x065A, 0x065B, 0x065D, 0x065E, 0x06D6, 0x06D7, 0x06D8, 0x06D9, 0x06DA, 0x06DB,
    0x06DC, 0x06DF, 0x06E0, 0x06E1, 0x06E2, 0x06E4, 0x06E7, 0x06E8, 0x06EB, 0x06EC, 0x0730, 0x0732, 0x0733, 0x0735, 0x0736,
    0x073A, 0x073D, 0x073F, 0x0740, 0x0741, 0x0743, 0x0745, 0x0747, 0x0749, 0x074A, 0x07EB, 0x07EC, 0x07ED, 0x07EE, 0x07EF,
    0x07F0, 0x07F1, 0x07F3, 0x0816, 0x0817, 0x0818, 0x0819, 0x081B, 0x081C, 0x081D, 0x081E, 0x081F, 0x0820, 0x0821, 0x0822,
    0x0823, 0x0825, 0x0826, 0x0827, 0x0829, 0x082A, 0x082B, 0x082C, 0x082D, 0x0951, 0x0953, 0x0954, 0x0F82, 0x0F83, 0x0F86,
    0x0F87, 0x135D, 0x135E, 0x135F, 0x17DD, 0x193A, 0x1A17, 0x1A75, 0x1A76, 0x1A77, 0x1A78, 0x1A79, 0x1A7A, 0x1A7B, 0x1A7C,
    0x1B6B, 0x1B6D, 0x1B6E, 0x1B6F, 0x1B70, 0x1B71, 0x1B72, 0x1B73, 0x1CD0, 0x1CD1, 0x1CD2, 0x1CDA, 0x1CDB, 0x1CE0, 0x1DC0,
    0x1DC1, 0x1DC3, 0x1DC4, 0x1DC5, 0x1DC6, 0x1DC7, 0x1DC8, 0x1DC9, 0x1DCB, 0x1DCC, 0x1DD1, 0x1DD2, 0x1DD3, 0x1DD4, 0x1DD5,
    0x1DD6, 0x1DD7, 0x1DD8, 0x1DD9, 0x1DDA, 0x1DDB, 0x1DDC, 0x1DDD, 0x1DDE, 0x1DDF, 0x1DE0, 0x1DE1, 0x1DE2, 0x1DE3, 0x1DE4,
    0x1DE5, 0x1DE6, 0x1DFE, 0x20D0, 0x20D1, 0x20D4, 0x20D5, 0x20D6, 0x20D7, 0x20DB, 0x20DC, 0x20E1, 0x20E7, 0x20E9, 0x20F0,
    0x2CEF, 0x2CF0, 0x2CF1, 0x2DE0, 0x2DE1, 0x2DE2, 0x2DE3, 0x2DE4, 0x2DE5, 0x2DE6, 0x2DE7, 0x2DE8, 0x2DE9, 0x2DEA, 0x2DEB,
    0x2DEC, 0x2DED, 0x2DEE, 0x2DEF, 0x2DF0, 0x2DF1, 0x2DF2, 0x2DF3, 0x2DF4, 0x2DF5, 0x2DF6, 0x2DF7, 0x2DF8, 0x2DF9, 0x2DFA,
    0x2DFB, 0x2DFC, 0x2DFD, 0x2DFE, 0x2DFF, 0xA66F, 0xA67C, 0xA67D, 0xA6F0, 0xA6F1, 0xA8E0, 0xA8E1, 0xA8E2, 0xA8E3, 0xA8E4,
    0xA8E5, 0xA8E6, 0xA8E7, 0xA8E8, 0xA8E9, 0xA8EA, 0xA8EB, 0xA8EC, 0xA8ED, 0xA8EE, 0xA8EF, 0xA8F0, 0xA8F1, 0xAAB0, 0xAAB2,
    0xAAB3, 0xAAB7, 0xAAB8, 0xAABE, 0xAABF, 0xAAC1, 0xFE20, 0xFE21, 0xFE22, 0xFE23, 0xFE24, 0xFE25, 0xFE26, 0x10A0F,
    0x10A38, 0x1D185, 0x1D186, 0x1D187, 0x1D188, 0x1D189, 0x1D1AA, 0x1D1AB, 0x1D1AC, 0x1D1AD, 0x1D242, 0x1D243, 0x1D244]

def diacriticIndex (mark : Char) : Option Nat := (ROWCOLUMN_DIACRITICS.idxOf? mark.toNat).filter (· < 256)

/-- The row, the column and the high byte that the marks of a cell name. -/
def decodeMarks (marks : List Char) : Option Nat × Option Nat × Option Nat :=
  (marks[0]?.bind diacriticIndex, marks[1]?.bind diacriticIndex, marks[2]?.bind diacriticIndex)

/-- What a cell may inherit from: the low bits, the placement, the row, the column and the high byte of the cell before it. -/
abbrev KittyUnicodePrev := Nat × Option Nat × Nat × Nat × Option Nat

/-- What the marks leave open is inherited from a cell of the same colors, and is zero without one. -/
def decodeCellWithPrev (foreground underlineColor : Option Color) (marks : List Char) (prev : Option KittyUnicodePrev) :
    KittyUnicodeId :=
  let low := colorIdFragment foreground % 2 ^ 24
  let placementId := kittyPlacementId underlineColor
  let (rowMark, colMark, highMark) := decodeMarks marks
  let fallback := prev.filter fun prev => prev.1 == low && prev.2.1 == placementId
  let row := (rowMark.or (fallback.map (·.2.2.1))).getD 0
  let col := (colMark.or (fallback.map (·.2.2.2.1))).getD 0
  -- without any mark the column advances
  let col := if marks.isEmpty ∧ fallback.isSome then min 255 (col + 1) else col
  let high := highMark.or (fallback.bind (·.2.2.2.2))
  { imageId := low + high.getD 0 * 2 ^ 24, placementId := placementId, row := row, col := col }

def highOf (cell : KittyUnicodeCell) : Option Nat :=
  let high := cell.id.imageId / 2 ^ 24
  if high = 0 then none else some high

/-- Accumulates the run of a row from left to right; a broken builder takes no more cells. -/
structure KittyRunBuilder where
  prev : Option (KittyUnicodeCell × Nat × Option Nat) := none
  broken : Bool := false

namespace KittyRunBuilder

def push (builder : KittyRunBuilder) (gridRow gridCol : Nat) (isPlaceholder : Bool) (foreground underlineColor : Option Color)
    (marks : List Char) : Option KittyUnicodeCell × KittyRunBuilder :=
  if builder.broken ∨ !isPlaceholder then (none, { builder with broken := true })
  else
    let low := colorIdFragment foreground % 2 ^ 24
    let placementId := kittyPlacementId underlineColor
    let prevTuple := builder.prev.map fun (cell, low, placement) => (low, placement, cell.id.row, cell.id.col, highOf cell)
    let id := decodeCellWithPrev foreground underlineColor marks prevTuple
    let accept (id : KittyUnicodeId) : Option KittyUnicodeCell × KittyRunBuilder :=
      (some ⟨gridRow, gridCol, id⟩, { builder with prev := some (⟨gridRow, gridCol, id⟩, low, placementId) })
    match builder.prev with
    | none => accept id
    | some (prev, _, _) =>
      let continues := prev.id.imageId = id.imageId ∧ prev.id.placementId = id.placementId ∧ prev.id.row = id.row ∧
        id.col = min 255 (prev.id.col + 1)
      -- marks that name the tile of the cell before once more stand for the next one
      let restated := prev.id = id
      if ¬continues ∧ ¬restated then (none, { builder with broken := true })
      else if restated then accept { id with col := min 255 (prev.id.col + 1) }
      else accept id

end KittyRunBuilder

def runKey (cell : KittyUnicodeCell) : Nat × Option Nat := (cell.id.imageId, cell.id.placementId)

namespace State

variable (s : State)

def kittyPush (row col : Nat) (builder : KittyRunBuilder) : Option KittyUnicodeCell × KittyRunBuilder :=
  let cell := s.screensActive.get row col
  builder.push row col (isKittyPlaceholder cell.glyph) cell.style.foreground cell.style.underlineColor cell.zerowidth.chars

/-- The cells that a builder accepts, up to the first it does not. -/
def kittyDecode (row : Nat) : KittyRunBuilder → List Nat → List KittyUnicodeCell
  | _, [] => []
  | builder, col :: rest =>
    match s.kittyPush row col builder with
    | (some decoded, builder) => decoded :: kittyDecode row builder rest
    | (none, _) => []

/-- Whether the cells from `candidate` to `anchor`, decoded on their own, are one run. -/
def kittyRunCovers (row candidate anchor : Nat) : Bool :=
  let cols := s.screensActive.cols
  if anchor < candidate ∨ cols ≤ anchor then false
  else decide ((s.kittyDecode row {} (List.range' candidate (anchor + 1 - candidate))).length = anchor + 1 - candidate)

def kittyRunStart (row anchor : Nat) : Nat → Nat
  | 0 => 0
  | col + 1 => if s.kittyRunCovers row col anchor then kittyRunStart row anchor col else col + 1

def kittyUnicodeRunAt (row col : Nat) : Option KittyUnicodeRunCells :=
  let rows := s.screensActive.lines.length
  let cols := s.screensActive.cols
  if rows ≤ row ∨ cols ≤ col then none
  else if !isKittyPlaceholder (s.screensActive.get row col).glyph then none
  else
    let startCol := s.kittyRunStart row col col
    match s.kittyDecode row {} (List.range' startCol (cols - startCol)) with
    | [] => none
    | first :: rest =>
      if col < startCol ∨ startCol + (first :: rest).length ≤ col then none else some (first :: rest, runKey first)

def kittyFlush (current : List KittyUnicodeCell) (runs : List KittyUnicodeRunCells) : List KittyUnicodeRunCells :=
  match current with
  | [] => runs
  | first :: _ => runs ++ [(current, runKey first)]

def kittyRowStep (row : Nat) (loop : List KittyUnicodeRunCells × KittyRunBuilder × List KittyUnicodeCell) (col : Nat) :
    List KittyUnicodeRunCells × KittyRunBuilder × List KittyUnicodeCell :=
  let (runs, builder, current) := loop
  match s.kittyPush row col builder with
  | (some decoded, builder) => (runs, builder, current ++ [decoded])
  | (none, _) =>
    let runs := kittyFlush current runs
    -- a placeholder that breaks a run starts the next one
    if isKittyPlaceholder (s.screensActive.get row col).glyph then
      match s.kittyPush row col {} with
      | (some decoded, builder) => (runs, builder, [decoded])
      | (none, _) => (runs, {}, [])
    else (runs, {}, [])

def kittyUnicodeRunsOnRow (row : Nat) : List KittyUnicodeRunCells :=
  if s.screensActive.lines.length ≤ row then []
  else
    let (runs, _, current) := (List.range s.screensActive.cols).foldl (s.kittyRowStep row) ([], {}, [])
    kittyFlush current runs

end State

end Bitty.Screen
