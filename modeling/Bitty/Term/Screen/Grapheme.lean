import Bitty.Term.Screen.Grid

/-! Display widths of scalars, and the scalars that form one grapheme cluster. -/

namespace Bitty.Screen

inductive EawClass
  | n | na | h | w | f | a

inductive AmbiguousWidth
  | narrow | wide
  deriving DecidableEq

structure UnicodeTables where
  eawClass : Nat → EawClass
  extendedPictographic : Nat → Bool
  graphemeExtend : Nat → Bool
  spacingMark : Nat → Bool
  prepend : Nat → Bool
  control : Nat → Bool
  incbLinker : Nat → Bool
  incbConsonant : Nat → Bool
  incbExtend : Nat → Bool

def inRanges (ranges : List (Nat × Nat)) (cp : Nat) : Bool := ranges.any fun range => range.1 ≤ cp && cp ≤ range.2

/-- Combining marks, variation selectors and format controls that take no column of their own. -/
def ZERO_WIDTH : List (Nat × Nat) :=
  [(0x0300, 0x036F), (0x0483, 0x0489), (0x0591, 0x05BD), (0x05BF, 0x05BF), (0x05C1, 0x05C2), (0x05C4, 0x05C5),
    (0x05C7, 0x05C7), (0x0610, 0x061A), (0x061C, 0x061C), (0x064B, 0x065F), (0x0670, 0x0670), (0x06D6, 0x06DC),
    (0x06DF, 0x06E4), (0x06E7, 0x06E8), (0x06EA, 0x06ED), (0x0711, 0x0711), (0x0730, 0x074A), (0x07A6, 0x07B0),
    (0x0816, 0x0819), (0x081B, 0x0823), (0x0825, 0x0827), (0x0829, 0x082D), (0x0900, 0x0902), (0x093A, 0x093A),
    (0x093C, 0x093C), (0x0941, 0x0948), (0x094D, 0x094D), (0x0951, 0x0957), (0x0962, 0x0963), (0x09CD, 0x09CD),
    (0x0ACD, 0x0ACD), (0x0AFB, 0x0AFB), (0x0B4D, 0x0B4D), (0x0C4D, 0x0C4D), (0x0D4D, 0x0D4D), (0x0E31, 0x0E31),
    (0x0E34, 0x0E3A), (0x0E47, 0x0E4E), (0x0F72, 0x0F84), (0x1036, 0x1037), (0x1039, 0x103A), (0x135D, 0x135F),
    (0x17B7, 0x17BD), (0x17D0, 0x17D0), (0x17D2, 0x17D2), (0x180B, 0x180D), (0x1A60, 0x1A60), (0x1AB0, 0x1AFF),
    (0x1B00, 0x1B03), (0x1B34, 0x1B38), (0x1B44, 0x1B44), (0x1BAB, 0x1BAB), (0x1D165, 0x1D169), (0x1DC0, 0x1DFF),
    (0x200B, 0x200F), (0x202A, 0x202E), (0x2060, 0x2064), (0x2066, 0x2069), (0x20D0, 0x20FF), (0x302A, 0x302D),
    (0x3099, 0x309A), (0xA66F, 0xA66F), (0xA674, 0xA67D), (0xA8E0, 0xA8F1), (0xA9C0, 0xA9C0), (0xAAF6, 0xAAF6),
    (0xFE00, 0xFE0F), (0xFE20, 0xFE2F), (0xFEFF, 0xFEFF), (0x10A3F, 0x10A3F), (0x11133, 0x11133), (0x113D0, 0x113D0),
    (0x1193E, 0x1193E), (0x11A47, 0x11A47), (0x11A99, 0x11A99), (0x11F42, 0x11F42), (0xE0000, 0xE007F), (0xE0100, 0xE01EF)]

def isBidiFormatScalar (scalar : Char) : Bool :=
  inRanges [(0x061C, 0x061C), (0x200E, 0x200F), (0x202A, 0x202E), (0x2066, 0x2069)] scalar.toNat

namespace UnicodeTables

variable (tables : UnicodeTables)

def isZeroWidth (cp : Nat) : Bool := tables.prepend cp || inRanges ZERO_WIDTH cp

def charCellWidthIn (c : Char) (ambiguous : AmbiguousWidth) : Nat :=
  let cp := c.toNat
  if cp < 0xA1 then 1
  else if tables.isZeroWidth cp then 0
  else
    match tables.eawClass cp with
    | .w | .f => 2
    | .a => if ambiguous = .narrow then 1 else 2
    | .n | .na | .h => 1

theorem charCellWidthIn_le (c : Char) (ambiguous : AmbiguousWidth) : tables.charCellWidthIn c ambiguous ≤ 2 := by
  unfold charCellWidthIn
  dsimp only
  split
  · omega
  · split
    · omega
    · split
      · omega
      · omega
      · split <;> omega
      all_goals omega

def ZWJ : Nat := 0x200D

def VARIATION_SELECTOR_16 : Char := Char.ofNat 0xFE0F

def COMBINING_KEYCAP : Char := Char.ofNat 0x20E3

def CR : Nat := 0x0D

def LF : Nat := 0x0A

def isBreakControl (cp : Nat) : Bool := cp == CR || cp == LF || tables.control cp

def isGraphemeExtend (cp : Nat) : Bool := cp != ZWJ && tables.graphemeExtend cp

def isRegionalIndicator (cp : Nat) : Bool := 0x1F1E6 ≤ cp && cp ≤ 0x1F1FF

end UnicodeTables

inductive Hangul
  | leading | vowel | trailing | lvSyllable | lvtSyllable | other
  deriving DecidableEq

def hangulClass (cp : Nat) : Hangul :=
  if (0x1100 ≤ cp && cp ≤ 0x115F) || (0xA960 ≤ cp && cp ≤ 0xA97C) then .leading
  else if (0x1160 ≤ cp && cp ≤ 0x11A7) || (0xD7B0 ≤ cp && cp ≤ 0xD7C6) then .vowel
  else if (0x11A8 ≤ cp && cp ≤ 0x11FF) || (0xD7CB ≤ cp && cp ≤ 0xD7FB) then .trailing
  else if 0xAC00 ≤ cp && cp ≤ 0xD7A3 then if (cp - 0xAC00) % 28 = 0 then .lvSyllable else .lvtSyllable
  else .other

structure RunState where
  prev : Nat
  prevHangul : Hangul
  pictographicOpen : Bool
  prevIsZwj : Bool
  linkerOpen : Bool
  riRun : Nat

namespace UnicodeTables

variable (tables : UnicodeTables)

def start (prev : Nat) : RunState where
  prev := prev
  prevHangul := hangulClass prev
  pictographicOpen := tables.extendedPictographic prev
  prevIsZwj := prev == ZWJ
  linkerOpen := tables.incbLinker prev
  riRun := if isRegionalIndicator prev then 1 else 0

def advance (state : RunState) (cp : Nat) : RunState where
  prev := cp
  prevHangul := hangulClass cp
  pictographicOpen :=
    if tables.extendedPictographic cp then true
    else state.pictographicOpen && (cp == ZWJ || tables.isGraphemeExtend cp || tables.spacingMark cp)
  prevIsZwj := cp == ZWJ
  linkerOpen := if tables.incbExtend cp then state.linkerOpen else tables.incbLinker cp
  riRun := if isRegionalIndicator cp then state.riRun + 1 else 0

/-- Whether a break stands between the run and the next scalar; the rules stand in their order. -/
def breaksBefore (state : RunState) (current : Nat) : Bool :=
  let next := hangulClass current
  if state.prev = CR ∧ current = LF then false
  else if tables.isBreakControl state.prev || tables.isBreakControl current then true
  else if state.prevHangul = .leading ∧ (next = .leading ∨ next = .vowel ∨ next = .lvSyllable ∨ next = .lvtSyllable) then false
  else if (state.prevHangul = .lvSyllable ∨ state.prevHangul = .vowel) ∧ (next = .vowel ∨ next = .trailing) then false
  else if (state.prevHangul = .lvtSyllable ∨ state.prevHangul = .trailing) ∧ next = .trailing then false
  else if tables.isGraphemeExtend current ∨ current = ZWJ then false
  else if tables.spacingMark current then false
  else if tables.prepend state.prev then false
  else if state.linkerOpen ∧ tables.incbConsonant current then false
  else if state.prevIsZwj ∧ state.pictographicOpen ∧ tables.extendedPictographic current then false
  else if isRegionalIndicator state.prev ∧ isRegionalIndicator current then state.riRun % 2 == 0
  else true

def clusterWidth (scalars : List Char) (ambiguous : AmbiguousWidth) : Nat :=
  let widest := (scalars.map (tables.charCellWidthIn · ambiguous)).foldl max 0
  let regional := (scalars.filter (isRegionalIndicator ·.toNat)).length
  let variation16 := scalars.contains VARIATION_SELECTOR_16
  let keycap := scalars.contains COMBINING_KEYCAP
  let emojiBase := scalars.any (tables.extendedPictographic ·.toNat)
  if widest = 0 then 0
  else if widest = 2 ∨ 2 ≤ regional ∨ (variation16 ∧ (emojiBase ∨ keycap)) then 2
  else 1

def clusterCellWidthParts (glyph : Char) (tail : List Char) (ambiguous : AmbiguousWidth) : Nat :=
  tables.clusterWidth (glyph :: tail) ambiguous

/-- Whether a scalar extends a run that already holds a tail; a tail with a break of its own is not extended. -/
def continuesFrom (state : RunState) (next : Char) : List Char → Bool
  | [] => !tables.breaksBefore state next.toNat
  | scalar :: rest =>
    if tables.breaksBefore state scalar.toNat then false else continuesFrom (tables.advance state scalar.toNat) next rest

def clusterContinues (glyph : Char) (tail : List Char) (next : Char) : Bool :=
  tables.continuesFrom (tables.start glyph.toNat) next tail

end UnicodeTables

end Bitty.Screen
