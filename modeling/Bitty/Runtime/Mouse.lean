import Bitty.Library.Numeral

/-! Mouse reports in the encodings of xterm. -/

namespace Bitty.Runtime

def MOUSE_REPORT_MAX_BYTES : Nat := 32

def X10_COORD_MAX : Nat := 223

def UTF8_COORD_MAX : Nat := 2015

inductive MouseFormat
  | x10
  | utf8
  | sgr
  | sgrPixels
  | urxvt
  deriving DecidableEq

structure MouseReport where
  button : UInt8
  modifiers : UInt8
  motion : Bool
  release : Bool
  col : UInt16
  row : UInt16
  deriving DecidableEq

namespace MouseReport

def legacyCode (r : MouseReport) : UInt8 :=
  let code := (if r.release then 3 else r.button) ||| r.modifiers
  if r.motion then code ||| 32 else code

def sgrCode (r : MouseReport) : UInt8 :=
  let code := r.button ||| r.modifiers
  if r.motion then code ||| 32 else code

end MouseReport

abbrev MouseBytes := List UInt8

def checked (bits n : Nat) : Option Nat := if n < 2 ^ bits then some n else none

def saturatingAdd16 (a b : Nat) : Nat := min (a + b) (2 ^ 16 - 1)

def push (out : MouseBytes) (byte : UInt8) : Option MouseBytes :=
  if out.length < MOUSE_REPORT_MAX_BYTES then some (out ++ [byte]) else none

def pushSlice (out : MouseBytes) (bytes : List UInt8) : Option MouseBytes := bytes.foldlM push out

/-- The digits of a number from the last to the first; one that finds no room in their array panics. -/
def reversedDigits : Nat → Nat → Option (List UInt8)
  | 0, _ => none
  | room + 1, value =>
    let digit := UInt8.ofNat (48 + value % 10)
    if value / 10 = 0 then some [digit] else (reversedDigits room (value / 10)).map (digit :: ·)

def pushDecimal (out : MouseBytes) (value : Nat) : Option MouseBytes := do
  let digits ← reversedDigits 5 value
  pushSlice out digits.reverse

/-- `char::from_u32` with the replacement character for what is no character. -/
def fromU32 (cp : Nat) : Char := if cp.isValidChar then .ofNat cp else '\uFFFD'

def pushUtf8Codepoint (out : MouseBytes) (cp : Nat) : Option MouseBytes :=
  pushSlice out (String.utf8EncodeChar (fromU32 cp))

def final (r : MouseReport) : UInt8 := if r.release then 109 else 77

def encodeX10 (r : MouseReport) : Option MouseBytes := do
  let col ← checked 16 (min (saturatingAdd16 r.col.toNat 1) X10_COORD_MAX + 32)
  let row ← checked 16 (min (saturatingAdd16 r.row.toNat 1) X10_COORD_MAX + 32)
  let out ← pushSlice [] [0x1b, 91, 77]
  let out ← push out (r.legacyCode + 32)
  let out ← push out (UInt8.ofNat col)
  push out (UInt8.ofNat row)

def encodeSgr (r : MouseReport) : Option MouseBytes := do
  let out ← pushSlice [] [0x1b, 91, 60]
  let out ← pushDecimal out r.sgrCode.toNat
  let out ← push out 59
  let out ← pushDecimal out (← checked 32 (r.col.toNat + 1))
  let out ← push out 59
  let out ← pushDecimal out (← checked 32 (r.row.toNat + 1))
  push out (final r)

/-- A cell is taken to be 10 by 20 pixels. -/
def encodeSgrPixels (r : MouseReport) : Option MouseBytes := do
  let out ← pushSlice [] [0x1b, 91, 60]
  let out ← pushDecimal out r.sgrCode.toNat
  let out ← push out 59
  let out ← pushDecimal out (← checked 32 ((← checked 32 (r.col.toNat * 10)) + 1))
  let out ← push out 59
  let out ← pushDecimal out (← checked 32 ((← checked 32 (r.row.toNat * 20)) + 1))
  push out (final r)

def encodeUtf8 (r : MouseReport) : Option MouseBytes := do
  let out ← pushSlice [] [0x1b, 91, 77]
  let out ← pushUtf8Codepoint out (r.legacyCode + 32).toNat
  let col ← checked 16 (min r.col.toNat UTF8_COORD_MAX + 33)
  let row ← checked 16 (min r.row.toNat UTF8_COORD_MAX + 33)
  let out ← pushUtf8Codepoint out col
  pushUtf8Codepoint out row

def encodeUrxvt (r : MouseReport) : Option MouseBytes := do
  let out ← push [] 0x1b
  let out ← push out 91
  let out ← pushDecimal out (r.legacyCode + 32).toNat
  let out ← push out 59
  let out ← pushDecimal out (← checked 32 (r.col.toNat + 1))
  let out ← push out 59
  let out ← pushDecimal out (← checked 32 (r.row.toNat + 1))
  push out 77

def encodeMouse (format : MouseFormat) (report : MouseReport) : Option MouseBytes :=
  match format with
  | .x10 => encodeX10 report
  | .utf8 => encodeUtf8 report
  | .sgr => encodeSgr report
  | .sgrPixels => encodeSgrPixels report
  | .urxvt => encodeUrxvt report

/-! What the helpers write. -/

def decimal (n : Nat) : List UInt8 := (Text.number n).map fun c => UInt8.ofNat c.toNat

def Writes (step : MouseBytes → Option MouseBytes) (bytes : List UInt8) : Prop :=
  ∀ out : MouseBytes, out.length + bytes.length ≤ MOUSE_REPORT_MAX_BYTES → step out = some (out ++ bytes)

theorem writes_push (byte : UInt8) : Writes (push · byte) [byte] := by
  intro out room
  rw [List.length_singleton] at room
  exact if_pos room

theorem Writes.seq {first second : MouseBytes → Option MouseBytes} {a b : List UInt8} (one : Writes first a)
    (two : Writes second b) : Writes (fun out => first out >>= second) (a ++ b) := by
  intro out room
  rw [List.length_append] at room
  have rest : (out ++ a).length + b.length ≤ MOUSE_REPORT_MAX_BYTES := by
    rw [List.length_append]
    omega
  show (first out).bind second = _
  rw [one out (by omega), Option.bind_some, two _ rest, List.append_assoc]

theorem Writes.start {step : MouseBytes → Option MouseBytes} {bytes : List UInt8} (writes : Writes step bytes)
    (short : bytes.length ≤ MOUSE_REPORT_MAX_BYTES) : step [] = some bytes := by
  refine writes [] ?_
  rwa [List.length_nil, Nat.zero_add]

theorem writes_pushSlice (bytes : List UInt8) : Writes (pushSlice · bytes) bytes := by
  induction bytes with
  | nil =>
    intro out _
    rw [List.append_nil]
    rfl
  | cons byte rest ih => exact (writes_push byte).seq ih

theorem digit_byte {d : Nat} (small : d < 10) : UInt8.ofNat d.digitChar.toNat = UInt8.ofNat (48 + d) := by
  have all : ∀ d < 10, UInt8.ofNat d.digitChar.toNat = UInt8.ofNat (48 + d) := by decide
  exact all d small

variable {n : Nat}

theorem decimal_of_lt (small : n < 10) : decimal n = [UInt8.ofNat (48 + n)] := by
  rw [decimal, Text.number, Nat.toDigits_of_lt_base small, List.map_singleton, digit_byte small]

theorem decimal_of_ge (large : 10 ≤ n) : decimal n = decimal (n / 10) ++ [UInt8.ofNat (48 + n % 10)] := by
  rw [decimal, Text.number, Nat.toDigits_of_base_le (by decide) large, List.map_append, List.map_singleton,
    digit_byte (Nat.mod_lt n (by decide))]
  rfl

theorem reversedDigits_eq {room value : Nat} (positive : 0 < room) :
    reversedDigits room value = if value < 10 ^ room then some (decimal value).reverse else none := by
  induction room generalizing value with
  | zero => exact absurd positive (Nat.lt_irrefl 0)
  | succ room ih =>
    rw [reversedDigits]
    by_cases small : value < 10
    · have power : value < 10 ^ (room + 1) := small.trans_le (Nat.le_self_pow (Nat.succ_ne_zero room) 10)
      rw [if_pos (Nat.div_eq_of_lt small), if_pos power, decimal_of_lt small, Nat.mod_eq_of_lt small]
      rfl
    · have quotient : value / 10 ≠ 0 := by omega
      rw [if_neg quotient]
      cases room with
      | zero =>
        rw [if_neg (by omega)]
        rfl
      | succ room =>
        have bound : value / 10 < 10 ^ (room + 1) ↔ value < 10 ^ (room + 1 + 1) := by
          rw [Nat.div_lt_iff_lt_mul (by decide), ← pow_succ]
        have whole : decimal value = decimal (value / 10) ++ [UInt8.ofNat (48 + value % 10)] := decimal_of_ge (by omega)
        rw [ih (Nat.succ_pos room), whole, List.reverse_append]
        simp only [bound]
        split_ifs
        · rfl
        · rfl

theorem length_decimal_le {k : Nat} (positive : 0 < k) (small : n < 10 ^ k) : (decimal n).length ≤ k := by
  rw [decimal, List.length_map]
  exact (Nat.length_toDigits_le_iff (by decide) positive).mpr small

theorem writes_pushDecimal {value : Nat} (small : value < 10 ^ 5) : Writes (pushDecimal · value) (decimal value) := by
  intro out room
  show pushDecimal out value = _
  rw [pushDecimal, reversedDigits_eq (by decide), if_pos small]
  show pushSlice out (decimal value).reverse.reverse = _
  rw [List.reverse_reverse]
  exact writes_pushSlice _ out room

theorem pushDecimal_eq_none (value : Nat) (large : 10 ^ 5 ≤ value) (out : MouseBytes) : pushDecimal out value = none := by
  rw [pushDecimal, reversedDigits_eq (by decide), if_neg (Nat.not_lt.mpr large)]
  rfl

def framed (intro : List UInt8) (code col row : Nat) (final : UInt8) : List UInt8 :=
  intro ++ (decimal code ++ ([59] ++ (decimal col ++ ([59] ++ (decimal row ++ [final])))))

variable {code col row : Nat}

theorem length_framed_le {intro : List UInt8} {final : UInt8} (short : intro.length ≤ 3)
    (code_small : code < 10 ^ 5) (col_small : col < 10 ^ 5) (row_small : row < 10 ^ 5) :
    (framed intro code col row final).length ≤ MOUSE_REPORT_MAX_BYTES := by
  have x := length_decimal_le (by decide) code_small
  have y := length_decimal_le (by decide) col_small
  have z := length_decimal_le (by decide) row_small
  simp only [framed, List.length_append, List.length_singleton, MOUSE_REPORT_MAX_BYTES]
  omega

theorem writes_framed {intro : MouseBytes → Option MouseBytes} {start : List UInt8}
    (opening : Writes intro start) (code_small : code < 10 ^ 5) (col_small : col < 10 ^ 5) (row_small : row < 10 ^ 5)
    (last : UInt8) : Writes (fun out => intro out >>= fun out => pushDecimal out code >>= fun out => push out 59 >>= fun out =>
      pushDecimal out col >>= fun out => push out 59 >>= fun out => pushDecimal out row >>= fun out => push out last)
      (framed start code col row last) :=
  opening.seq <| (writes_pushDecimal code_small).seq <| (writes_push 59).seq <| (writes_pushDecimal col_small).seq <|
    (writes_push 59).seq <| (writes_pushDecimal row_small).seq (writes_push last)

theorem checked_eq {bits : Nat} (small : n < 2 ^ bits) : checked bits n = some n := if_pos small

/-! The encodings. -/

variable {r r' : MouseReport}

theorem sgrCode_small (r : MouseReport) : r.sgrCode.toNat < 10 ^ 5 := r.sgrCode.toNat_lt.trans (by decide)

theorem col_small (r : MouseReport) : r.col.toNat + 1 < 10 ^ 5 := by
  have small := r.col.toNat_lt
  omega

theorem row_small (r : MouseReport) : r.row.toNat + 1 < 10 ^ 5 := by
  have small := r.row.toNat_lt
  omega

def sgrBytes (r : MouseReport) : MouseBytes :=
  framed [0x1b, 91, 60] r.sgrCode.toNat (r.col.toNat + 1) (r.row.toNat + 1) (final r)

def urxvtBytes (r : MouseReport) : MouseBytes :=
  framed [0x1b, 91] (r.legacyCode + 32).toNat (r.col.toNat + 1) (r.row.toNat + 1) 77

def pixelBytes (r : MouseReport) : MouseBytes :=
  framed [0x1b, 91, 60] r.sgrCode.toNat (r.col.toNat * 10 + 1) (r.row.toNat * 20 + 1) (final r)

theorem encodeSgr_eq (r : MouseReport) : encodeSgr r = some (sgrBytes r) := by
  have col : checked 32 (r.col.toNat + 1) = some (r.col.toNat + 1) := checked_eq ((col_small r).trans (by decide))
  have row : checked 32 (r.row.toNat + 1) = some (r.row.toNat + 1) := checked_eq ((row_small r).trans (by decide))
  have writes := writes_framed (writes_pushSlice [0x1b, 91, 60]) (sgrCode_small r) (col_small r) (row_small r) (final r)
  rw [encodeSgr, col, row]
  exact writes.start (length_framed_le (by decide) (sgrCode_small r) (col_small r) (row_small r))

theorem legacyCode_small (r : MouseReport) : (r.legacyCode + 32).toNat < 10 ^ 5 :=
  (r.legacyCode + 32).toNat_lt.trans (by decide)

theorem encodeUrxvt_eq (r : MouseReport) : encodeUrxvt r = some (urxvtBytes r) := by
  have col : checked 32 (r.col.toNat + 1) = some (r.col.toNat + 1) := checked_eq ((col_small r).trans (by decide))
  have row : checked 32 (r.row.toNat + 1) = some (r.row.toNat + 1) := checked_eq ((row_small r).trans (by decide))
  have writes := writes_framed (writes_pushSlice [0x1b, 91]) (legacyCode_small r) (col_small r) (row_small r) 77
  rw [encodeUrxvt, col, row]
  exact writes.start (length_framed_le (by decide) (legacyCode_small r) (col_small r) (row_small r))

def Near (r : MouseReport) : Prop := r.col.toNat < 10000 ∧ r.row.toNat < 5000

instance (r : MouseReport) : Decidable (Near r) := inferInstanceAs (Decidable (_ ∧ _))

theorem pixels_small (near : Near r) : r.col.toNat * 10 + 1 < 10 ^ 5 ∧ r.row.toNat * 20 + 1 < 10 ^ 5 := by
  obtain ⟨x, y⟩ := near
  constructor <;> omega

theorem encodeSgrPixels_eq (r : MouseReport) : encodeSgrPixels r = if Near r then some (pixelBytes r) else none := by
  have wide := r.col.toNat_lt
  have high := r.row.toNat_lt
  have col : checked 32 (r.col.toNat * 10) = some (r.col.toNat * 10) := checked_eq (by omega)
  have row : checked 32 (r.row.toNat * 20) = some (r.row.toNat * 20) := checked_eq (by omega)
  have col' : checked 32 (r.col.toNat * 10 + 1) = some (r.col.toNat * 10 + 1) := checked_eq (by omega)
  have row' : checked 32 (r.row.toNat * 20 + 1) = some (r.row.toNat * 20 + 1) := checked_eq (by omega)
  rw [encodeSgrPixels]
  simp only [col, row, col', row', Option.bind_eq_bind, Option.bind_some]
  split_ifs with near
  · obtain ⟨x, y⟩ := pixels_small near
    have writes := writes_framed (writes_pushSlice [0x1b, 91, 60]) (sgrCode_small r) x y (final r)
    exact writes.start (length_framed_le (by decide) (sgrCode_small r) x y)
  · rcases not_and_or.mp near with far | far
    · simp [pushDecimal_eq_none (r.col.toNat * 10 + 1) (by omega)]
    · simp [pushDecimal_eq_none (r.row.toNat * 20 + 1) (by omega)]

/-- A column or row as a report shows it, counted from one. -/
def shown (format : MouseFormat) (coordinate : UInt16) : Nat :=
  match format with
  | .x10 => min (coordinate.toNat + 1) X10_COORD_MAX
  | .utf8 => min coordinate.toNat UTF8_COORD_MAX + 1
  | _ => coordinate.toNat + 1

theorem shown_x10 (coordinate : UInt16) :
    min (saturatingAdd16 coordinate.toNat 1) X10_COORD_MAX = shown .x10 coordinate := by
  have small := coordinate.toNat_lt
  simp only [saturatingAdd16, shown, X10_COORD_MAX]
  omega

theorem shown_x10_le (coordinate : UInt16) : shown .x10 coordinate ≤ 223 := Nat.min_le_right _ _

theorem shown_utf8_le (coordinate : UInt16) : shown .utf8 coordinate ≤ 2016 := Nat.succ_le_succ (Nat.min_le_right _ _)

def x10Bytes (r : MouseReport) : MouseBytes :=
  [0x1b, 91, 77, r.legacyCode + 32, UInt8.ofNat (shown .x10 r.col + 32), UInt8.ofNat (shown .x10 r.row + 32)]

def utf8Text (r : MouseReport) : Text :=
  [fromU32 (r.legacyCode + 32).toNat, fromU32 (shown .utf8 r.col + 32), fromU32 (shown .utf8 r.row + 32)]

def utf8Bytes (r : MouseReport) : MouseBytes := [0x1b, 91, 77] ++ (utf8Text r).flatMap String.utf8EncodeChar

theorem encodeX10_eq (r : MouseReport) : encodeX10 r = some (x10Bytes r) := by
  have col := shown_x10_le r.col
  have row := shown_x10_le r.row
  have col' : checked 16 (shown .x10 r.col + 32) = some (shown .x10 r.col + 32) := checked_eq (by omega)
  have row' : checked 16 (shown .x10 r.row + 32) = some (shown .x10 r.row + 32) := checked_eq (by omega)
  have writes := (writes_pushSlice [0x1b, 91, 77]).seq <| (writes_push (r.legacyCode + 32)).seq <|
    (writes_push (UInt8.ofNat (shown .x10 r.col + 32))).seq (writes_push (UInt8.ofNat (shown .x10 r.row + 32)))
  rw [encodeX10, shown_x10, shown_x10, col', row']
  exact writes.start (show 6 ≤ 32 by decide)

theorem length_utf8Bytes_le (r : MouseReport) : (utf8Bytes r).length ≤ MOUSE_REPORT_MAX_BYTES := by
  have size (c : Char) : (String.utf8EncodeChar c).length ≤ 4 := by
    rw [String.length_utf8EncodeChar]
    exact c.utf8Size_le_four
  have x := size (fromU32 (r.legacyCode + 32).toNat)
  have y := size (fromU32 (shown .utf8 r.col + 32))
  have z := size (fromU32 (shown .utf8 r.row + 32))
  simp only [utf8Bytes, utf8Text, List.flatMap_cons, List.flatMap_nil, List.length_append, List.length_cons,
    List.length_nil, MOUSE_REPORT_MAX_BYTES]
  omega

theorem encodeUtf8_eq (r : MouseReport) : encodeUtf8 r = some (utf8Bytes r) := by
  have col := shown_utf8_le r.col
  have row := shown_utf8_le r.row
  have col' : checked 16 (shown .utf8 r.col + 32) = some (shown .utf8 r.col + 32) := checked_eq (by omega)
  have row' : checked 16 (shown .utf8 r.row + 32) = some (shown .utf8 r.row + 32) := checked_eq (by omega)
  have writes := (writes_pushSlice [0x1b, 91, 77]).seq <|
    (writes_pushSlice (String.utf8EncodeChar (fromU32 (r.legacyCode + 32).toNat))).seq <|
    (writes_pushSlice (String.utf8EncodeChar (fromU32 (shown .utf8 r.col + 32)))).seq
    (writes_pushSlice (String.utf8EncodeChar (fromU32 (shown .utf8 r.row + 32))))
  have same : utf8Bytes r = [0x1b, 91, 77] ++ (String.utf8EncodeChar (fromU32 (r.legacyCode + 32).toNat) ++
      (String.utf8EncodeChar (fromU32 (shown .utf8 r.col + 32)) ++
        String.utf8EncodeChar (fromU32 (shown .utf8 r.row + 32)))) := by
    simp [utf8Bytes, utf8Text]
  rw [same, encodeUtf8]
  show (do
    let out ← pushSlice [] [0x1b, 91, 77]
    let out ← pushUtf8Codepoint out (r.legacyCode + 32).toNat
    let col ← checked 16 (shown .utf8 r.col + 32)
    let row ← checked 16 (shown .utf8 r.row + 32)
    let out ← pushUtf8Codepoint out col
    pushUtf8Codepoint out row) = _
  rw [col', row']
  refine writes.start ?_
  rw [← same]
  exact length_utf8Bytes_le r

/-! What can be read back. -/

def buttons : List UInt8 := [0, 1, 2, 8, 9, 64, 65, 66, 67]

def modifierSets : List UInt8 := [0, 4, 8, 12, 16, 20, 24, 28]

def MouseReport.Documented (r : MouseReport) : Prop := r.button ∈ buttons ∧ r.modifiers ∈ modifierSets

def MouseReport.Shared (r : MouseReport) : Prop :=
  r.button = 8 ∨ r.button = 9 ∨ (r.button = 0 ∨ r.button = 1) ∧ r.modifiers &&& 8 ≠ 0

instance (r : MouseReport) : Decidable r.Documented := inferInstanceAs (Decidable (_ ∧ _))

instance (r : MouseReport) : Decidable r.Shared := inferInstanceAs (Decidable (_ ∨ _))

/-- The same report as far as the encoding tells: SGR tells all, the legacy encodings neither which button was released
nor how far out the cell is, and nothing is asked of pixels. -/
def Told (format : MouseFormat) (r r' : MouseReport) : Prop :=
  match format with
  | .sgr => r' = r
  | .sgrPixels => True
  | format => r'.release = r.release ∧ (r.release = false → r'.button = r.button) ∧ r'.modifiers = r.modifiers ∧
      r'.motion = r.motion ∧ shown format r'.col = shown format r.col ∧ shown format r'.row = shown format r.row

/-- Decided along the list, not along all bytes. -/
local instance (priority := 2000) decidableAlong (p : UInt8 → Prop) [DecidablePred p] (bytes : List UInt8) : Decidable (∀ b ∈ bytes, p b) :=
  List.decidableBAll p bytes

theorem codes_shared : ∀ b ∈ buttons, ∀ m ∈ modifierSets, ∀ b' ∈ buttons, ∀ m' ∈ modifierSets, b' ||| m' = b ||| m →
    (b' = b ∧ m' = m) ∨ b = 8 ∨ b = 9 ∨ (b = 0 ∨ b = 1) ∧ m &&& 8 ≠ 0 := by
  decide +kernel

theorem codes_motion : ∀ b ∈ 3 :: buttons, ∀ m ∈ modifierSets, ∀ b' ∈ 3 :: buttons, ∀ m' ∈ modifierSets,
    (b' ||| m' ||| 32 = b ||| m ||| 32 ↔ b' ||| m' = b ||| m) ∧ b' ||| m' ||| 32 ≠ b ||| m := by
  decide +kernel

theorem codes_release : ∀ b ∈ buttons, ∀ m ∈ modifierSets, ∀ m' ∈ modifierSets,
    (3 ||| m' = 3 ||| m → m' = m) ∧ 3 ||| m' ≠ b ||| m := by
  decide +kernel

def isDigitByte (b : UInt8) : Bool := 48 ≤ b.toNat ∧ b.toNat ≤ 57

theorem isDigit_toNat {c : Char} (digit : c.isDigit = true) : 48 ≤ c.toNat ∧ c.toNat ≤ 57 := by
  simp only [Char.isDigit, Bool.and_eq_true, decide_eq_true_eq, UInt32.le_iff_toNat_le] at digit
  exact digit

theorem isDigitByte_of_mem_decimal {b : UInt8} (member : b ∈ decimal n) : isDigitByte b = true := by
  obtain ⟨c, inside, rfl⟩ := List.mem_map.mp member
  have range := isDigit_toNat (Text.isDigit_of_mem_number inside)
  have same : (UInt8.ofNat c.toNat).toNat = c.toNat := UInt8.toNat_ofNat_of_lt' (range.2.trans_lt (by decide))
  rw [isDigitByte, same]
  exact decide_eq_true range

theorem decimal_injective {m : Nat} (same : decimal m = decimal n) : m = n := by
  have back (n : Nat) : (decimal n).map (fun b => Char.ofNat b.toNat) = Text.number n := by
    rw [decimal, List.map_map]
    refine (List.map_congr_left fun c member => ?_).trans (List.map_id _)
    have range := isDigit_toNat (Text.isDigit_of_mem_number member)
    have whole : (UInt8.ofNat c.toNat).toNat = c.toNat := UInt8.toNat_ofNat_of_lt' (range.2.trans_lt (by decide))
    rw [Function.comp_apply, whole, Char.ofNat_toNat]
    rfl
  have texts : Text.number m = Text.number n := by rw [← back, same, back]
  have read := Text.readDigits_number m
  rw [texts, Text.readDigits_number] at read
  exact (Option.some.inj read).symm

theorem decimal_append_inj {m : Nat} {x y : UInt8} {rest rest' : List UInt8} (apart : isDigitByte x = false)
    (apart' : isDigitByte y = false) (same : decimal m ++ x :: rest = decimal n ++ y :: rest') :
    m = n ∧ x = y ∧ rest = rest' := by
  have front (n : Nat) {x : UInt8} (rest : List UInt8) (apart : isDigitByte x = false) :
      (decimal n ++ x :: rest).takeWhile isDigitByte = decimal n := by
    rw [List.takeWhile_append_of_pos fun b member => isDigitByte_of_mem_decimal member,
      List.takeWhile_cons_of_neg (by rw [apart]; exact Bool.false_ne_true), List.append_nil]
  have digits : decimal m = decimal n := by rw [← front m rest apart, same, front n rest' apart']
  rw [digits] at same
  exact ⟨decimal_injective digits, List.cons.inj (List.append_cancel_left same)⟩

theorem framed_inj {intro : List UInt8} {code' col' row' : Nat} {last last' : UInt8}
    (apart : isDigitByte last = false) (apart' : isDigitByte last' = false)
    (same : framed intro code' col' row' last' = framed intro code col row last) :
    code' = code ∧ col' = col ∧ row' = row ∧ last' = last := by
  obtain ⟨codes, -, rest⟩ := decimal_append_inj (by decide) (by decide) (List.append_cancel_left same)
  obtain ⟨cols, -, rest⟩ := decimal_append_inj (by decide) (by decide) rest
  obtain ⟨rows, lasts, -⟩ := decimal_append_inj apart' apart rest
  exact ⟨codes, cols, rows, lasts⟩

theorem code_inj {b m b' m' : UInt8} {motion motion' : Bool} (inside : b ∈ 3 :: buttons) (inside' : b' ∈ 3 :: buttons)
    (set : m ∈ modifierSets) (set' : m' ∈ modifierSets)
    (same : (if motion' then b' ||| m' ||| 32 else b' ||| m') = if motion then b ||| m ||| 32 else b ||| m) :
    motion' = motion ∧ b' ||| m' = b ||| m := by
  cases motion with
  | true =>
    cases motion' with
    | true => exact ⟨rfl, (codes_motion b inside m set b' inside' m' set').1.mp same⟩
    | false => exact absurd same.symm (codes_motion b' inside' m' set' b inside m set).2
  | false =>
    cases motion' with
    | true => exact absurd same (codes_motion b inside m set b' inside' m' set').2
    | false => exact ⟨rfl, same⟩

theorem sgrCode_inj (documented : r.Documented) (documented' : r'.Documented) (single : ¬r.Shared)
    (same : r'.sgrCode = r.sgrCode) : r'.button = r.button ∧ r'.modifiers = r.modifiers ∧ r'.motion = r.motion := by
  obtain ⟨motions, codes⟩ := code_inj (List.mem_cons_of_mem _ documented.1) (List.mem_cons_of_mem _ documented'.1)
    documented.2 documented'.2 same
  rcases codes_shared _ documented.1 _ documented.2 _ documented'.1 _ documented'.2 codes with ⟨button, modifiers⟩ | shared
  · exact ⟨button, modifiers, motions⟩
  · exact absurd shared single

theorem legacyCode_inj (documented : r.Documented) (documented' : r'.Documented) (single : r.release = false → ¬r.Shared)
    (same : r'.legacyCode = r.legacyCode) : r'.release = r.release ∧ (r.release = false → r'.button = r.button) ∧
      r'.modifiers = r.modifiers ∧ r'.motion = r.motion := by
  have base {r : MouseReport} (documented : r.Documented) : (if r.release then 3 else r.button) ∈ 3 :: buttons := by
    split_ifs
    · exact List.mem_cons_self
    · exact List.mem_cons_of_mem _ documented.1
  obtain ⟨motions, codes⟩ := code_inj (base documented) (base documented') documented.2 documented'.2 same
  cases released : r.release with
  | true =>
    cases released' : r'.release with
    | true =>
      rw [released, released', if_pos rfl, if_pos rfl] at codes
      exact ⟨rfl, nofun, (codes_release _ documented.1 _ documented.2 _ documented'.2).1 codes, motions⟩
    | false =>
      rw [released, released', if_pos rfl, if_neg Bool.false_ne_true] at codes
      exact absurd codes.symm (codes_release _ documented'.1 _ documented'.2 _ documented.2).2
  | false =>
    cases released' : r'.release with
    | true =>
      rw [released, released', if_pos rfl, if_neg Bool.false_ne_true] at codes
      exact absurd codes (codes_release _ documented.1 _ documented.2 _ documented'.2).2
    | false =>
      rw [released, released', if_neg Bool.false_ne_true, if_neg Bool.false_ne_true] at codes
      rcases codes_shared _ documented.1 _ documented.2 _ documented'.1 _ documented'.2 codes with
        ⟨button, modifiers⟩ | shared
      · exact ⟨rfl, fun _ => button, modifiers, motions⟩
      · exact absurd shared (single released)

theorem coordinate_inj {c c' : UInt16} (same : c'.toNat + 1 = c.toNat + 1) : c' = c :=
  UInt16.toNat_inj.mp (Nat.succ_inj.mp same)

theorem final_apart (r : MouseReport) : isDigitByte (final r) = false := by
  unfold final
  cases r.release <;> decide

theorem final_inj (same : final r' = final r) : r'.release = r.release := by
  unfold final at same
  cases released : r.release <;> cases released' : r'.release <;> rw [released, released'] at same
  · exact absurd same (by decide)
  · exact absurd same (by decide)

theorem sgrBytes_inj (documented : r.Documented) (documented' : r'.Documented) (single : ¬r.Shared)
    (same : sgrBytes r' = sgrBytes r) : r' = r := by
  have finals := final_apart r
  obtain ⟨codes, cols, rows, lasts⟩ := framed_inj finals (final_apart r') same
  obtain ⟨button, modifiers, motion⟩ := sgrCode_inj documented documented' single (UInt8.toNat_inj.mp codes)
  have col := coordinate_inj cols
  have row := coordinate_inj rows
  have release := final_inj lasts
  cases r
  cases r'
  simp only [MouseReport.mk.injEq]
  exact ⟨button, modifiers, motion, release, col, row⟩

theorem legacy_shift {a b : UInt8} (same : a + 32 = b + 32) : a = b := by
  have back := congrArg (· - 32) same
  simpa using back

variable {format : MouseFormat}

theorem told_of_legacy (documented : r.Documented) (documented' : r'.Documented)
    (single : r.release = false → ¬r.Shared) (code : r'.legacyCode + 32 = r.legacyCode + 32)
    (col : shown format r'.col = shown format r.col) (row : shown format r'.row = shown format r.row)
    (legacy : format ≠ .sgr) : Told format r r' := by
  obtain ⟨release, button, modifiers, motion⟩ := legacyCode_inj documented documented' single (legacy_shift code)
  cases format with
  | sgr => exact absurd rfl legacy
  | sgrPixels => trivial
  | x10 => exact ⟨release, button, modifiers, motion, col, row⟩
  | utf8 => exact ⟨release, button, modifiers, motion, col, row⟩
  | urxvt => exact ⟨release, button, modifiers, motion, col, row⟩

theorem urxvtBytes_told (documented : r.Documented) (documented' : r'.Documented) (single : r.release = false → ¬r.Shared)
    (same : urxvtBytes r' = urxvtBytes r) : Told .urxvt r r' := by
  obtain ⟨codes, cols, rows, -⟩ := framed_inj (by decide) (by decide) same
  exact told_of_legacy documented documented' single (UInt8.toNat_inj.mp codes) cols rows nofun

theorem x10Bytes_told (documented : r.Documented) (documented' : r'.Documented) (single : r.release = false → ¬r.Shared)
    (same : x10Bytes r' = x10Bytes r) : Told .x10 r r' := by
  have byte {c c' : UInt16} (same : UInt8.ofNat (shown .x10 c' + 32) = UInt8.ofNat (shown .x10 c + 32)) :
      shown .x10 c' = shown .x10 c := by
    have small (c : UInt16) : (UInt8.ofNat (shown .x10 c + 32)).toNat = shown .x10 c + 32 :=
      UInt8.toNat_ofNat_of_lt' (Nat.lt_of_le_of_lt (Nat.add_le_add_right (shown_x10_le c) 32) (by decide))
    have nats := congrArg UInt8.toNat same
    rw [small, small] at nats
    exact Nat.add_right_cancel nats
  simp only [x10Bytes, List.cons.injEq, true_and, and_true] at same
  exact told_of_legacy documented documented' single same.1 (byte same.2.1) (byte same.2.2) nofun

theorem fromU32_inj {a b : Nat} (small : a < 55296) (small' : b < 55296) (same : fromU32 a = fromU32 b) : a = b := by
  have back {n : Nat} (small : n < 55296) : (fromU32 n).toNat = n := by
    have valid : n.isValidChar := .inl small
    rw [fromU32, if_pos valid, Char.ofNat, dif_pos valid]
    rfl
  rw [← back small, same, back small']

theorem utf8Bytes_told (documented : r.Documented) (documented' : r'.Documented) (single : r.release = false → ¬r.Shared)
    (same : utf8Bytes r' = utf8Bytes r) : Told .utf8 r r' := by
  have coordinate {c c' : UInt16} (same : fromU32 (shown .utf8 c' + 32) = fromU32 (shown .utf8 c + 32)) :
      shown .utf8 c' = shown .utf8 c := by
    have small := shown_utf8_le c
    have small' := shown_utf8_le c'
    exact Nat.add_right_cancel (fromU32_inj (by omega) (by omega) same)
  have code (r : MouseReport) : (r.legacyCode + 32).toNat < 55296 := (r.legacyCode + 32).toNat_lt.trans (by decide)
  have texts := Text.encode_injective (List.append_cancel_left same)
  simp only [utf8Text, List.cons.injEq, and_true] at texts
  have codes := UInt8.toNat_inj.mp (fromU32_inj (code r') (code r) texts.1)
  exact told_of_legacy documented documented' single codes (coordinate texts.2.1) (coordinate texts.2.2) nofun

def MouseReport.twin (r : MouseReport) : MouseReport :=
  if r.button &&& 8 = 0 then { r with button := r.button ||| 8 }
  else { r with button := r.button ^^^ 8, modifiers := r.modifiers ||| 8 }

theorem twin_codes : ∀ b ∈ buttons, ∀ m ∈ modifierSets, b = 8 ∨ b = 9 ∨ (b = 0 ∨ b = 1) ∧ m &&& 8 ≠ 0 →
    if b &&& 8 = 0 then b ||| 8 ∈ buttons ∧ b ||| 8 ≠ b ∧ b ||| 8 ||| m = b ||| m
    else b ^^^ 8 ∈ buttons ∧ b ^^^ 8 ≠ b ∧ m ||| 8 ∈ modifierSets ∧ (b ^^^ 8) ||| (m ||| 8) = b ||| m := by
  decide

theorem twin_spec (documented : r.Documented) (shared : r.Shared) : r.twin.Documented ∧ r.twin.button ≠ r.button ∧
    r.twin.button ||| r.twin.modifiers = r.button ||| r.modifiers ∧ r.twin.motion = r.motion ∧
    r.twin.release = r.release ∧ r.twin.col = r.col ∧ r.twin.row = r.row := by
  have codes := twin_codes _ documented.1 _ documented.2 shared
  unfold MouseReport.twin
  split_ifs at codes ⊢ with clear
  · exact ⟨⟨codes.1, documented.2⟩, codes.2.1, codes.2.2, rfl, rfl, rfl, rfl⟩
  · exact ⟨⟨codes.1, codes.2.2.1⟩, codes.2.1, codes.2.2.2, rfl, rfl, rfl, rfl⟩

def encoded (format : MouseFormat) (r : MouseReport) : MouseBytes :=
  match format with
  | .x10 => x10Bytes r
  | .utf8 => utf8Bytes r
  | .sgr => sgrBytes r
  | .sgrPixels => pixelBytes r
  | .urxvt => urxvtBytes r

theorem encodeMouse_eq (format : MouseFormat) (r : MouseReport) :
    encodeMouse format r = if format = .sgrPixels → Near r then some (encoded format r) else none := by
  cases format with
  | sgrPixels =>
    show encodeSgrPixels r = _
    rw [encodeSgrPixels_eq]
    simp only [true_imp_iff]
    rfl
  | x10 => exact (encodeX10_eq r).trans (if_pos nofun).symm
  | utf8 => exact (encodeUtf8_eq r).trans (if_pos nofun).symm
  | sgr => exact (encodeSgr_eq r).trans (if_pos nofun).symm
  | urxvt => exact (encodeUrxvt_eq r).trans (if_pos nofun).symm

theorem encodeMouse_isSome_iff : (∃ bytes, encodeMouse format r = some bytes) ↔ (format = .sgrPixels → Near r) := by
  rw [encodeMouse_eq]
  split_ifs with near
  · exact iff_of_true ⟨_, rfl⟩ near
  · exact iff_of_false nofun near

theorem length_encoded_le (near : format = .sgrPixels → Near r) :
    (encoded format r).length ≤ MOUSE_REPORT_MAX_BYTES := by
  cases format with
  | x10 => exact (show 6 ≤ 32 by decide)
  | utf8 => exact length_utf8Bytes_le r
  | sgr => exact length_framed_le (by decide) (sgrCode_small r) (col_small r) (row_small r)
  | sgrPixels => exact length_framed_le (by decide) (sgrCode_small r) (pixels_small (near rfl)).1 (pixels_small (near rfl)).2
  | urxvt => exact length_framed_le (by decide) (legacyCode_small r) (col_small r) (row_small r)

def Ambiguous (format : MouseFormat) (r : MouseReport) : Prop :=
  match format with
  | .sgr => r.Shared
  | .sgrPixels => False
  | _ => r.release = false ∧ r.Shared

theorem shared_of_ambiguous (ambiguous : Ambiguous format r) : r.Shared := by
  cases format with
  | sgr => exact ambiguous
  | sgrPixels => exact ambiguous.elim
  | x10 => exact ambiguous.2
  | utf8 => exact ambiguous.2
  | urxvt => exact ambiguous.2

theorem encoded_told (documented : r.Documented) (documented' : r'.Documented)
    (single : ¬Ambiguous format r) (same : encoded format r' = encoded format r) : Told format r r' := by
  have legacy (single : ¬(r.release = false ∧ r.Shared)) (pressed : r.release = false) : ¬r.Shared :=
    fun shared => single ⟨pressed, shared⟩
  cases format with
  | x10 => exact x10Bytes_told documented documented' (legacy single) same
  | utf8 => exact utf8Bytes_told documented documented' (legacy single) same
  | sgr => exact sgrBytes_inj documented documented' single same
  | sgrPixels => trivial
  | urxvt => exact urxvtBytes_told documented documented' (legacy single) same

theorem twin_codes_eq (documented : r.Documented) (shared : r.Shared) : r.twin.sgrCode = r.sgrCode ∧
    (r.release = false → r.twin.legacyCode = r.legacyCode) := by
  obtain ⟨-, -, codes, motion, release, -, -⟩ := twin_spec documented shared
  constructor
  · rw [MouseReport.sgrCode, MouseReport.sgrCode, codes, motion]
  · intro pressed
    rw [MouseReport.legacyCode, MouseReport.legacyCode, release, motion, pressed, if_neg Bool.false_ne_true,
      if_neg Bool.false_ne_true, codes]

theorem twin_encoded (documented : r.Documented) (ambiguous : Ambiguous format r) :
    encoded format r.twin = encoded format r ∧ ¬Told format r r.twin := by
  have shared := shared_of_ambiguous ambiguous
  obtain ⟨-, other, -, -, release, col, row⟩ := twin_spec documented shared
  obtain ⟨sgr, legacy⟩ := twin_codes_eq documented shared
  have finals : final r.twin = final r := by rw [final, final, release]
  cases format with
  | sgr =>
    constructor
    · show sgrBytes r.twin = sgrBytes r
      rw [sgrBytes, sgrBytes, sgr, col, row, finals]
    · intro told
      exact other (congrArg MouseReport.button told)
  | sgrPixels => exact ambiguous.elim
  | x10 =>
    constructor
    · show x10Bytes r.twin = x10Bytes r
      rw [x10Bytes, x10Bytes, legacy ambiguous.1, col, row]
    · exact fun told => other (told.2.1 ambiguous.1)
  | utf8 =>
    constructor
    · show utf8Bytes r.twin = utf8Bytes r
      rw [utf8Bytes, utf8Bytes, utf8Text, utf8Text, legacy ambiguous.1, col, row]
    · exact fun told => other (told.2.1 ambiguous.1)
  | urxvt =>
    constructor
    · show urxvtBytes r.twin = urxvtBytes r
      rw [urxvtBytes, urxvtBytes, legacy ambiguous.1, col, row]
    · exact fun told => other (told.2.1 ambiguous.1)

theorem twin_encodeMouse (documented : r.Documented) (ambiguous : Ambiguous format r) :
    encodeMouse format r.twin = encodeMouse format r := by
  have near : format = .sgrPixels → False := by
    rintro rfl
    exact ambiguous
  rw [encodeMouse_eq, encodeMouse_eq, if_pos fun pixels => (near pixels).elim, if_pos fun pixels => (near pixels).elim,
    (twin_encoded documented ambiguous).1]

/-- A documented report is written within its buffers and can be read back, unless its pixels have six digits or it
shares its code with another one. -/
theorem encodeMouse_decodes_iff (format : MouseFormat) (documented : r.Documented) :
    ((∃ bytes, encodeMouse format r = some bytes ∧ bytes.length ≤ MOUSE_REPORT_MAX_BYTES) ∧
        ∀ r' : MouseReport, r'.Documented → encodeMouse format r' = encodeMouse format r → Told format r r') ↔
      (format = .sgrPixels → Near r) ∧ ¬Ambiguous format r := by
  constructor
  · rintro ⟨⟨bytes, written, -⟩, told⟩
    refine ⟨encodeMouse_isSome_iff.mp ⟨bytes, written⟩, fun ambiguous => ?_⟩
    have shared := twin_encoded documented ambiguous
    have twin : r.twin.Documented := (twin_spec documented (shared_of_ambiguous ambiguous)).1
    exact shared.2 (told r.twin twin (twin_encodeMouse documented ambiguous))
  · rintro ⟨near, single⟩
    have written : encodeMouse format r = some (encoded format r) := by rw [encodeMouse_eq, if_pos near]
    refine ⟨⟨encoded format r, written, length_encoded_le near⟩, fun r' documented' same => ?_⟩
    rw [written, encodeMouse_eq] at same
    split_ifs at same with near'
    exact encoded_told documented documented' single (Option.some.inj same)

def wheelReport : MouseReport where
  button := 67
  modifiers := 28
  motion := true
  release := true
  col := 65535
  row := 65535

theorem encodeMouse_decodes_iff_wheel : wheelReport.Documented ∧
    (((∃ bytes, encodeMouse .sgr wheelReport = some bytes ∧ bytes.length ≤ MOUSE_REPORT_MAX_BYTES) ∧
        ∀ r' : MouseReport, r'.Documented → encodeMouse .sgr r' = encodeMouse .sgr wheelReport → Told .sgr wheelReport r') ↔
      (MouseFormat.sgr = .sgrPixels → Near wheelReport) ∧ ¬Ambiguous .sgr wheelReport) :=
  ⟨by decide, encodeMouse_decodes_iff .sgr (by decide)⟩

def farReport : MouseReport where
  button := 0
  modifiers := 0
  motion := false
  release := false
  col := 10000
  row := 0

def altReport : MouseReport where
  button := 0
  modifiers := 8
  motion := false
  release := false
  col := 0
  row := 0

/-- The pixels of column 10000 do not fit into five digits, and alt with the left button reads as the button back. -/
theorem encodeMouse_far_alt : farReport.Documented ∧ encodeMouse .sgrPixels farReport = none ∧ altReport.Documented ∧
    altReport.twin.Documented ∧ altReport.twin ≠ altReport ∧
    encodeMouse .sgr altReport.twin = encodeMouse .sgr altReport := by
  refine ⟨by decide, ?_, by decide, by decide, by decide, ?_⟩
  · rw [encodeMouse_eq, if_neg (by decide)]
  · exact twin_encodeMouse (by decide) (show altReport.Shared by decide)

end Bitty.Runtime
