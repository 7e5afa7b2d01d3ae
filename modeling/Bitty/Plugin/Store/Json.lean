import Bitty.Library.Binary
import Bitty.Library.Checks
import Bitty.Library.Reader

namespace Bitty.Plugin.Store

open Text Checks

def JSON_MAX_DEPTH : Nat := 16

/-- A 64-bit signed integer. -/
structure I64 where
  val : Int
  low : -9223372036854775808 ≤ val
  high : val ≤ 9223372036854775807
  deriving DecidableEq

namespace I64

def wrap (n : Int) : I64 where
  val := (n + 9223372036854775808) % 18446744073709551616 - 9223372036854775808
  low := by omega
  high := by omega

def parse (text : Text) : Option I64 :=
  (readInteger text).bind fun n =>
    if h : -9223372036854775808 ≤ n ∧ n ≤ 9223372036854775807 then some ⟨n, h.1, h.2⟩ else none

@[simp] theorem parse_integer (i : I64) : parse (integer i.val) = some i := by
  rw [parse, readInteger_integer, Option.bind_some, dif_pos ⟨i.low, i.high⟩]

theorem eq_of_parse {n : Int} {i : I64} (parsed : parse (integer n) = some i) : i.val = n := by
  rw [parse, readInteger_integer, Option.bind_some] at parsed
  split_ifs at parsed
  cases parsed
  rfl

end I64

inductive LuaValue
  | nil
  | bool (b : Bool)
  | integer (i : I64)
  | number (n : Binary64)
  | string (s : Text)
  | table (pairs : List (LuaValue × LuaValue))

namespace LuaValue

def arrayFrom : Nat → List LuaValue → List (LuaValue × LuaValue)
  | _, [] => []
  | i, v :: rest => (integer (.wrap (i + 1)), v) :: arrayFrom (i + 1) rest

def array (values : List LuaValue) : LuaValue := table (arrayFrom 0 values)

/-- The keys of the pairs count from 1 on. -/
def onlyArrayFrom : Nat → List (LuaValue × LuaValue) → Bool
  | _, [] => true
  | i, (key, _) :: rest =>
    (match key with
      | integer n => decide (n = .wrap (i + 1))
      | _ => false) && onlyArrayFrom (i + 1) rest

def onlyArray (pairs : List (LuaValue × LuaValue)) : Bool := onlyArrayFrom 0 pairs

def keyString : LuaValue → Text
  | string s => s
  | integer i => Text.integer i.val
  | _ => []

end LuaValue

/-! Encoding. -/

def hexDigit (n : Nat) : Char := n.digitChar

/-- `{:04x}`. -/
def hex4 (n : Nat) : Text := [hexDigit (n / 4096 % 16), hexDigit (n / 256 % 16), hexDigit (n / 16 % 16), hexDigit (n % 16)]

def escape (c : Char) : Text :=
  if c = '"' then ['\\', '"']
  else if c = '\\' then ['\\', '\\']
  else if c = '\n' then ['\\', 'n']
  else if c = '\r' then ['\\', 'r']
  else if c = '\t' then ['\\', 't']
  else if c.toNat < 0x20 then '\\' :: 'u' :: hex4 c.toNat
  else [c]

def encodeString (s : Text) : Text := '"' :: s.flatMap escape ++ ['"']

/-- An integral float below 2^53 is written as an integer. -/
def encodeNumber : Binary64 → Text
  | .finite value float bounded =>
    if value.den = 1 ∧ |value| < 9007199254740992 then integer value.num
    else Binary64.display (.finite value float bounded)
  | special => Binary64.display special

mutual

def encodeJson : LuaValue → Text
  | .nil => "null".toList
  | .bool true => "true".toList
  | .bool false => "false".toList
  | .integer i => integer i.val
  | .number n => encodeNumber n
  | .string s => encodeString s
  | .table pairs =>
    if LuaValue.onlyArray pairs then '[' :: List.intercalate [','] (encodeChildren pairs) ++ [']']
    else '\x7b' :: List.intercalate [','] (encodeMembers pairs) ++ ['\x7d']

def encodeChildren : List (LuaValue × LuaValue) → List Text
  | [] => []
  | (_, child) :: rest => encodeJson child :: encodeChildren rest

def encodeMembers : List (LuaValue × LuaValue) → List Text
  | [] => []
  | (key, child) :: rest => (encodeString key.keyString ++ ':' :: encodeJson child) :: encodeMembers rest

end

/-! Parsing. The bytes of a text are read by its scalars: every byte that is looked at on its own is
ASCII, and what is taken into a string is taken by whole scalars. -/

def isAsciiWhitespace (c : Char) : Bool := c = ' ' ∨ c = '\t' ∨ c = '\n' ∨ c = '\x0c' ∨ c = '\r'

def skipWs (text : Text) : Text := text.dropWhile isAsciiWhitespace

def hexValue (c : Char) : Option Nat :=
  if c.isDigit then some (c.toNat - 48)
  else if 'a' ≤ c ∧ c ≤ 'f' then some (c.toNat - 87)
  else if 'A' ≤ c ∧ c ≤ 'F' then some (c.toNat - 55)
  else none

/-- `u32::from_str_radix` for base 16, which takes a plus sign. -/
def fromHex (text : Text) : Option Nat :=
  let digits := (stripPrefix ['+'] text).getD text
  if digits = [] then none else readDigits hexValue 16 0 digits

/-- `char::from_u32`: no scalar for a surrogate. -/
def charFromU32 (code : Nat) : Option Char := if (Char.ofNat code).toNat = code then some (Char.ofNat code) else none

/-- What stands behind the opening quote of a string, after what was read in `out`. -/
def parseStringRest (out : Text) : Reader Text Text
  | [] => .error "unterminated JSON string".toList
  | '"' :: rest => .ok (out, rest)
  | '\\' :: [] => .error "unterminated JSON escape".toList
  | '\\' :: '"' :: rest => parseStringRest (out ++ ['"']) rest
  | '\\' :: '\\' :: rest => parseStringRest (out ++ ['\\']) rest
  | '\\' :: '/' :: rest => parseStringRest (out ++ ['/']) rest
  | '\\' :: 'n' :: rest => parseStringRest (out ++ ['\n']) rest
  | '\\' :: 'r' :: rest => parseStringRest (out ++ ['\r']) rest
  | '\\' :: 't' :: rest => parseStringRest (out ++ ['\t']) rest
  | '\\' :: 'b' :: rest => parseStringRest (out ++ ['\x08']) rest
  | '\\' :: 'f' :: rest => parseStringRest (out ++ ['\x0c']) rest
  | '\\' :: 'u' :: a :: b :: c :: d :: rest =>
    match fromHex [a, b, c, d] with
    | none => .error "bad unicode escape".toList
    | some code =>
      match charFromU32 code with
      | none => .error "bad unicode scalar".toList
      | some ch => parseStringRest (out ++ [ch]) rest
  | '\\' :: 'u' :: _ => .error "bad unicode escape".toList
  | '\\' :: _ :: _ => .error "unknown JSON escape".toList
  | c :: rest =>
    if c.toNat < 0x20 then .error "control character in JSON string".toList else parseStringRest (out ++ [c]) rest

def parseString : Reader Text Text
  | '"' :: rest => parseStringRest [] rest
  | _ => .error "expected JSON string".toList

/-- What `parse_number` takes. -/
def isNumeric (c : Char) : Bool := c.isDigit || decide (c = '-' ∨ c = '+' ∨ c = '.' ∨ c = 'e' ∨ c = 'E')

def numberOf (text : Text) : Except Text LuaValue :=
  if text = [] then .error "expected JSON value".toList
  else
    match (if '.' ∈ text ∨ 'e' ∈ text ∨ 'E' ∈ text then none else I64.parse text) with
    | some i => .ok (.integer i)
    | none =>
      match Binary64.parse text with
      | some n => .ok (.number n)
      | none => .error "bad number".toList

def parseNumber : Reader Text LuaValue := fun text =>
  (numberOf (text.takeWhile isNumeric)).map fun v => (v, text.dropWhile isNumeric)

def expectLiteral (literal : Text) (value : LuaValue) : Reader Text LuaValue := fun text =>
  match stripPrefix literal text with
  | some rest => .ok (value, rest)
  | none => .error ("expected JSON literal '".toList ++ literal ++ "'".toList)

def parseMember (value : Reader Text LuaValue) : Reader Text (LuaValue × LuaValue) := fun text =>
  match parseString (skipWs text) with
  | .error e => .error e
  | .ok (key, rest) =>
    match skipWs rest with
    | ':' :: rest => (value rest).map fun (v, rest) => ((.string key, v), rest)
    | _ => .error "expected ':' in JSON object".toList

/-- The loop of `parse_object`; a text has no more commas than scalars. -/
def parseMembers (value : Reader Text LuaValue) (bound : Nat) : Reader Text (List (LuaValue × LuaValue)) :=
  Reader.separated (parseMember value) skipWs ',' '\x7d' "expected ',' or '\x7d' in JSON object".toList bound

/-- The loop of `parse_array`. -/
def parseElements (value : Reader Text LuaValue) (bound : Nat) : Reader Text (List LuaValue) :=
  Reader.separated value skipWs ',' ']' "expected ',' or ']' in JSON array".toList bound

def parseObject (value : Reader Text LuaValue) : Reader Text LuaValue := fun text =>
  match skipWs text with
  | '\x7d' :: rest => .ok (.table [], rest)
  | text => (parseMembers value text.length text).map fun (pairs, rest) => (.table pairs, rest)

def parseArray (value : Reader Text LuaValue) : Reader Text LuaValue := fun text =>
  match skipWs text with
  | ']' :: rest => .ok (.array [], rest)
  | text => (parseElements value text.length text).map fun (values, rest) => (.array values, rest)

def parseValue : Nat → Reader Text LuaValue
  | 0, _ => .error "JSON nesting too deep".toList
  | left + 1, text =>
    match skipWs text with
    | [] => .error "unexpected end of JSON".toList
    | '\x7b' :: rest => parseObject (parseValue left) rest
    | '[' :: rest => parseArray (parseValue left) rest
    | '"' :: rest => (parseStringRest [] rest).map fun (s, rest) => (.string s, rest)
    | 't' :: rest => expectLiteral "true".toList (.bool true) ('t' :: rest)
    | 'f' :: rest => expectLiteral "false".toList (.bool false) ('f' :: rest)
    | 'n' :: rest => expectLiteral "null".toList .nil ('n' :: rest)
    | text => parseNumber text

def parseJson (input : Text) : Except Text LuaValue :=
  match parseValue JSON_MAX_DEPTH input with
  | .error e => .error e
  | .ok (value, rest) => if skipWs rest = [] then .ok value else .error "trailing data after JSON value".toList

/-! Every reader takes what it reads, so that the loops end before their bounds do. -/

theorem takes_map {α β : Type} {read : Reader Text α} (takes : Reader.Takes read) (f : α → β) :
    Reader.Takes fun text => (read text).map fun (a, rest) => (f a, rest) := by
  intro text b rest run
  dsimp only at run
  cases first : read text with
  | error e =>
    rw [first] at run
    cases run
  | ok found =>
    obtain ⟨a, behind⟩ := found
    rw [first] at run
    cases run
    exact takes text a behind first

theorem takes_parseStringRest (out : Text) : Reader.Takes (parseStringRest out) := by
  intro text s rest run
  fun_induction parseStringRest out text
  case case2 =>
    cases run
    exact Nat.lt_succ_self _
  all_goals first
    | cases run
    | (rename_i ih
       have fewer := ih run
       simp only [List.length_cons]
       omega)

theorem takes_parseString : Reader.Takes parseString := by
  intro text s rest run
  unfold parseString at run
  split at run
  · exact (takes_parseStringRest [] _ _ _ run).trans (Nat.lt_succ_self _)
  · cases run

theorem takes_parseNumber : Reader.Takes parseNumber := by
  intro text v rest run
  unfold parseNumber at run
  cases taken : numberOf (text.takeWhile isNumeric) with
  | error e =>
    rw [taken] at run
    cases run
  | ok w =>
    rw [taken] at run
    cases run
    have some : text.takeWhile isNumeric ≠ [] := by
      intro empty
      rw [empty] at taken
      cases taken
    have parts := congrArg List.length (List.takeWhile_append_dropWhile (p := isNumeric) (l := text))
    have positive := List.length_pos_of_ne_nil some
    rw [List.length_append] at parts
    omega

theorem takes_expectLiteral {literal : Text} (some : literal ≠ []) (value : LuaValue) :
    Reader.Takes (expectLiteral literal value) := by
  intro text v rest run
  unfold expectLiteral at run
  split at run
  · rename_i behind stripped
    cases run
    have positive := List.length_pos_of_ne_nil some
    rw [eq_append_of_stripPrefix stripped, List.length_append]
    omega
  · cases run

theorem length_skipWs_le (text : Text) : (skipWs text).length ≤ text.length := List.length_dropWhile_le _ _

theorem takes_parseMember {value : Reader Text LuaValue} (takes : Reader.Takes value) : Reader.Takes (parseMember value) := by
  intro text p rest run
  unfold parseMember at run
  split at run
  · cases run
  rename_i key behind named
  split at run
  · rename_i after colon
    have first := takes_parseString _ _ _ named
    have blank := length_skipWs_le text
    have blank' := length_skipWs_le behind
    have last := takes_map takes (fun v => (LuaValue.string key, v)) after p rest run
    rw [colon, List.length_cons] at blank'
    omega
  · cases run

theorem parseMembers_enough {value : Reader Text LuaValue} (takes : Reader.Takes value) {text : Text} {bound : Nat}
    (enough : text.length ≤ bound) : parseMembers value bound text = parseMembers value text.length text :=
  Reader.separated_enough (takes_parseMember takes) length_skipWs_le le_rfl enough

theorem parseElements_enough {value : Reader Text LuaValue} (takes : Reader.Takes value) {text : Text} {bound : Nat}
    (enough : text.length ≤ bound) : parseElements value bound text = parseElements value text.length text :=
  Reader.separated_enough takes length_skipWs_le le_rfl enough

theorem takes_parseObject {value : Reader Text LuaValue} (takes : Reader.Takes value) : Reader.Takes (parseObject value) := by
  intro text v rest run
  have blank := length_skipWs_le text
  unfold parseObject at run
  split at run
  · rename_i behind close
    cases run
    rw [close, List.length_cons] at blank
    omega
  · have members : Reader.Takes (parseMembers value (skipWs text).length) :=
      Reader.takes_separated (takes_parseMember takes) length_skipWs_le _
    have fewer := takes_map members (fun pairs => LuaValue.table pairs) (skipWs text) v rest run
    omega

theorem takes_parseArray {value : Reader Text LuaValue} (takes : Reader.Takes value) : Reader.Takes (parseArray value) := by
  intro text v rest run
  have blank := length_skipWs_le text
  unfold parseArray at run
  split at run
  · rename_i behind close
    cases run
    rw [close, List.length_cons] at blank
    omega
  · have elements : Reader.Takes (parseElements value (skipWs text).length) :=
      Reader.takes_separated takes length_skipWs_le _
    have fewer := takes_map elements (fun values => LuaValue.array values) (skipWs text) v rest run
    omega

theorem takes_parseValue (left : Nat) : Reader.Takes (parseValue left) := by
  induction left with
  | zero =>
    intro text v rest run
    cases run
  | succ left ih =>
    intro text v rest run
    have blank := length_skipWs_le text
    unfold parseValue at run
    split at run
    · cases run
    · rename_i behind shape
      have fewer := takes_parseObject ih behind v rest run
      rw [shape, List.length_cons] at blank
      omega
    · rename_i behind shape
      have fewer := takes_parseArray ih behind v rest run
      rw [shape, List.length_cons] at blank
      omega
    · rename_i behind shape
      have fewer := takes_map (takes_parseStringRest []) LuaValue.string behind v rest run
      rw [shape, List.length_cons] at blank
      omega
    · rename_i behind shape
      have fewer := takes_expectLiteral (by decide) _ _ v rest run
      rw [shape] at blank
      omega
    · rename_i behind shape
      have fewer := takes_expectLiteral (by decide) _ _ v rest run
      rw [shape] at blank
      omega
    · rename_i behind shape
      have fewer := takes_expectLiteral (by decide) _ _ v rest run
      rw [shape] at blank
      omega
    · have fewer := takes_parseNumber _ v rest run
      omega

/-! Validation. -/

structure BridgeError where
  errorClass : Text
  code : Text
  message : Text

def valueInvalid (message : String) : BridgeError := ⟨"validation".toList, "E_STORE_VALUE_INVALID".toList, message.toList⟩

def checkDepth (depth : Nat) : Except BridgeError Unit :=
  refuseIf (JSON_MAX_DEPTH < depth) (valueInvalid "store value nesting exceeds depth ceiling")

def LuaValue.isKey : LuaValue → Bool
  | string _ | integer _ => true
  | _ => false

mutual

def validateJsonValue : LuaValue → Nat → Except BridgeError Unit
  | .number n, depth => do
    checkDepth depth
    refuseIf (n.isFinite = false) (valueInvalid "store value must be finite")
  | .string s, depth => do
    checkDepth depth
    refuseIf (ofBytes? s.bytes = none) (valueInvalid "store value must be valid UTF-8")
  | .table pairs, depth => do
    checkDepth depth
    validatePairs pairs (depth + 1)
  | .nil, depth | .bool _, depth | .integer _, depth => checkDepth depth

def validatePairs : List (LuaValue × LuaValue) → Nat → Except BridgeError Unit
  | [], _ => .ok ()
  | (key, child) :: rest, depth => do
    refuseIf (key.isKey = false) (valueInvalid "store table keys must be strings or numbers")
    validateJsonValue child depth
    validatePairs rest depth

end

end Bitty.Plugin.Store
