import Bitty.Plugin.Store.Json

/-! What is written of a value is read back as a value that is written the same. -/

namespace Bitty.Plugin.Store

open Text Checks

/-! Strings. -/

theorem hexValue_hexDigit {n : Nat} (small : n < 16) : hexValue (hexDigit n) = some n := by
  have all : ∀ n < 16, hexValue (hexDigit n) = some n := by decide
  exact all n small

theorem fromHex_hex4 {n : Nat} (small : n < 65536) : fromHex (hex4 n) = some n := by
  have sign : hexDigit (n / 4096 % 16) ≠ '+' := by
    have all : ∀ n < 16, hexDigit n ≠ '+' := by decide
    exact all _ (Nat.mod_lt _ (by omega))
  have unsigned : stripPrefix ['+'] (hex4 n) = none := stripPrefix_eq_none_of_head sign.symm
  have digit (m : Nat) : hexValue (hexDigit (m % 16)) = some (m % 16) := hexValue_hexDigit (Nat.mod_lt m (by omega))
  rw [fromHex, unsigned, Option.getD_none]
  simp only [hex4, readDigits, digit, reduceCtorEq, if_false]
  refine congrArg some ?_
  omega

theorem charFromU32_toNat (c : Char) : charFromU32 c.toNat = some c := by
  rw [charFromU32, Char.ofNat_toNat, if_pos rfl]

theorem parseStringRest_escape (out : Text) (c : Char) (rest : Text) :
    parseStringRest out (escape c ++ rest) = parseStringRest (out ++ [c]) rest := by
  unfold escape
  split_ifs with quote backslash newline return_ tab control
  · rw [quote]
    rfl
  · rw [backslash]
    rfl
  · rw [newline]
    rfl
  · rw [return_]
    rfl
  · rw [tab]
    rfl
  · have code : fromHex (hex4 c.toNat) = some c.toNat := fromHex_hex4 (by omega)
    have split : '\\' :: 'u' :: hex4 c.toNat ++ rest = '\\' :: 'u' :: hexDigit (c.toNat / 4096 % 16) ::
        hexDigit (c.toNat / 256 % 16) :: hexDigit (c.toNat / 16 % 16) :: hexDigit (c.toNat % 16) :: rest := rfl
    rw [split, parseStringRest]
    rw [hex4] at code
    rw [code]
    dsimp only
    rw [charFromU32_toNat]
  · rw [List.singleton_append]
    rw [parseStringRest]
    · rw [if_neg control]
    · exact quote
    all_goals
      intros
      contradiction

theorem parseStringRest_escapes (out s rest : Text) :
    parseStringRest out (s.flatMap escape ++ '"' :: rest) = .ok (out ++ s, rest) := by
  induction s generalizing out with
  | nil =>
    rw [List.flatMap_nil, List.nil_append, List.append_nil]
    rfl
  | cons c s ih =>
    rw [List.flatMap_cons, List.append_assoc, parseStringRest_escape, ih, List.append_assoc]
    rfl

theorem parseString_encodeString (s rest : Text) : parseString (encodeString s ++ rest) = .ok (s, rest) := by
  have split : encodeString s ++ rest = '"' :: (s.flatMap escape ++ '"' :: rest) := by
    simp [encodeString]
  rw [split]
  exact parseStringRest_escapes [] s rest

/-! Numbers. -/

def Stops (rest : Text) : Prop := ∀ c ∈ rest.head?, c = ',' ∨ c = ']' ∨ c = '\x7d'

theorem Stops.cons {c : Char} {rest : Text} (stop : c = ',' ∨ c = ']' ∨ c = '\x7d') : Stops (c :: rest) := by
  intro d member
  cases member
  exact stop

def Stopped (rest : Text) : Prop := ∀ c ∈ rest.head?, isNumeric c = false

theorem Stops.stopped {rest : Text} (stops : Stops rest) : Stopped rest := by
  intro c member
  rcases stops c member with rfl | rfl | rfl <;> decide

theorem span_isNumeric {text rest : Text} (numeric : ∀ c ∈ text, isNumeric c = true) (stopped : Stopped rest) :
    (text ++ rest).takeWhile isNumeric = text ∧ (text ++ rest).dropWhile isNumeric = rest := by
  rw [List.takeWhile_append_of_pos numeric, List.dropWhile_append_of_pos numeric]
  cases rest with
  | nil => exact ⟨List.append_nil _, rfl⟩
  | cons c rest =>
    have other : isNumeric c = false := stopped c rfl
    rw [List.takeWhile_cons_of_neg (by simp [other]), List.dropWhile_cons_of_neg (by simp [other])]
    exact ⟨List.append_nil _, rfl⟩

theorem parseNumber_append {text rest : Text} (numeric : ∀ c ∈ text, isNumeric c = true) (stopped : Stopped rest) :
    parseNumber (text ++ rest) = (numberOf text).map fun v => (v, rest) := by
  obtain ⟨taken, left⟩ := span_isNumeric numeric stopped
  rw [parseNumber, taken, left]

theorem isNumeric_of_mem_integer {n : Int} {c : Char} (member : c ∈ integer n) : isNumeric c = true := by
  have digit (inside : c ∈ number n.natAbs) : isNumeric c = true := by
    rw [isNumeric, isDigit_of_mem_number inside, Bool.true_or]
  unfold integer at member
  split_ifs at member
  · rcases List.mem_cons.mp member with rfl | inside
    · decide
    · exact digit inside
  · exact digit member

theorem not_mem_integer {n : Int} {c : Char} (letter : c.isDigit = false) (sign : c ≠ '-') : c ∉ integer n := by
  intro member
  unfold integer at member
  split_ifs at member
  · rcases List.mem_cons.mp member with minus | inside
    · exact sign minus
    · exact not_mem_number letter inside
  · exact not_mem_number letter member

theorem integer_ne_nil (n : Int) : integer n ≠ [] := by
  unfold integer
  split_ifs
  · exact List.cons_ne_nil _ _
  · exact number_ne_nil _

theorem numberOf_integer (i : I64) : numberOf (integer i.val) = .ok (.integer i) := by
  have plain : ¬('.' ∈ integer i.val ∨ 'e' ∈ integer i.val ∨ 'E' ∈ integer i.val) := by
    rintro (point | small | large)
    · exact not_mem_integer (by decide) (by decide) point
    · exact not_mem_integer (by decide) (by decide) small
    · exact not_mem_integer (by decide) (by decide) large
  rw [numberOf, if_neg (integer_ne_nil _), if_neg plain, I64.parse_integer]

theorem exists_i64 {value : ℚ} (integral : value.den = 1) (small : |value| < 9007199254740992) :
    ∃ i : I64, i.val = value.num := by
  have cast : (value.num : ℚ) = value := (Rat.den_eq_one_iff value).mp integral
  rw [← cast] at small
  have range : |value.num| < 9007199254740992 := by exact_mod_cast small
  obtain ⟨low, high⟩ := abs_lt.mp range
  exact ⟨⟨value.num, by omega, by omega⟩, rfl⟩

theorem numberOf_display {value : ℚ} {float : Binary64.nearest value = value} {bounded : |value| < 2 ^ 1024}
    (fractional : ¬(value.den = 1 ∧ |value| < 9007199254740992)) :
    numberOf (Binary64.display (.finite value float bounded)) = .ok (.number (.finite value float bounded)) ∨
      ∃ i : I64, numberOf (Binary64.display (.finite value float bounded)) = .ok (.integer i) ∧
        integer i.val = Binary64.display (.finite value float bounded) := by
  have reads : Binary64.parse (Binary64.display (.finite value float bounded)) = some (.finite value float bounded) :=
    Binary64.parse_display rfl
  have some : Binary64.display (.finite value float bounded) ≠ [] := by
    intro empty
    rw [empty] at reads
    cases reads
  have plain {c : Char} (letter : c.isDigit = false) (other : c ≠ '.') (sign : c ≠ '-') :
      c ∉ Binary64.display (.finite value float bounded) := by
    intro member
    rcases Binary64.mem_display rfl member with digit | point | minus
    · rw [letter] at digit
      cases digit
    · exact other point
    · exact sign minus
  rw [numberOf, if_neg some, reads]
  by_cases point : '.' ∈ Binary64.display (.finite value float bounded)
  · rw [if_pos (.inl point)]
    exact .inl rfl
  · have whole : ¬('.' ∈ Binary64.display (.finite value float bounded) ∨
        'e' ∈ Binary64.display (.finite value float bounded) ∨ 'E' ∈ Binary64.display (.finite value float bounded)) := by
      rintro (here | small | large)
      · exact point here
      · exact plain (by decide) (by decide) (by decide) small
      · exact plain (by decide) (by decide) (by decide) large
    rw [if_neg whole]
    have nonzero : value ≠ 0 := by
      rintro rfl
      exact fractional ⟨rfl, by norm_num⟩
    obtain ⟨n, text⟩ := Binary64.display_pointless nonzero point
    rw [text]
    cases parsed : I64.parse (integer n) with
    | none => exact .inl rfl
    | some i => exact .inr ⟨i, rfl, congrArg integer (I64.eq_of_parse parsed)⟩

theorem numberOf_encodeNumber {f : Binary64} (finite : f.isFinite = true) :
    ∃ v, numberOf (encodeNumber f) = .ok v ∧ encodeJson v = encodeNumber f ∧ ((∃ i, v = .integer i) ∨ v = .number f) := by
  cases f with
  | nan => cases finite
  | infinite negative => cases finite
  | finite value float bounded =>
    by_cases whole : value.den = 1 ∧ |value| < 9007199254740992
    · have text : encodeNumber (.finite value float bounded) = integer value.num := if_pos whole
      obtain ⟨i, same⟩ := exists_i64 whole.1 whole.2
      rw [text, ← same]
      exact ⟨.integer i, numberOf_integer i, by rw [encodeJson], .inl ⟨i, rfl⟩⟩
    · have text : encodeNumber (.finite value float bounded) = Binary64.display (.finite value float bounded) := if_neg whole
      rw [text]
      rcases numberOf_display whole with itself | ⟨i, reads, same⟩
      · exact ⟨_, itself, by rw [encodeJson, text], .inr rfl⟩
      · exact ⟨_, reads, by rw [encodeJson, same], .inl ⟨i, rfl⟩⟩

/-! Values. -/

theorem LuaValue.valueInduction {P : LuaValue → Prop} (nil : P .nil) (bool : ∀ b, P (.bool b)) (integer : ∀ i, P (.integer i))
    (number : ∀ n, P (.number n)) (string : ∀ s, P (.string s)) (table : ∀ pairs, (∀ p ∈ pairs, P p.2) → P (.table pairs))
    (value : LuaValue) : P value :=
  match value with
  | .nil => nil
  | .bool b => bool b
  | .integer i => integer i
  | .number n => number n
  | .string s => string s
  | .table pairs => table pairs fun p _ => LuaValue.valueInduction nil bool integer number string table p.2
termination_by sizeOf value
decreasing_by
  rename_i member
  have inside := List.sizeOf_lt_of_mem member
  have part : sizeOf p.2 < sizeOf p := by
    cases p
    simp only [Prod.mk.sizeOf_spec]
    omega
  simp only [LuaValue.table.sizeOf_spec]
  omega

def reread (n : Binary64) : LuaValue :=
  match numberOf (encodeNumber n) with
  | .ok v => v
  | .error _ => .number n

mutual

/-- What the text of a value is read back as: keys are strings, and an integral number may be an integer. -/
def normal : LuaValue → LuaValue
  | .number n => reread n
  | .table pairs => if LuaValue.onlyArray pairs then .array (normalChildren pairs) else .table (normalMembers pairs)
  | .nil => .nil
  | .bool b => .bool b
  | .integer i => .integer i
  | .string s => .string s

def normalChildren : List (LuaValue × LuaValue) → List LuaValue
  | [] => []
  | (_, child) :: rest => normal child :: normalChildren rest

def normalMembers : List (LuaValue × LuaValue) → List (LuaValue × LuaValue)
  | [] => []
  | (key, child) :: rest => (.string key.keyString, normal child) :: normalMembers rest

end

theorem normalChildren_eq (pairs : List (LuaValue × LuaValue)) : normalChildren pairs = pairs.map fun p => normal p.2 := by
  induction pairs with
  | nil => rfl
  | cons p rest ih => rw [normalChildren, ih, List.map_cons]

theorem normalMembers_eq (pairs : List (LuaValue × LuaValue)) :
    normalMembers pairs = pairs.map fun p => (.string p.1.keyString, normal p.2) := by
  induction pairs with
  | nil => rfl
  | cons p rest ih => rw [normalMembers, ih, List.map_cons]

theorem encodeChildren_eq (pairs : List (LuaValue × LuaValue)) : encodeChildren pairs = pairs.map fun p => encodeJson p.2 := by
  induction pairs with
  | nil => rfl
  | cons p rest ih => rw [encodeChildren, ih, List.map_cons]

def encodeMember (p : LuaValue × LuaValue) : Text := encodeString p.1.keyString ++ ':' :: encodeJson p.2

theorem encodeMembers_eq (pairs : List (LuaValue × LuaValue)) : encodeMembers pairs = pairs.map encodeMember := by
  induction pairs with
  | nil => rfl
  | cons p rest ih =>
    rw [encodeMembers, ih, List.map_cons]
    rfl

theorem validatePairs_ok {pairs : List (LuaValue × LuaValue)} {depth : Nat} :
    validatePairs pairs depth = .ok () ↔ ∀ p ∈ pairs, p.1.isKey = true ∧ validateJsonValue p.2 depth = .ok () := by
  induction pairs with
  | nil => simp [validatePairs]
  | cons p rest ih =>
    obtain ⟨key, child⟩ := p
    simp only [validatePairs, seq_ok, refuseIf_ok, ih, List.mem_cons, forall_eq_or_imp, Bool.not_eq_false, and_assoc]

theorem checkDepth_ok {depth : Nat} : checkDepth depth = .ok () ↔ depth ≤ JSON_MAX_DEPTH := by
  rw [checkDepth, refuseIf_ok, Nat.not_lt]

theorem validate_table_ok {pairs : List (LuaValue × LuaValue)} {depth : Nat} :
    validateJsonValue (.table pairs) depth = .ok () ↔
      depth ≤ JSON_MAX_DEPTH ∧ ∀ p ∈ pairs, p.1.isKey = true ∧ validateJsonValue p.2 (depth + 1) = .ok () := by
  simp only [validateJsonValue, seq_ok, checkDepth_ok, validatePairs_ok]

theorem validate_depth {v : LuaValue} {depth : Nat} (valid : validateJsonValue v depth = .ok ()) : depth ≤ JSON_MAX_DEPTH := by
  cases v <;> simp only [validateJsonValue, seq_ok, checkDepth_ok] at valid
  case nil => exact valid
  case bool => exact valid
  case integer => exact valid
  all_goals exact valid.1

/-! Arrays. -/

theorem onlyArrayFrom_arrayFrom (i : Nat) (values : List LuaValue) :
    LuaValue.onlyArrayFrom i (LuaValue.arrayFrom i values) = true := by
  induction values generalizing i with
  | nil => rfl
  | cons v rest ih =>
    rw [LuaValue.arrayFrom, LuaValue.onlyArrayFrom, ih, Bool.and_true]
    exact decide_eq_true rfl

theorem snd_arrayFrom (i : Nat) (values : List LuaValue) : (LuaValue.arrayFrom i values).map (·.2) = values := by
  induction values generalizing i with
  | nil => rfl
  | cons v rest ih => rw [LuaValue.arrayFrom, List.map_cons, ih]

theorem isKey_arrayFrom {i : Nat} {values : List LuaValue} : ∀ p ∈ LuaValue.arrayFrom i values, p.1.isKey = true := by
  induction values generalizing i with
  | nil => simp [LuaValue.arrayFrom]
  | cons v rest ih =>
    intro p member
    rcases List.mem_cons.mp member with rfl | later
    · rfl
    · exact ih p later

theorem encodeJson_array (values : List LuaValue) :
    encodeJson (.array values) = '[' :: List.intercalate [','] (values.map encodeJson) ++ [']'] := by
  have children : encodeChildren (LuaValue.arrayFrom 0 values) = values.map encodeJson := by
    rw [encodeChildren_eq]
    conv_rhs => rw [← snd_arrayFrom 0 values]
    rw [List.map_map]
    rfl
  rw [LuaValue.array, encodeJson, LuaValue.onlyArray, onlyArrayFrom_arrayFrom, if_pos rfl, children]

theorem encodeJson_object {pairs : List (LuaValue × LuaValue)} (object : LuaValue.onlyArray pairs = false) :
    encodeJson (.table pairs) = '\x7b' :: List.intercalate [','] (pairs.map encodeMember) ++ ['\x7d'] := by
  rw [encodeJson, object, encodeMembers_eq]
  rfl

theorem encodeJson_only {pairs : List (LuaValue × LuaValue)} (only : LuaValue.onlyArray pairs = true) :
    encodeJson (.table pairs) = '[' :: List.intercalate [','] (pairs.map fun p => encodeJson p.2) ++ [']'] := by
  rw [encodeJson, only, if_pos rfl, encodeChildren_eq]

theorem onlyArray_normalMembers {pairs : List (LuaValue × LuaValue)} (object : LuaValue.onlyArray pairs = false) :
    LuaValue.onlyArray (normalMembers pairs) = false := by
  cases pairs with
  | nil => cases object
  | cons p rest => rfl

/-! A value and what it is read back as are written the same and are both valid. -/

theorem reread_spec {n : Binary64} (finite : n.isFinite = true) :
    numberOf (encodeNumber n) = .ok (reread n) ∧ encodeJson (reread n) = encodeNumber n ∧
      ((∃ i, reread n = .integer i) ∨ reread n = .number n) := by
  obtain ⟨v, reads, written, kind⟩ := numberOf_encodeNumber finite
  have same : reread n = v := by
    rw [reread, reads]
  rw [same]
  exact ⟨reads, written, kind⟩

theorem validate_number_ok {n : Binary64} {depth : Nat} :
    validateJsonValue (.number n) depth = .ok () ↔ depth ≤ JSON_MAX_DEPTH ∧ n.isFinite = true := by
  simp only [validateJsonValue, seq_ok, checkDepth_ok, refuseIf_ok, Bool.not_eq_false]

theorem encodeJson_normal {v : LuaValue} {depth : Nat} (valid : validateJsonValue v depth = .ok ()) :
    encodeJson (normal v) = encodeJson v := by
  induction v using LuaValue.valueInduction generalizing depth with
  | nil => rfl
  | bool b => rfl
  | integer i => rfl
  | string s => rfl
  | number n =>
    rw [normal, (reread_spec (validate_number_ok.mp valid).2).2.1, encodeJson]
  | table pairs ih =>
    obtain ⟨-, children⟩ := validate_table_ok.mp valid
    have same : ∀ p ∈ pairs, encodeJson (normal p.2) = encodeJson p.2 := fun p member => ih p member (children p member).2
    cases only : LuaValue.onlyArray pairs with
    | true =>
      have texts : (pairs.map fun p => normal p.2).map encodeJson = pairs.map fun p => encodeJson p.2 := by
        rw [List.map_map]
        exact List.map_congr_left same
      rw [normal, only, if_pos rfl, encodeJson_array, normalChildren_eq, texts, encodeJson_only only]
    | false =>
      have texts : (normalMembers pairs).map encodeMember = pairs.map encodeMember := by
        rw [normalMembers_eq, List.map_map]
        refine List.map_congr_left fun p member => ?_
        simp only [Function.comp, encodeMember, LuaValue.keyString, same p member]
      rw [normal, only]
      change encodeJson (.table (normalMembers pairs)) = _
      rw [encodeJson_object (onlyArray_normalMembers only), texts, encodeJson_object only]

theorem validate_normal {v : LuaValue} {depth : Nat} (valid : validateJsonValue v depth = .ok ()) :
    validateJsonValue (normal v) depth = .ok () := by
  induction v using LuaValue.valueInduction generalizing depth with
  | nil => exact valid
  | bool b => exact valid
  | integer i => exact valid
  | string s => exact valid
  | number n =>
    obtain ⟨shallow, finite⟩ := validate_number_ok.mp valid
    rw [normal]
    rcases (reread_spec finite).2.2 with ⟨i, same⟩ | same
    · rw [same]
      exact checkDepth_ok.mpr shallow
    · rw [same]
      exact valid
  | table pairs ih =>
    obtain ⟨shallow, children⟩ := validate_table_ok.mp valid
    have values : ∀ p ∈ pairs, validateJsonValue (normal p.2) (depth + 1) = .ok () := fun p member =>
      ih p member (children p member).2
    cases only : LuaValue.onlyArray pairs with
    | true =>
      rw [normal, only, if_pos rfl, LuaValue.array, validate_table_ok]
      refine ⟨shallow, fun p member => ⟨isKey_arrayFrom p member, ?_⟩⟩
      have inside : p.2 ∈ (LuaValue.arrayFrom 0 (normalChildren pairs)).map (·.2) := List.mem_map_of_mem member
      rw [snd_arrayFrom, normalChildren_eq] at inside
      obtain ⟨q, source, same⟩ := List.mem_map.mp inside
      rw [← same]
      exact values q source
    | false =>
      rw [normal, only]
      refine validate_table_ok.mpr ⟨shallow, fun p member => ?_⟩
      rw [normalMembers_eq] at member
      obtain ⟨q, source, rfl⟩ := List.mem_map.mp member
      exact ⟨rfl, values q source⟩

/-! Reading. -/

theorem skipWs_cons {c : Char} (dark : isAsciiWhitespace c = false) (rest : Text) : skipWs (c :: rest) = c :: rest :=
  List.dropWhile_cons_of_neg (by simp [dark])

theorem dark_of_isNumeric {c : Char} (numeric : isNumeric c = true) : isAsciiWhitespace c = false := by
  rw [Bool.eq_false_iff]
  intro blank
  rw [isAsciiWhitespace, decide_eq_true_eq] at blank
  rcases blank with rfl | rfl | rfl | rfl | rfl <;> exact absurd numeric (by decide)

theorem isNumeric_of_mem_encodeNumber {n : Binary64} (finite : n.isFinite = true) {c : Char} (member : c ∈ encodeNumber n) :
    isNumeric c = true := by
  cases n with
  | nan => cases finite
  | infinite negative => cases finite
  | finite value float bounded =>
    unfold encodeNumber at member
    dsimp only at member
    split_ifs at member
    · exact isNumeric_of_mem_integer member
    · rcases Binary64.mem_display rfl member with digit | rfl | rfl
      · rw [isNumeric, digit, Bool.true_or]
      · decide
      · decide

theorem encodeJson_head {v : LuaValue} {depth : Nat} (valid : validateJsonValue v depth = .ok ()) :
    ∃ c text, encodeJson v = c :: text ∧ isAsciiWhitespace c = false ∧ c ≠ ']' := by
  have numeric {text : Text} (some : text ≠ []) (all : ∀ c ∈ text, isNumeric c = true) :
      ∃ c rest, text = c :: rest ∧ isAsciiWhitespace c = false ∧ c ≠ ']' := by
    obtain ⟨c, rest, rfl⟩ := List.exists_cons_of_ne_nil some
    have first := all c List.mem_cons_self
    refine ⟨c, rest, rfl, dark_of_isNumeric first, ?_⟩
    rintro rfl
    exact absurd first (by decide)
  cases v with
  | nil => exact ⟨'n', _, rfl, by decide, by decide⟩
  | bool b =>
    cases b with
    | true => exact ⟨'t', _, rfl, by decide, by decide⟩
    | false => exact ⟨'f', _, rfl, by decide, by decide⟩
  | integer i =>
    rw [encodeJson]
    exact numeric (integer_ne_nil _) fun c => isNumeric_of_mem_integer
  | number n =>
    obtain ⟨-, finite⟩ := validate_number_ok.mp valid
    have some : encodeNumber n ≠ [] := by
      intro empty
      have reads := (reread_spec finite).1
      rw [empty] at reads
      cases reads
    rw [encodeJson]
    exact numeric some fun c => isNumeric_of_mem_encodeNumber finite
  | string s => exact ⟨'"', s.flatMap escape ++ ['"'], by rw [encodeJson]; rfl, by decide, by decide⟩
  | table pairs =>
    cases only : LuaValue.onlyArray pairs with
    | true => exact ⟨'[', _, encodeJson_only only, by decide, by decide⟩
    | false => exact ⟨'\x7b', _, encodeJson_object only, by decide, by decide⟩

theorem parseValue_numeric (left : Nat) {c : Char} (numeric : isNumeric c = true) (rest : Text) :
    parseValue (left + 1) (c :: rest) = parseNumber (c :: rest) := by
  unfold parseValue
  rw [skipWs_cons (dark_of_isNumeric numeric)]
  split
  case h_1 same => cases same
  case h_8 => rfl
  all_goals
    rename_i same
    cases same
    exact absurd numeric (by decide)

def ReadsBack (value : Reader Text LuaValue) (v : LuaValue) : Prop :=
  ∀ rest, Stops rest → value (encodeJson v ++ rest) = .ok (normal v, rest)

theorem parseMember_reads {value : Reader Text LuaValue} {p : LuaValue × LuaValue} (reads : ReadsBack value p.2) {rest : Text}
    (stops : Stops rest) :
    parseMember value (encodeMember p ++ rest) = .ok ((.string p.1.keyString, normal p.2), rest) := by
  have split : encodeMember p ++ rest = encodeString p.1.keyString ++ ':' :: (encodeJson p.2 ++ rest) := by
    simp [encodeMember]
  have quoted : encodeString p.1.keyString ++ ':' :: (encodeJson p.2 ++ rest) =
      '"' :: (p.1.keyString.flatMap escape ++ ['"'] ++ ':' :: (encodeJson p.2 ++ rest)) := rfl
  have start : skipWs (encodeString p.1.keyString ++ ':' :: (encodeJson p.2 ++ rest)) =
      encodeString p.1.keyString ++ ':' :: (encodeJson p.2 ++ rest) := by
    rw [quoted]
    exact skipWs_cons (by decide) _
  rw [split, parseMember, start, parseString_encodeString]
  dsimp only
  rw [skipWs_cons (by decide)]
  change (value (encodeJson p.2 ++ rest)).map _ = _
  rw [reads rest stops]
  rfl

theorem parseObject_reads {value : Reader Text LuaValue} {pairs : List (LuaValue × LuaValue)}
    (reads : ∀ p ∈ pairs, ReadsBack value p.2) (rest : Text) :
    parseObject value (List.intercalate [','] (pairs.map encodeMember) ++ '\x7d' :: rest) =
      .ok (.table (pairs.map fun p => (.string p.1.keyString, normal p.2)), rest) := by
  cases pairs with
  | nil => rfl
  | cons p others =>
    obtain ⟨text, first⟩ : ∃ text, List.intercalate [','] ((p :: others).map encodeMember) ++ '\x7d' :: rest = '"' :: text := by
      cases others with
      | nil => exact ⟨_, rfl⟩
      | cons p' others => exact ⟨_, rfl⟩
    have enough : (p :: others).length ≤ ('"' :: text).length + 1 := by
      have fewer := Reader.length_le_intercalate ',' ((p :: others).map encodeMember)
      rw [← first, List.length_append]
      rw [List.length_map] at fewer
      omega
    have members : ∀ q ∈ p :: others, ∀ c, c = ',' ∨ c = '\x7d' → ∀ rest,
        parseMember value (encodeMember q ++ c :: rest) = .ok ((.string q.1.keyString, normal q.2), c :: rest) := by
      intro q member c kind rest
      refine parseMember_reads (reads q member) (.cons ?_)
      rcases kind with comma | brace
      · exact .inl comma
      · exact .inr (.inr brace)
    have listed : parseMembers value ('"' :: text).length _ = _ := Reader.separated_reads (by decide) (fun text => skipWs_cons (by decide) text)
      (fun text => skipWs_cons (by decide) text) members (List.cons_ne_nil _ _) enough rest
    rw [first] at listed ⊢
    rw [parseObject, skipWs_cons (by decide)]
    change (parseMembers value ('"' :: text).length ('"' :: text)).map _ = _
    rw [listed]
    rfl

theorem parseArray_reads {value : Reader Text LuaValue} {pairs : List (LuaValue × LuaValue)}
    (heads : ∀ p ∈ pairs, ∃ c text, encodeJson p.2 = c :: text ∧ isAsciiWhitespace c = false ∧ c ≠ ']')
    (reads : ∀ p ∈ pairs, ReadsBack value p.2) (rest : Text) :
    parseArray value (List.intercalate [','] (pairs.map fun p => encodeJson p.2) ++ ']' :: rest) =
      .ok (.array (pairs.map fun p => normal p.2), rest) := by
  cases pairs with
  | nil => rfl
  | cons p others =>
    obtain ⟨c, start, head, dark, open_⟩ := heads p List.mem_cons_self
    obtain ⟨text, first⟩ : ∃ text,
        List.intercalate [','] ((p :: others).map fun p => encodeJson p.2) ++ ']' :: rest = c :: text := by
      cases others with
      | nil => exact ⟨start ++ ']' :: rest, by simp [List.intercalate, head]⟩
      | cons p' others => exact ⟨_, by rw [List.map_cons, head]; rfl⟩
    have enough : (p :: others).length ≤ (c :: text).length + 1 := by
      have fewer := Reader.length_le_intercalate ',' ((p :: others).map fun p => encodeJson p.2)
      rw [← first, List.length_append]
      rw [List.length_map] at fewer
      omega
    have elements : ∀ q ∈ p :: others, ∀ c, c = ',' ∨ c = ']' → ∀ rest,
        value (encodeJson q.2 ++ c :: rest) = .ok (normal q.2, c :: rest) := by
      intro q member c kind rest
      refine reads q member _ (.cons ?_)
      rcases kind with comma | bracket
      · exact .inl comma
      · exact .inr (.inl bracket)
    have listed : parseElements value (c :: text).length _ = _ := Reader.separated_reads (by decide)
      (fun text => skipWs_cons (by decide) text) (fun text => skipWs_cons (by decide) text) elements (List.cons_ne_nil _ _)
      enough rest
    rw [first] at listed ⊢
    have element : parseArray value (c :: text) =
        (parseElements value (c :: text).length (c :: text)).map fun x => (.array x.1, x.2) := by
      rw [parseArray, skipWs_cons dark]
      split
      · rename_i same
        exact absurd (List.cons.inj same).1 open_
      · rfl
    rw [element, listed]
    rfl

theorem readsBack {v : LuaValue} {depth left : Nat} (valid : validateJsonValue v depth = .ok ())
    (room : left + depth = JSON_MAX_DEPTH + 1) : ReadsBack (parseValue left) v := by
  induction v using LuaValue.valueInduction generalizing depth left with
  | nil =>
    intro rest _
    have shallow := validate_depth valid
    obtain ⟨left, rfl⟩ : ∃ n, left = n + 1 := ⟨left - 1, by omega⟩
    rfl
  | bool b =>
    intro rest _
    have shallow := validate_depth valid
    obtain ⟨left, rfl⟩ : ∃ n, left = n + 1 := ⟨left - 1, by omega⟩
    cases b <;> rfl
  | integer i =>
    intro rest stops
    have shallow := validate_depth valid
    obtain ⟨left, rfl⟩ : ∃ n, left = n + 1 := ⟨left - 1, by omega⟩
    obtain ⟨c, text, shape⟩ := List.exists_cons_of_ne_nil (integer_ne_nil i.val)
    have first : isNumeric c = true := isNumeric_of_mem_integer (shape ▸ List.mem_cons_self)
    have dispatch := parseValue_numeric left first (text ++ rest)
    rw [← List.cons_append, ← shape] at dispatch
    rw [encodeJson, dispatch, parseNumber_append (fun c => isNumeric_of_mem_integer) stops.stopped, numberOf_integer]
    rfl
  | string s =>
    intro rest _
    have shallow := validate_depth valid
    obtain ⟨left, rfl⟩ : ∃ n, left = n + 1 := ⟨left - 1, by omega⟩
    have reads := parseString_encodeString s rest
    have dispatch : parseValue (left + 1) (encodeString s ++ rest) =
        (parseString (encodeString s ++ rest)).map fun x => (.string x.1, x.2) := rfl
    rw [encodeJson, dispatch, reads]
    rfl
  | number n =>
    intro rest stops
    obtain ⟨shallow, finite⟩ := validate_number_ok.mp valid
    obtain ⟨left, rfl⟩ : ∃ n, left = n + 1 := ⟨left - 1, by omega⟩
    obtain ⟨reads, -, -⟩ := reread_spec finite
    have some : encodeNumber n ≠ [] := by
      intro empty
      rw [empty] at reads
      cases reads
    obtain ⟨c, text, shape⟩ := List.exists_cons_of_ne_nil some
    have first : isNumeric c = true := isNumeric_of_mem_encodeNumber finite (shape ▸ List.mem_cons_self)
    have dispatch := parseValue_numeric left first (text ++ rest)
    rw [← List.cons_append, ← shape] at dispatch
    rw [encodeJson, dispatch, parseNumber_append (fun c => isNumeric_of_mem_encodeNumber finite) stops.stopped, reads]
    rfl
  | table pairs ih =>
    intro rest _
    obtain ⟨shallow, children⟩ := validate_table_ok.mp valid
    obtain ⟨left, rfl⟩ : ∃ n, left = n + 1 := ⟨left - 1, by omega⟩
    have below : ∀ p ∈ pairs, ReadsBack (parseValue left) p.2 := fun p member =>
      ih p member (children p member).2 (by omega)
    cases only : LuaValue.onlyArray pairs with
    | true =>
      have elements := parseArray_reads (fun p member => encodeJson_head (children p member).2) below rest
      have split : encodeJson (.table pairs) ++ rest =
          '[' :: (List.intercalate [','] (pairs.map fun p => encodeJson p.2) ++ ']' :: rest) := by
        rw [encodeJson_only only]
        simp
      rw [split, normal, only, if_pos rfl, normalChildren_eq]
      exact elements
    | false =>
      have members := parseObject_reads below rest
      have split : encodeJson (.table pairs) ++ rest =
          '\x7b' :: (List.intercalate [','] (pairs.map encodeMember) ++ '\x7d' :: rest) := by
        rw [encodeJson_object only]
        simp
      rw [split, normal, only, normalMembers_eq]
      exact members

end Bitty.Plugin.Store
