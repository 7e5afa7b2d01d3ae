import Bitty.Plugin.Store.RoundTrip

/-! The grammar of JSON after RFC 8259, and the wider one of the parser. -/

namespace Bitty.Plugin.Store

open Text

/-- Where grammars of JSON differ: the blanks, what the four characters of an escape stand for, and the numbers. -/
structure Lexis where
  blank : Char → Prop
  code : Char → Char → Char → Char → Char → Prop
  number : Text → LuaValue → Prop

/-! In the relations to come `l` is a text that begins with the thing read, and `r` what stands behind it. -/

def Blanks (G : Lexis) (l r : Text) : Prop := ∃ gap, (∀ c ∈ gap, G.blank c) ∧ l = gap ++ r

def simpleEscape : Char → Option Char
  | '"' => some '"'
  | '\\' => some '\\'
  | '/' => some '/'
  | 'b' => some '\x08'
  | 'f' => some '\x0c'
  | 'n' => some '\n'
  | 'r' => some '\r'
  | 't' => some '\t'
  | _ => none

inductive Chars (G : Lexis) : Text → Text → Text → Prop
  | done {r} : Chars G ('"' :: r) [] r
  | unescaped {l s r c} (high : 0x20 ≤ c.toNat) (quote : c ≠ '"') (backslash : c ≠ '\\') (rest : Chars G l s r) :
    Chars G (c :: l) (c :: s) r
  | escaped {l s r c d} (simple : simpleEscape c = some d) (rest : Chars G l s r) : Chars G ('\\' :: c :: l) (d :: s) r
  | code {l s r w x y z d} (code : G.code w x y z d) (rest : Chars G l s r) :
    Chars G ('\\' :: 'u' :: w :: x :: y :: z :: l) (d :: s) r

def Element (G : Lexis) (inner : Text → LuaValue → Text → Prop) (l : Text) (v : LuaValue) (r : Text) : Prop :=
  ∃ m, Blanks G l m ∧ inner m v r

def Member (G : Lexis) (inner : Text → LuaValue → Text → Prop) (l : Text) (p : LuaValue × LuaValue) (r : Text) : Prop :=
  ∃ m s n o, Blanks G l ('"' :: m) ∧ Chars G m s n ∧ Blanks G n (':' :: o) ∧ Element G inner o p.2 r ∧ p.1 = .string s

inductive OneLevel (G : Lexis) (inner : Text → LuaValue → Text → Prop) : Text → LuaValue → Text → Prop
  | null {r} : OneLevel G inner ('n' :: 'u' :: 'l' :: 'l' :: r) .nil r
  | true_ {r} : OneLevel G inner ('t' :: 'r' :: 'u' :: 'e' :: r) (.bool true) r
  | false_ {r} : OneLevel G inner ('f' :: 'a' :: 'l' :: 's' :: 'e' :: r) (.bool false) r
  | number {text v r} (number : G.number text v) : OneLevel G inner (text ++ r) v r
  | string {l s r} (chars : Chars G l s r) : OneLevel G inner ('"' :: l) (.string s) r
  | emptyArray {l r} (closed : Blanks G l (']' :: r)) : OneLevel G inner ('[' :: l) (.array []) r
  | array {l vs r} (elements : Reader.Listed (Element G inner) (Blanks G) ',' ']' l vs r) :
    OneLevel G inner ('[' :: l) (.array vs) r
  | emptyObject {l r} (closed : Blanks G l ('\x7d' :: r)) : OneLevel G inner ('\x7b' :: l) (.table []) r
  | object {l ps r} (members : Reader.Listed (Member G inner) (Blanks G) ',' '\x7d' l ps r) :
    OneLevel G inner ('\x7b' :: l) (.table ps) r

def Value (G : Lexis) : Nat → Text → LuaValue → Text → Prop
  | 0 => fun _ _ _ => False
  | depth + 1 => OneLevel G (Value G depth)

/-- `JSON-text = ws value ws`, of a bounded depth. -/
def Document (G : Lexis) (depth : Nat) (text : Text) (v : LuaValue) : Prop :=
  ∃ r, Element G (Value G depth) text v r ∧ Blanks G r []

/-! RFC 8259. -/

/-- `1*DIGIT`. -/
def Digits (text : Text) : Prop := text ≠ [] ∧ ∀ c ∈ text, c.isDigit = true

def numeral (digits : Text) : Nat := digits.foldl (fun n c => 10 * n + (c.toNat - '0'.toNat)) 0

/-- `int`, a zero or digits that begin with another one. -/
def IsInt (text : Text) : Prop := text = ['0'] ∨ Digits text ∧ text.head? ≠ some '0'

/-- `[ frac ]`: a point and digits, or nothing. -/
inductive Frac : Text → Option Text → Prop
  | absent : Frac [] none
  | point {ds} (digits : Digits ds) : Frac ('.' :: ds) (some ds)

inductive Exp : Text → Option Int → Prop
  | absent : Exp [] none
  | unsigned {e ds} (letter : e = 'e' ∨ e = 'E') (digits : Digits ds) : Exp (e :: ds) (some (numeral ds))
  | plus {e ds} (letter : e = 'e' ∨ e = 'E') (digits : Digits ds) : Exp (e :: '+' :: ds) (some (numeral ds))
  | minus {e ds} (letter : e = 'e' ∨ e = 'E') (digits : Digits ds) : Exp (e :: '-' :: ds) (some (-numeral ds))

/-- An integer where neither a fraction nor an exponent is written and 64 bits hold it, else the nearest float. -/
def denoted (minus : Bool) (int : Text) (frac : Option Text) (exp : Option Int) : LuaValue :=
  let n : Int := if minus then -numeral int else numeral int
  let digits := frac.getD []
  let float := Binary64.round (Binary64.decimal (numeral (int ++ digits), exp.getD 0 - digits.length))
  if h : (frac = none ∧ exp = none) ∧ -9223372036854775808 ≤ n ∧ n ≤ 9223372036854775807 then .integer ⟨n, h.2.1, h.2.2⟩
  else .number (if minus then float.neg else float)

/-- `number = [ minus ] int [ frac ] [ exp ]`. -/
inductive IsNumber : Text → LuaValue → Prop
  | unsigned {whole point fraction power exponent} (int : IsInt whole) (frac : Frac point fraction) (exp : Exp power exponent) :
    IsNumber (whole ++ (point ++ power)) (denoted false whole fraction exponent)
  | minus {whole point fraction power exponent} (int : IsInt whole) (frac : Frac point fraction) (exp : Exp power exponent) :
    IsNumber ('-' :: (whole ++ (point ++ power))) (denoted true whole fraction exponent)

def isSurrogate (code : Nat) : Prop := 0xD800 ≤ code ∧ code < 0xE000

/-- The lexis of RFC 8259. What an escaped surrogate stands for is left open, and such escapes may be left out. -/
def rfc (surrogates : Bool) : Lexis where
  blank c := c = ' ' ∨ c = '\t' ∨ c = '\n' ∨ c = '\r'
  code w x y z c := ∃ code, readDigits hexValue 16 0 [w, x, y, z] = some code ∧
    (c.toNat = code ∨ surrogates = true ∧ isSurrogate code)
  number := IsNumber

def coded : Lexis where
  blank c := isAsciiWhitespace c = true
  code w x y z c := (fromHex [w, x, y, z]).bind charFromU32 = some c
  number text v := text ≠ [] ∧ (∀ c ∈ text, isNumeric c = true) ∧ numberOf text = .ok v

/-! A number of RFC 8259 is read as what it denotes. -/

theorem readDigits_eq_foldl {digits : Text} (all : ∀ c ∈ digits, c.isDigit = true) (seen : Nat) :
    readDigits decimalDigit 10 seen digits = some (digits.foldl (fun n c => 10 * n + (c.toNat - '0'.toNat)) seen) := by
  induction digits generalizing seen with
  | nil => rfl
  | cons c rest ih =>
    obtain ⟨digit, others⟩ := List.forall_mem_cons.mp all
    rw [readDigits, decimalDigit, if_pos digit]
    exact ih others _

variable {ds : Text}

theorem Digits.readNumber (digits : Digits ds) : readNumber ds = some (numeral ds) := by
  rw [Text.readNumber, if_neg digits.1]
  exact readDigits_eq_foldl digits.2 0

theorem IsInt.digits {whole : Text} (int : IsInt whole) : Digits whole := by
  rcases int with rfl | ⟨digits, -⟩
  · exact ⟨List.cons_ne_nil _ _, by decide⟩
  · exact digits

variable {c : Char}

theorem Digits.not_mem (digits : Digits ds) (letter : c.isDigit = false) : c ∉ ds := by
  intro member
  rw [digits.2 c member] at letter
  cases letter

theorem Digits.unsigned (digits : Digits ds) (rest : Text) : ∃ c text, ds ++ rest = c :: text ∧ c ≠ '-' ∧ c ≠ '+' := by
  obtain ⟨c, others, rfl⟩ := List.exists_cons_of_ne_nil digits.1
  refine ⟨c, others ++ rest, rfl, ?_, ?_⟩
  · rintro rfl
    exact digits.not_mem (by decide) List.mem_cons_self
  · rintro rfl
    exact digits.not_mem (by decide) List.mem_cons_self

theorem Digits.readInteger (digits : Digits ds) : readInteger ds = some (numeral ds : Int) := by
  obtain ⟨c, text, shape, minus, plus⟩ := digits.unsigned []
  rw [List.append_nil] at shape
  have read := digits.readNumber
  rw [shape] at read ⊢
  unfold Text.readInteger
  split
  next same => exact absurd (List.cons.inj same).1 minus
  next same => exact absurd (List.cons.inj same).1 plus
  next =>
    rw [read]
    rfl

theorem Digits.readInteger_minus (digits : Digits ds) : Text.readInteger ('-' :: ds) = some (-(numeral ds : Int)) := by
  change (Text.readNumber ds).map _ = _
  rw [digits.readNumber]
  rfl

theorem Digits.readInteger_plus (digits : Digits ds) : Text.readInteger ('+' :: ds) = some (numeral ds : Int) := by
  change (Text.readNumber ds).map _ = _
  rw [digits.readNumber]
  rfl

variable {power : Text} {exponent : Option Int}

theorem Exp.readExponent (exp : Exp power exponent) : Binary64.readExponent power = some (exponent.getD 0) := by
  cases exp with
  | absent => rfl
  | unsigned letter digits => exact digits.readInteger
  | plus letter digits => exact digits.readInteger_plus
  | minus letter digits => exact digits.readInteger_minus

variable {point : Text} {fraction : Option Text}

theorem Frac.readMantissa {whole : Text} (digits : Digits whole) (frac : Frac point fraction) (e : Int) :
    Binary64.readMantissa (whole ++ point) e =
      some (Binary64.decimal (numeral (whole ++ fraction.getD []), e - (fraction.getD []).length)) := by
  have pointless : '.' ∉ whole := digits.not_mem (by decide)
  unfold Binary64.readMantissa
  cases frac with
  | absent =>
    have whole' : splitOnce '.' whole = none := if_neg pointless
    rw [List.append_nil, whole']
    simp [digits.readNumber]
  | point behind =>
    rw [splitOnce_append _ pointless]
    have all : Digits (whole ++ _) := ⟨List.append_ne_nil_of_left_ne_nil digits.1 _, fun c member =>
      (List.mem_append.mp member).elim (digits.2 c) (behind.2 c)⟩
    simp [all.readNumber]

theorem Frac.eq_nil_or (frac : Frac point fraction) :
    point = [] ∧ fraction = none ∨ '.' ∈ point ∧ fraction ≠ none := by
  cases frac with
  | absent => exact .inl ⟨rfl, rfl⟩
  | point digits => exact .inr ⟨List.mem_cons_self, nofun⟩

theorem Exp.eq_nil_or (exp : Exp power exponent) :
    power = [] ∧ exponent = none ∨ (∃ e rest, power = e :: rest ∧ (e = 'e' ∨ e = 'E')) ∧ exponent ≠ none := by
  cases exp with
  | absent => exact .inl ⟨rfl, rfl⟩
  | unsigned letter _ => exact .inr ⟨⟨_, _, rfl, letter⟩, nofun⟩
  | plus letter _ => exact .inr ⟨⟨_, _, rfl, letter⟩, nofun⟩
  | minus letter _ => exact .inr ⟨⟨_, _, rfl, letter⟩, nofun⟩

theorem Frac.isNumeric (frac : Frac point fraction) : ∀ c ∈ point, c.isDigit = true ∨ c = '.' := by
  cases frac with
  | absent => simp
  | point digits =>
    intro c member
    rcases List.mem_cons.mp member with rfl | inside
    · exact .inr rfl
    · exact .inl (digits.2 c inside)

theorem Exp.isNumeric (exp : Exp power exponent) : ∀ c ∈ power, isNumeric c = true := by
  have digit {ds : Text} (digits : Digits ds) : ∀ c ∈ ds, Store.isNumeric c = true := fun c member => by
    rw [Store.isNumeric, digits.2 c member, Bool.true_or]
  have first {e : Char} (letter : e = 'e' ∨ e = 'E') : Store.isNumeric e = true := by rcases letter with rfl | rfl <;> decide
  cases exp with
  | absent => simp
  | unsigned letter digits => exact List.forall_mem_cons.mpr ⟨first letter, digit digits⟩
  | plus letter digits => exact List.forall_mem_cons.mpr ⟨first letter, List.forall_mem_cons.mpr ⟨by decide, digit digits⟩⟩
  | minus letter digits => exact List.forall_mem_cons.mpr ⟨first letter, List.forall_mem_cons.mpr ⟨by decide, digit digits⟩⟩

section

variable {whole point power : Text} {fraction : Option Text} {exponent : Option Int}

theorem readUnsigned_eq (int : IsInt whole) (frac : Frac point fraction) (exp : Exp power exponent) :
    Binary64.readUnsigned (whole ++ (point ++ power)) = some
      (Binary64.decimal (numeral (whole ++ fraction.getD []), exponent.getD 0 - (fraction.getD []).length)) := by
  have before : ∀ c ∈ whole ++ point, decide (c ≠ 'e' ∧ c ≠ 'E') = true := by
    have plain : ∀ c ∈ whole ++ point, c.isDigit = true ∨ c = '.' := fun c member =>
      (List.mem_append.mp member).elim (fun inside => .inl (int.digits.2 c inside)) (frac.isNumeric c)
    intro c member
    rw [decide_eq_true_eq]
    constructor
    · rintro rfl
      exact absurd (plain _ member) (by decide)
    · rintro rfl
      exact absurd (plain _ member) (by decide)
  have split : (whole ++ (point ++ power)).takeWhile (fun c => decide (c ≠ 'e' ∧ c ≠ 'E')) = whole ++ point ∧
      (whole ++ (point ++ power)).dropWhile (fun c => decide (c ≠ 'e' ∧ c ≠ 'E')) = power := by
    rw [← List.append_assoc, List.takeWhile_append_of_pos before, List.dropWhile_append_of_pos before]
    rcases exp.eq_nil_or with ⟨rfl, -⟩ | ⟨⟨e, rest, rfl, letter⟩, -⟩
    · exact ⟨List.append_nil _, rfl⟩
    · rcases letter with rfl | rfl <;> simp
  rw [Binary64.readUnsigned, split.1, split.2, exp.readExponent, Option.bind_some, frac.readMantissa int.digits]

theorem parse_signed (minus : Bool) (int : IsInt whole) (frac : Frac point fraction) (exp : Exp power exponent) :
    let float := Binary64.round
      (Binary64.decimal (numeral (whole ++ fraction.getD []), exponent.getD 0 - (fraction.getD []).length))
    Binary64.parse ((if minus then ['-'] else []) ++ (whole ++ (point ++ power))) = some (if minus then float.neg else float) := by
  obtain ⟨c, rest, shape, noMinus, noPlus⟩ := int.digits.unsigned (point ++ power)
  have read := readUnsigned_eq int frac exp
  rw [shape] at read ⊢
  cases minus with
  | true =>
    change (Binary64.readUnsigned (c :: rest)).map _ = _
    rw [read]
    rfl
  | false =>
    change Binary64.parse (c :: rest) = _
    unfold Binary64.parse
    split
    next same => exact absurd (List.cons.inj same).1 noMinus
    next same => exact absurd (List.cons.inj same).1 noPlus
    next =>
      rw [read]
      rfl

theorem numberOf_eq (minus : Bool) (int : IsInt whole) (frac : Frac point fraction) (exp : Exp power exponent) :
    numberOf ((if minus then ['-'] else []) ++ (whole ++ (point ++ power))) = .ok (denoted minus whole fraction exponent) := by
  have some : (if minus then ['-'] else []) ++ (whole ++ (point ++ power)) ≠ [] :=
    List.append_ne_nil_of_right_ne_nil _ (List.append_ne_nil_of_left_ne_nil int.digits.1 _)
  have mem {c : Char} (letter : c.isDigit = false) (other : c ≠ '-') :
      c ∈ (if minus then ['-'] else []) ++ (whole ++ (point ++ power)) ↔ c ∈ point ∨ c ∈ power := by
    have absent : c ∉ whole := int.digits.not_mem letter
    cases minus <;> simp [absent, other]
  have dot := mem (c := '.') (by decide) (by decide)
  have small := mem (c := 'e') (by decide) (by decide)
  have large := mem (c := 'E') (by decide) (by decide)
  rw [numberOf, if_neg some, parse_signed minus int frac exp]
  rcases frac.eq_nil_or with ⟨rfl, rfl⟩ | ⟨point, written⟩
  · rcases exp.eq_nil_or with ⟨rfl, rfl⟩ | ⟨⟨e, others, rfl, letter⟩, written⟩
    · have integer : readInteger ((if minus then ['-'] else []) ++ (whole ++ ([] ++ []))) =
          Option.some (if minus then -(numeral whole : Int) else numeral whole) := by
        cases minus with
        | true => simpa using int.digits.readInteger_minus
        | false => simpa using int.digits.readInteger
      have plain : ¬('.' ∈ (if minus then ['-'] else []) ++ (whole ++ ([] ++ [])) ∨
          'e' ∈ (if minus then ['-'] else []) ++ (whole ++ ([] ++ [])) ∨
          'E' ∈ (if minus then ['-'] else []) ++ (whole ++ ([] ++ []))) := by
        rw [dot, small, large]
        simp
      rw [if_neg plain, I64.parse, integer, Option.bind_some]
      by_cases fits : -9223372036854775808 ≤ (if minus then -(numeral whole : Int) else numeral whole) ∧
          (if minus then -(numeral whole : Int) else numeral whole) ≤ 9223372036854775807
      · rw [dif_pos fits, denoted, dif_pos ⟨⟨rfl, rfl⟩, fits⟩]
      · rw [dif_neg fits, denoted, dif_neg fun h => fits h.2]
    · have scientific : 'e' ∈ (if minus then ['-'] else []) ++ (whole ++ ([] ++ e :: others)) ∨
          'E' ∈ (if minus then ['-'] else []) ++ (whole ++ ([] ++ e :: others)) := by
        rw [small, large]
        rcases letter with rfl | rfl <;> simp
      rw [if_pos (.inr scientific), denoted, dif_neg fun h => written h.1.2]
  · rw [if_pos (.inl (dot.mpr (.inl point))), denoted, dif_neg fun h => written h.1.1]

end

variable {text : Text} {v : LuaValue}

theorem IsNumber.ne_nil (number : IsNumber text v) : text ≠ [] := by
  cases number with
  | unsigned int _ _ => exact List.append_ne_nil_of_left_ne_nil int.digits.1 _
  | minus _ _ _ => exact List.cons_ne_nil _ _

theorem IsNumber.isNumeric (number : IsNumber text v) : ∀ c ∈ text, isNumeric c = true := by
  have digit {c : Char} (digit : c.isDigit = true) : Store.isNumeric c = true := by rw [Store.isNumeric, digit, Bool.true_or]
  have body {whole point power : Text} {fraction : Option Text} {exponent : Option Int} (int : IsInt whole)
      (frac : Frac point fraction) (exp : Exp power exponent) : ∀ c ∈ whole ++ (point ++ power), Store.isNumeric c = true := by
    intro c member
    rcases List.mem_append.mp member with inside | behind
    · exact digit (int.digits.2 c inside)
    · rcases List.mem_append.mp behind with inside | behind
      · rcases frac.isNumeric c inside with inside | rfl
        · exact digit inside
        · decide
      · exact exp.isNumeric c behind
  cases number with
  | unsigned int frac exp => exact body int frac exp
  | minus int frac exp => exact List.forall_mem_cons.mpr ⟨by decide, body int frac exp⟩

theorem IsNumber.numberOf (number : IsNumber text v) : numberOf text = .ok v := by
  cases number with
  | unsigned int frac exp => exact numberOf_eq false int frac exp
  | minus int frac exp => exact numberOf_eq true int frac exp

theorem coded_number (number : IsNumber text v) : coded.number text v :=
  ⟨number.ne_nil, number.isNumeric, number.numberOf⟩

/-! What is read is a value of the wider grammar. -/

theorem blanks_skipWs (text : Text) : Blanks coded text (skipWs text) :=
  ⟨text.takeWhile isAsciiWhitespace, fun _ member => List.mem_takeWhile_imp member, (List.takeWhile_append_dropWhile).symm⟩

theorem blanks_of_skipWs {rest : Text} (shape : skipWs text = c :: rest) : Blanks coded text (c :: rest) :=
  shape ▸ blanks_skipWs text

variable {l r : Text}

theorem parseStringRest_iff {out s : Text} : parseStringRest out l = .ok (s, r) ↔ ∃ t, s = out ++ t ∧ Chars coded l t r := by
  constructor
  · intro read
    fun_induction parseStringRest out l
    case case2 =>
      cases read
      exact ⟨[], (List.append_nil _).symm, .done⟩
    case case14 out a b c d rest code read₄ ch scalar ih =>
      obtain ⟨t, rfl, chars⟩ := ih read
      exact ⟨ch :: t, by simp, .code (Option.bind_eq_some_iff.mpr ⟨code, read₄, scalar⟩) chars⟩
    case case18 out c rest quote alone _ _ _ _ _ _ _ _ _ _ other high ih =>
      obtain ⟨t, rfl, chars⟩ := ih read
      have backslash : c ≠ '\\' := by
        rintro rfl
        cases rest with
        | nil => exact alone rfl rfl
        | cons d rest => exact other d rest rfl rfl
      exact ⟨c :: t, by simp, .unescaped (Nat.not_lt.mp high) quote backslash chars⟩
    case case4 ih | case5 ih | case6 ih | case7 ih | case8 ih | case9 ih | case10 ih | case11 ih =>
      obtain ⟨t, rfl, chars⟩ := ih read
      exact ⟨_ :: t, by simp, .escaped rfl chars⟩
    all_goals cases read
  · rintro ⟨t, rfl, chars⟩
    induction chars generalizing out with
    | done => rw [parseStringRest, List.append_nil]
    | @unescaped l s r c high quote backslash _ ih =>
      rw [List.append_cons, ← ih, parseStringRest]
      · rw [if_neg (Nat.not_lt.mpr high)]
      · exact quote
      all_goals
        intros
        contradiction
    | @escaped l s r c d simple _ ih =>
      rw [List.append_cons, ← ih]
      unfold simpleEscape at simple
      split at simple <;> cases simple <;> rfl
    | @code l s r w x y z d code _ ih =>
      obtain ⟨n, read, scalar⟩ := Option.bind_eq_some_iff.mp code
      rw [List.append_cons, ← ih, parseStringRest, read]
      dsimp only
      rw [scalar]

theorem Blanks.trans {G : Lexis} {m : Text} (first : Blanks G l m) (second : Blanks G m r) : Blanks G l r := by
  obtain ⟨gap, blank, rfl⟩ := first
  obtain ⟨gap', blank', rfl⟩ := second
  exact ⟨gap ++ gap', fun c member => (List.mem_append.mp member).elim (blank c) (blank' c), (List.append_assoc _ _ _).symm⟩

theorem parseNumber_ok (read : parseNumber l = .ok (v, r)) : ∃ text, coded.number text v ∧ l = text ++ r := by
  unfold parseNumber at read
  cases taken : numberOf (l.takeWhile isNumeric) with
  | error e =>
    rw [taken] at read
    cases read
  | ok w =>
    rw [taken] at read
    cases read
    refine ⟨l.takeWhile isNumeric, ⟨?_, fun _ member => List.mem_takeWhile_imp member, taken⟩, List.takeWhile_append_dropWhile.symm⟩
    intro none
    rw [none] at taken
    cases taken

theorem expectLiteral_ok {literal : Text} {value : LuaValue} (read : expectLiteral literal value l = .ok (v, r)) :
    l = literal ++ r ∧ v = value := by
  unfold expectLiteral at read
  split at read
  next rest stripped =>
    cases read
    exact ⟨eq_append_of_stripPrefix stripped, rfl⟩
  next => cases read

theorem map_ok {α β : Type} {read : Except Text (α × Text)} {f : α → β} {b : β}
    (mapped : read.map (fun (a, rest) => (f a, rest)) = .ok (b, r)) : ∃ a, read = .ok (a, r) ∧ b = f a := by
  cases read with
  | error e => cases mapped
  | ok found =>
    obtain ⟨a, rest⟩ := found
    cases mapped
    exact ⟨a, rfl, rfl⟩

section

variable {value : Reader Text LuaValue} {inner : Text → LuaValue → Text → Prop} {l r : Text} {v : LuaValue}

theorem member_of_parseMember (sound : ∀ l v r, value l = .ok (v, r) → Element coded inner l v r) {p : LuaValue × LuaValue}
    (read : parseMember value l = .ok (p, r)) : Member coded inner l p r := by
  unfold parseMember at read
  split at read
  next => cases read
  next name behind named =>
    split at read
    next after colon =>
      obtain ⟨v, valued, rfl⟩ := map_ok read
      unfold parseString at named
      split at named
      next m quote =>
        obtain ⟨s, same, chars⟩ := parseStringRest_iff.mp named
        rw [List.nil_append] at same
        subst same
        exact ⟨m, name, behind, after, blanks_of_skipWs quote, chars, blanks_of_skipWs colon, sound _ _ _ valued, rfl⟩
      next => cases named
    next => cases read

theorem object_of_parseObject (sound : ∀ l v r, value l = .ok (v, r) → Element coded inner l v r)
    (read : parseObject value l = .ok (v, r)) : OneLevel coded inner ('\x7b' :: l) v r := by
  unfold parseObject at read
  split at read
  next rest closed =>
    cases read
    exact .emptyObject (blanks_of_skipWs closed)
  next =>
    obtain ⟨pairs, members, rfl⟩ := map_ok read
    have listed := Reader.listed_of_separated (fun _ _ _ => member_of_parseMember sound) (fun _ _ _ => blanks_of_skipWs) members
    refine .object (listed.start fun p m => ?_)
    rintro ⟨k, s, n, o, blank, others⟩
    exact ⟨k, s, n, o, (blanks_skipWs l).trans blank, others⟩

theorem array_of_parseArray (sound : ∀ l v r, value l = .ok (v, r) → Element coded inner l v r)
    (read : parseArray value l = .ok (v, r)) : OneLevel coded inner ('[' :: l) v r := by
  unfold parseArray at read
  split at read
  next rest closed =>
    cases read
    exact .emptyArray (blanks_of_skipWs closed)
  next =>
    obtain ⟨values, elements, rfl⟩ := map_ok read
    have listed := Reader.listed_of_separated sound (fun _ _ _ => blanks_of_skipWs) elements
    refine .array (listed.start fun v m => ?_)
    rintro ⟨k, blank, valued⟩
    exact ⟨k, (blanks_skipWs l).trans blank, valued⟩

end

theorem element_of_parseValue {left : Nat} (read : parseValue left l = .ok (v, r)) :
    Element coded (Value coded left) l v r := by
  induction left generalizing l v r with
  | zero => cases read
  | succ left ih =>
    have sound : ∀ l v r, parseValue left l = .ok (v, r) → Element coded (Value coded left) l v r := fun _ _ _ => ih
    unfold parseValue at read
    split at read
    next => cases read
    next rest brace => exact ⟨_, blanks_of_skipWs brace, object_of_parseObject sound read⟩
    next rest bracket => exact ⟨_, blanks_of_skipWs bracket, array_of_parseArray sound read⟩
    next rest quote =>
      obtain ⟨s, chars, rfl⟩ := map_ok read
      obtain ⟨t, same, chars⟩ := parseStringRest_iff.mp chars
      rw [List.nil_append] at same
      subst same
      exact ⟨_, blanks_of_skipWs quote, .string chars⟩
    next rest letter =>
      obtain ⟨shape, rfl⟩ := expectLiteral_ok read
      exact ⟨_, blanks_of_skipWs letter, shape ▸ .true_⟩
    next rest letter =>
      obtain ⟨shape, rfl⟩ := expectLiteral_ok read
      exact ⟨_, blanks_of_skipWs letter, shape ▸ .false_⟩
    next rest letter =>
      obtain ⟨shape, rfl⟩ := expectLiteral_ok read
      exact ⟨_, blanks_of_skipWs letter, shape ▸ .null⟩
    next =>
      obtain ⟨text, number, shape⟩ := parseNumber_ok read
      exact ⟨_, blanks_skipWs l, shape ▸ .number number⟩

/-! A value of the wider grammar is read. -/

theorem skipWs_of_blanks (blank : Blanks coded l r) (dark : ∀ c ∈ r.head?, isAsciiWhitespace c = false) :
    skipWs l = r := by
  obtain ⟨gap, blank, rfl⟩ := blank
  rw [skipWs, List.dropWhile_append_of_pos blank]
  cases r with
  | nil => rfl
  | cons c r => exact skipWs_cons (dark c rfl) r

theorem skipWs_of_blanks_cons (blank : Blanks coded l (c :: r)) (dark : isAsciiWhitespace c = false) :
    skipWs l = c :: r :=
  skipWs_of_blanks blank fun _ first => Option.some.inj first ▸ dark

theorem stopped_of_blanks (blank : Blanks coded l (c :: r)) (other : isNumeric c = false) : Stopped l := by
  obtain ⟨gap, blank, rfl⟩ := blank
  intro d first
  cases gap with
  | nil => exact Option.some.inj first ▸ other
  | cons e gap =>
    obtain rfl := Option.some.inj first
    rw [Bool.eq_false_iff]
    intro numeric
    have white : isAsciiWhitespace e = true := blank e List.mem_cons_self
    rw [dark_of_isNumeric numeric] at white
    cases white

theorem stopped_of_ended (ended : Blanks coded l []) : Stopped l := by
  obtain ⟨gap, blank, rfl⟩ := ended
  intro c first
  rw [Bool.eq_false_iff]
  intro numeric
  have white : isAsciiWhitespace c = true := blank c (List.mem_of_mem_head? (by simpa using first))
  rw [dark_of_isNumeric numeric] at white
  cases white

theorem OneLevel.head {inner : Text → LuaValue → Text → Prop} (one : OneLevel coded inner l v r) :
    ∃ c rest, l = c :: rest ∧ isAsciiWhitespace c = false ∧ c ≠ ']' := by
  cases one with
  | null | true_ | false_ | string _ | emptyArray _ | array _ | emptyObject _ | object _ => exact ⟨_, _, rfl, by decide, by decide⟩
  | @number text v r number =>
    obtain ⟨c, rest, rfl⟩ := List.exists_cons_of_ne_nil number.1
    have numeric : isNumeric c = true := number.2.1 c List.mem_cons_self
    refine ⟨c, rest ++ r, rfl, dark_of_isNumeric numeric, ?_⟩
    rintro rfl
    cases numeric

section

variable {value : Reader Text LuaValue} {inner : Text → LuaValue → Text → Prop} {l r : Text} {v : LuaValue}

theorem parseMember_of_member (complete : ∀ l v r, Element coded inner l v r → Stopped r → value l = .ok (v, r))
    {p : LuaValue × LuaValue} (member : Member coded inner l p r) (stopped : Stopped r) : parseMember value l = .ok (p, r) := by
  obtain ⟨m, s, n, o, quote, chars, colon, element, name⟩ := member
  obtain ⟨key, v⟩ := p
  cases name
  have named : parseString ('"' :: m) = .ok (s, n) := parseStringRest_iff.mpr ⟨s, rfl, chars⟩
  unfold parseMember
  rw [skipWs_of_blanks_cons quote (by decide), named]
  dsimp only
  rw [skipWs_of_blanks_cons colon (by decide)]
  change (value o).map _ = _
  rw [complete _ _ _ element stopped]
  rfl

theorem Blanks.refl {G : Lexis} (l : Text) : Blanks G l l := ⟨[], by simp, rfl⟩

theorem parseObject_of_listed (takes : Reader.Takes value)
    (complete : ∀ l v r, Element coded inner l v r → Stopped r → value l = .ok (v, r)) {ps : List (LuaValue × LuaValue)}
    (members : Reader.Listed (Member coded inner) (Blanks coded) ',' '\x7d' l ps r) : parseObject value l = .ok (.table ps, r) := by
  obtain ⟨m, quote⟩ : ∃ m, skipWs l = '"' :: m := by
    cases members with
    | last first _ | more first _ _ =>
      obtain ⟨m, -, -, -, quote, -⟩ := first
      exact ⟨m, skipWs_of_blanks_cons quote (by decide)⟩
  have listed : Reader.Listed (Member coded inner) (Blanks coded) ',' '\x7d' (skipWs l) ps r := by
    refine members.start fun p n => ?_
    rintro ⟨k, s, n', o, blank, others⟩
    rw [skipWs_of_blanks_cons blank (by decide)]
    exact ⟨k, s, n', o, .refl _, others⟩
  have read : parseMembers value (max ps.length (skipWs l).length) (skipWs l) = .ok (ps, r) := by
    refine Reader.separated_of_listed (by decide) listed (fun l p m c n member gap stop => ?_) (by omega)
    have other : isNumeric c = false ∧ isAsciiWhitespace c = false := by rcases stop with rfl | rfl <;> decide
    exact ⟨parseMember_of_member complete member (stopped_of_blanks gap other.1), skipWs_of_blanks_cons gap other.2⟩
  rw [parseMembers_enough takes (le_max_right _ _)] at read
  unfold parseObject
  split
  next rest closed =>
    rw [quote] at closed
    cases closed
  next =>
    rw [read]
    rfl

theorem parseArray_of_listed (takes : Reader.Takes value)
    (complete : ∀ l v r, Element coded inner l v r → Stopped r → value l = .ok (v, r))
    (head : ∀ l v r, inner l v r → ∃ c rest, l = c :: rest ∧ isAsciiWhitespace c = false ∧ c ≠ ']') {vs : List LuaValue}
    (elements : Reader.Listed (Element coded inner) (Blanks coded) ',' ']' l vs r) : parseArray value l = .ok (.array vs, r) := by
  have spaced {l r : Text} {v : LuaValue} (element : Element coded inner l v r) :
      ∃ c rest, skipWs l = c :: rest ∧ c ≠ ']' ∧ inner (c :: rest) v r := by
    obtain ⟨m, blank, valued⟩ := element
    obtain ⟨c, rest, rfl, dark, other⟩ := head _ _ _ valued
    exact ⟨c, rest, skipWs_of_blanks_cons blank dark, other, valued⟩
  obtain ⟨c, m, shape, open'⟩ : ∃ c m, skipWs l = c :: m ∧ c ≠ ']' := by
    cases elements with
    | last first _ | more first _ _ =>
      obtain ⟨c, m, shape, other, -⟩ := spaced first
      exact ⟨c, m, shape, other⟩
  have listed : Reader.Listed (Element coded inner) (Blanks coded) ',' ']' (skipWs l) vs r := by
    refine elements.start fun v n element => ?_
    obtain ⟨c, m, shape, -, valued⟩ := spaced element
    rw [shape]
    exact ⟨c :: m, .refl _, valued⟩
  have read : parseElements value (max vs.length (skipWs l).length) (skipWs l) = .ok (vs, r) := by
    refine Reader.separated_of_listed (by decide) listed (fun l p m c n element gap stop => ?_) (by omega)
    have other : isNumeric c = false ∧ isAsciiWhitespace c = false := by rcases stop with rfl | rfl <;> decide
    exact ⟨complete _ _ _ element (stopped_of_blanks gap other.1), skipWs_of_blanks_cons gap other.2⟩
  rw [parseElements_enough takes (le_max_right _ _)] at read
  unfold parseArray
  split
  next rest closed =>
    rw [shape] at closed
    cases closed
    exact absurd rfl open'
  next =>
    rw [read]
    rfl

end

theorem Value.head {depth : Nat} (valued : Value coded depth l v r) :
    ∃ c rest, l = c :: rest ∧ isAsciiWhitespace c = false ∧ c ≠ ']' := by
  cases depth with
  | zero => cases valued
  | succ depth => exact OneLevel.head valued

theorem parseValue_of_skipWs (left : Nat) {rest : Text} (shape : skipWs l = c :: rest)
    (dark : isAsciiWhitespace c = false) :
    parseValue (left + 1) l = parseValue (left + 1) (c :: rest) := by
  unfold parseValue
  rw [shape, skipWs_cons dark]

theorem parseValue_of_element {left : Nat} (element : Element coded (Value coded left) l v r)
    (stopped : Stopped r) : parseValue left l = .ok (v, r) := by
  induction left generalizing l v r with
  | zero =>
    obtain ⟨m, -, valued⟩ := element
    cases valued
  | succ left ih =>
    have complete : ∀ l v r, Element coded (Value coded left) l v r → Stopped r → parseValue left l = .ok (v, r) := fun _ _ _ => ih
    obtain ⟨m, blank, valued⟩ := element
    obtain ⟨c, rest, rfl, dark, -⟩ := valued.head
    rw [parseValue_of_skipWs left (skipWs_of_blanks_cons blank dark) dark]
    generalize shape : c :: rest = m at valued ⊢
    cases valued with
    | null | true_ | false_ => rfl
    | @string m s r chars =>
      change (parseStringRest [] m).map _ = _
      rw [parseStringRest_iff.mpr ⟨s, rfl, chars⟩]
      rfl
    | @emptyArray m r closed =>
      change parseArray (parseValue left) m = _
      unfold parseArray
      rw [skipWs_of_blanks_cons closed (by decide)]
      rfl
    | array elements => exact parseArray_of_listed (takes_parseValue left) complete (fun _ _ _ => Value.head) elements
    | @emptyObject m r closed =>
      change parseObject (parseValue left) m = _
      unfold parseObject
      rw [skipWs_of_blanks_cons closed (by decide)]
      rfl
    | object members => exact parseObject_of_listed (takes_parseValue left) complete members
    | @number text v r number =>
      obtain ⟨some, numeric, read⟩ := number
      obtain ⟨d, others, rfl⟩ := List.exists_cons_of_ne_nil some
      rw [List.cons_append, parseValue_numeric left (numeric d List.mem_cons_self), ← List.cons_append,
        parseNumber_append numeric stopped, read]
      rfl

theorem parseJson_iff : parseJson text = .ok v ↔ Document coded JSON_MAX_DEPTH text v := by
  unfold parseJson
  constructor
  · intro parsed
    split at parsed
    next => cases parsed
    next value rest read =>
      split_ifs at parsed with ended
      cases parsed
      exact ⟨rest, element_of_parseValue read, ended ▸ blanks_skipWs rest⟩
  · rintro ⟨rest, element, ended⟩
    rw [parseValue_of_element element (stopped_of_ended ended)]
    exact if_pos (skipWs_of_blanks ended (by simp))

end Bitty.Plugin.Store
