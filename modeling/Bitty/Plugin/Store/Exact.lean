import Bitty.Plugin.Store.Grammar

/-! Where the parser is wider than RFC 8259, and that it is so nowhere else. -/

namespace Bitty.Plugin.Store

open Text

/-- Where a text is read: outside of its strings, at the start of a word or within one, in a string, or behind a backslash. -/
inductive Place
  | outside (word : Bool)
  | inside
  | escape

/-- No use of the wider grammar: outside of the strings no form feed stands and every word that does not begin with a letter is a
number, and in the strings no `\u` has a plus sign behind it. -/
def Narrow : Place → Text → Prop
  | _, [] => True
  | .outside word, c :: rest =>
    if c = '"' then Narrow .inside rest
    else if c.isAlpha then Narrow (.outside true) rest
    else if isNumeric c then (word = true ∨ ∃ v, IsNumber (c :: rest.takeWhile isNumeric) v) ∧ Narrow (.outside true) rest
    else c ≠ '\x0c' ∧ Narrow (.outside false) rest
  | .inside, c :: rest =>
    if c = '"' then Narrow (.outside false) rest else if c = '\\' then Narrow .escape rest else Narrow .inside rest
  | .escape, c :: rest => (c = 'u' → rest.head? ≠ some '+') ∧ Narrow .inside rest

theorem narrow_outside (word : Bool) (c : Char) (rest : Text) : Narrow (.outside word) (c :: rest) =
    if c = '"' then Narrow .inside rest
    else if c.isAlpha then Narrow (.outside true) rest
    else if isNumeric c then (word = true ∨ ∃ v, IsNumber (c :: rest.takeWhile isNumeric) v) ∧ Narrow (.outside true) rest
    else c ≠ '\x0c' ∧ Narrow (.outside false) rest := rfl

theorem narrow_inside_cons (c : Char) (rest : Text) : Narrow .inside (c :: rest) =
    if c = '"' then Narrow (.outside false) rest else if c = '\\' then Narrow .escape rest else Narrow .inside rest := rfl

theorem narrow_escape_cons (c : Char) (rest : Text) :
    Narrow .escape (c :: rest) = ((c = 'u' → rest.head? ≠ some '+') ∧ Narrow .inside rest) := rfl

def Between (c : Char) : Prop := c ≠ '"' ∧ c.isAlpha = false ∧ isNumeric c = false ∧ c ≠ '\x0c'

instance (c : Char) : Decidable (Between c) := inferInstanceAs (Decidable (_ ∧ _))

theorem narrow_between {word : Bool} {c : Char} (between : Between c) (rest : Text) :
    Narrow (.outside word) (c :: rest) ↔ Narrow (.outside false) rest := by
  obtain ⟨quote, letter, other, feed⟩ := between
  simp [narrow_outside, quote, letter, other, feed]

theorem narrow_letter {word : Bool} {c : Char} (letter : c.isAlpha = true) (rest : Text) :
    Narrow (.outside word) (c :: rest) ↔ Narrow (.outside true) rest := by
  have quote : c ≠ '"' := by
    rintro rfl
    cases letter
  rw [narrow_outside, if_neg quote, if_pos letter]

theorem not_narrow_feed {word : Bool} (rest : Text) : ¬Narrow (.outside word) ('\x0c' :: rest) := by
  rw [narrow_outside, if_neg (by decide), if_neg (by decide), if_neg (by decide)]
  exact fun narrow => narrow.1 rfl

theorem narrow_stopped {rest : Text} (stopped : Stopped rest) : Narrow (.outside true) rest ↔ Narrow (.outside false) rest := by
  cases rest with
  | nil => rfl
  | cons c rest =>
    have other : isNumeric c = false := stopped c rfl
    simp [narrow_outside, other]

theorem narrow_numeric {text : Text} (numeric : ∀ c ∈ text, isNumeric c = true) (rest : Text) :
    Narrow (.outside true) (text ++ rest) ↔ Narrow (.outside true) rest := by
  induction text with
  | nil => rfl
  | cons c text ih =>
    obtain ⟨first, others⟩ := List.forall_mem_cons.mp numeric
    have quote : c ≠ '"' := by
      rintro rfl
      cases first
    rw [List.cons_append, narrow_outside, if_neg quote, if_pos first, ih others]
    simp

theorem narrow_number {text rest : Text} {c : Char} (letter : c.isAlpha = false) (numeric : ∀ d ∈ c :: text, isNumeric d = true)
    (stopped : Stopped rest) :
    Narrow (.outside false) (c :: text ++ rest) ↔ (∃ v, IsNumber (c :: text) v) ∧ Narrow (.outside false) rest := by
  obtain ⟨first, others⟩ := List.forall_mem_cons.mp numeric
  have quote : c ≠ '"' := by
    rintro rfl
    cases first
  rw [List.cons_append, narrow_outside, if_neg quote, letter, if_neg Bool.false_ne_true, if_pos first, (span_isNumeric others stopped).1,
    narrow_numeric others, narrow_stopped stopped]
  simp

theorem hexValue_plain {c : Char} (hex : hexValue c ≠ none) : c ≠ '"' ∧ c ≠ '\\' ∧ c ≠ '+' := by
  refine ⟨?_, ?_, ?_⟩ <;> (rintro rfl; exact hex (by decide))

theorem hexValue_of_readDigits {text : Text} {seen code : Nat} (read : readDigits hexValue 16 seen text = some code) :
    ∀ c ∈ text, hexValue c ≠ none := by
  induction text generalizing seen with
  | nil => simp
  | cons c rest ih =>
    rw [readDigits] at read
    cases digit : hexValue c with
    | none =>
      rw [digit] at read
      cases read
    | some d =>
      rw [digit] at read
      exact List.forall_mem_cons.mpr ⟨by rw [digit]; exact Option.some_ne_none d, ih read⟩

theorem narrow_inside {text : Text} (plain : ∀ c ∈ text, c ≠ '"' ∧ c ≠ '\\') (rest : Text) :
    Narrow .inside (text ++ rest) ↔ Narrow .inside rest := by
  induction text with
  | nil => rfl
  | cons c text ih =>
    obtain ⟨first, others⟩ := List.forall_mem_cons.mp plain
    rw [List.cons_append, narrow_inside_cons, if_neg first.1, if_neg first.2, ih others]

theorem narrow_escape (c : Char) (rest : Text) :
    Narrow .inside ('\\' :: c :: rest) ↔ (c = 'u' → rest.head? ≠ some '+') ∧ Narrow .inside rest := by
  rw [narrow_inside_cons, if_neg (by decide), if_pos rfl, narrow_escape_cons]

theorem narrow_escaped {c d : Char} (simple : simpleEscape c = some d) (rest : Text) :
    Narrow .inside ('\\' :: c :: rest) ↔ Narrow .inside rest := by
  have other : c ≠ 'u' := by
    rintro rfl
    cases simple
  rw [narrow_escape]
  exact and_iff_right fun same => absurd same other

theorem narrow_code {w x y z : Char} {code : Nat} (read : readDigits hexValue 16 0 [w, x, y, z] = some code) (rest : Text) :
    Narrow .inside ('\\' :: 'u' :: w :: x :: y :: z :: rest) ↔ Narrow .inside rest := by
  have hex := hexValue_of_readDigits read
  have plain : ∀ c ∈ [w, x, y, z], c ≠ '"' ∧ c ≠ '\\' := fun c member =>
    ⟨(hexValue_plain (hex c member)).1, (hexValue_plain (hex c member)).2.1⟩
  have sign : w ≠ '+' := (hexValue_plain (hex w List.mem_cons_self)).2.2
  rw [narrow_escape, ← narrow_inside plain rest]
  exact and_iff_right fun _ same => sign (Option.some.inj same)

section

variable {surrogates : Bool} {l r : Text}

/-! Of a text of RFC 8259 no part is wider. -/

theorem Chars.narrow {s : Text} (chars : Chars (rfc surrogates) l s r) (behind : Narrow (.outside false) r) : Narrow .inside l := by
  induction chars with
  | done =>
    rw [narrow_inside_cons, if_pos rfl]
    exact behind
  | unescaped _ quote backslash _ ih =>
    rw [narrow_inside_cons, if_neg quote, if_neg backslash]
    exact ih behind
  | escaped simple _ ih => exact (narrow_escaped simple _).mpr (ih behind)
  | code code _ ih =>
    obtain ⟨n, read, -⟩ := code
    exact (narrow_code read _).mpr (ih behind)

theorem rfc_blank {c : Char} (blank : (rfc surrogates).blank c) : Between c := by
  rcases blank with rfl | rfl | rfl | rfl <;> decide

theorem Blanks.narrow_iff (blank : Blanks (rfc surrogates) l r) : Narrow (.outside false) l ↔ Narrow (.outside false) r := by
  obtain ⟨gap, blank, rfl⟩ := blank
  induction gap with
  | nil => rfl
  | cons c gap ih =>
    obtain ⟨first, others⟩ := List.forall_mem_cons.mp blank
    rw [List.cons_append, narrow_between (rfc_blank first), ih others]

theorem rfc_stopped {c : Char} (blank : Blanks (rfc surrogates) l (c :: r)) (other : isNumeric c = false) : Stopped l := by
  obtain ⟨gap, blank, rfl⟩ := blank
  intro d first
  cases gap with
  | nil => exact Option.some.inj first ▸ other
  | cons e gap => exact Option.some.inj first ▸ (rfc_blank (blank e List.mem_cons_self)).2.2.1

theorem Blanks.narrow_mark {c : Char} (blank : Blanks (rfc surrogates) l (c :: r)) (between : Between c) :
    Narrow (.outside false) l ↔ Narrow (.outside false) r :=
  blank.narrow_iff.trans (narrow_between between r)

theorem not_isAlpha_of_isDigit {c : Char} (digit : c.isDigit = true) : c.isAlpha = false := by
  obtain ⟨d, small, rfl⟩ := exists_digitChar digit
  have all : ∀ d < 10, d.digitChar.isAlpha = false := by decide
  exact all d small

theorem IsNumber.head {text : Text} {v : LuaValue} (number : IsNumber text v) : ∃ c rest, text = c :: rest ∧ c.isAlpha = false := by
  cases number with
  | unsigned int _ _ =>
    obtain ⟨c, others, rfl⟩ := List.exists_cons_of_ne_nil int.digits.1
    exact ⟨c, _, rfl, not_isAlpha_of_isDigit (int.digits.2 c List.mem_cons_self)⟩
  | minus _ _ _ => exact ⟨_, _, rfl, by decide⟩

theorem Value.narrow {depth : Nat} {v : LuaValue} (valued : Value (rfc surrogates) depth l v r) (stopped : Stopped r)
    (behind : Narrow (.outside false) r) : Narrow (.outside false) l := by
  induction depth generalizing l v r with
  | zero => cases valued
  | succ depth ih =>
    have step {l m n : Text} {v : LuaValue} {c : Char} (element : Element (rfc surrogates) (Value (rfc surrogates) depth) l v m)
        (blank : Blanks (rfc surrogates) m (c :: n)) (between : Between c) (later : Narrow (.outside false) n) :
        Narrow (.outside false) l := by
      obtain ⟨k, gap, valued⟩ := element
      exact gap.narrow_iff.mpr (ih valued (rfc_stopped blank between.2.2.1) ((blank.narrow_mark between).mpr later))
    cases valued with
    | null =>
      refine (narrow_letter (by decide) _).mpr ((narrow_letter (by decide) _).mpr ?_)
      refine (narrow_letter (by decide) _).mpr ((narrow_letter (by decide) _).mpr ?_)
      exact (narrow_stopped stopped).mpr behind
    | true_ =>
      refine (narrow_letter (by decide) _).mpr ((narrow_letter (by decide) _).mpr ?_)
      refine (narrow_letter (by decide) _).mpr ((narrow_letter (by decide) _).mpr ?_)
      exact (narrow_stopped stopped).mpr behind
    | false_ =>
      refine (narrow_letter (by decide) _).mpr ((narrow_letter (by decide) _).mpr ?_)
      refine (narrow_letter (by decide) _).mpr ((narrow_letter (by decide) _).mpr ((narrow_letter (by decide) _).mpr ?_))
      exact (narrow_stopped stopped).mpr behind
    | string chars =>
      rw [narrow_outside, if_pos rfl]
      exact chars.narrow behind
    | number number =>
      obtain ⟨c, rest, rfl, letter⟩ := IsNumber.head number
      exact (narrow_number letter (IsNumber.isNumeric number) stopped).mpr ⟨⟨_, number⟩, behind⟩
    | emptyArray closed => exact (narrow_between (by decide) _).mpr ((closed.narrow_mark (by decide)).mpr behind)
    | array elements =>
      refine (narrow_between (by decide) _).mpr (elements.back (fun l v m c n element gap mark => ?_) behind)
      exact step element gap (by rcases mark with rfl | rfl <;> decide)
    | emptyObject closed => exact (narrow_between (by decide) _).mpr ((closed.narrow_mark (by decide)).mpr behind)
    | object members =>
      refine (narrow_between (by decide) _).mpr (members.back (fun l p m c n member gap mark later => ?_) behind)
      obtain ⟨k, s, k', o, quote, chars, colon, element, -⟩ := member
      have value := step element gap (by rcases mark with rfl | rfl <;> decide) later
      have name : Narrow .inside k := chars.narrow ((colon.narrow_mark (by decide)).mpr value)
      refine quote.narrow_iff.mpr ?_
      rw [narrow_outside, if_pos rfl]
      exact name

/-! What is read of a text without wider parts is of RFC 8259. -/

theorem Chars.of_narrow {s : Text} (chars : Chars coded l s r) (narrow : Narrow .inside l) :
    Chars (rfc surrogates) l s r ∧ Narrow (.outside false) r := by
  induction chars with
  | done =>
    rw [narrow_inside_cons, if_pos rfl] at narrow
    exact ⟨.done, narrow⟩
  | unescaped high quote backslash _ ih =>
    rw [narrow_inside_cons, if_neg quote, if_neg backslash] at narrow
    exact ⟨.unescaped high quote backslash (ih narrow).1, (ih narrow).2⟩
  | escaped simple _ ih =>
    have narrow := (narrow_escaped simple _).mp narrow
    exact ⟨.escaped simple (ih narrow).1, (ih narrow).2⟩
  | @code l s r w x y z d code _ ih =>
    obtain ⟨n, hex, scalar⟩ := Option.bind_eq_some_iff.mp code
    have sign : w ≠ '+' := fun same => ((narrow_escape _ _).mp narrow).1 rfl (congrArg some same)
    have read : readDigits hexValue 16 0 [w, x, y, z] = some n := by
      rw [fromHex, stripPrefix_eq_none_of_head sign.symm] at hex
      exact hex
    have value : d.toNat = n := by
      unfold charFromU32 at scalar
      split at scalar
      next same => exact Option.some.inj scalar ▸ same
      next => cases scalar
    have narrow := (narrow_code read _).mp narrow
    exact ⟨.code ⟨n, read, .inl value⟩ (ih narrow).1, (ih narrow).2⟩

theorem coded_between {c : Char} (blank : isAsciiWhitespace c = true) (feed : c ≠ '\x0c') :
    (rfc surrogates).blank c ∧ Between c := by
  rw [isAsciiWhitespace, decide_eq_true_eq] at blank
  have white : (rfc surrogates).blank c := by
    rcases blank with space | tab | newline | feed' | return_
    · exact .inl space
    · exact .inr (.inl tab)
    · exact .inr (.inr (.inl newline))
    · exact absurd feed' feed
    · exact .inr (.inr (.inr return_))
  exact ⟨white, rfc_blank white⟩

theorem Blanks.of_narrow (blank : Blanks coded l r) (narrow : Narrow (.outside false) l) :
    Blanks (rfc surrogates) l r ∧ Narrow (.outside false) r := by
  obtain ⟨gap, blank, rfl⟩ := blank
  induction gap with
  | nil => exact ⟨.refl _, narrow⟩
  | cons c gap ih =>
    obtain ⟨first, others⟩ := List.forall_mem_cons.mp blank
    have feed : c ≠ '\x0c' := by
      rintro rfl
      exact not_narrow_feed _ narrow
    obtain ⟨white, between⟩ : (rfc surrogates).blank c ∧ Between c := coded_between first feed
    obtain ⟨later, narrow⟩ := ih others ((narrow_between between _).mp narrow)
    exact ⟨Blanks.trans ⟨[c], by simpa using white, rfl⟩ later, narrow⟩

theorem head_of_numberOf {text : Text} {v : LuaValue} (numeric : ∀ c ∈ text, isNumeric c = true) (read : numberOf text = .ok v) :
    ∃ c rest, text = c :: rest ∧ c.isAlpha = false := by
  cases text with
  | nil => cases read
  | cons c rest =>
    refine ⟨c, rest, rfl, ?_⟩
    rw [Bool.eq_false_iff]
    intro letter
    have exponent : c = 'e' ∨ c = 'E' := by
      have first := numeric c List.mem_cons_self
      rw [isNumeric, Bool.or_eq_true, decide_eq_true_eq] at first
      rcases first with digit | rfl | rfl | rfl | small | large
      · rw [not_isAlpha_of_isDigit digit] at letter
        cases letter
      · cases letter
      · cases letter
      · cases letter
      · exact .inl small
      · exact .inr large
    have float : Binary64.parse (c :: rest) = none := by
      rcases exponent with rfl | rfl
      · change ((Binary64.readExponent ('e' :: rest)).bind (Binary64.readMantissa [])).map Binary64.round = none
        cases Binary64.readExponent ('e' :: rest) <;> rfl
      · change ((Binary64.readExponent ('E' :: rest)).bind (Binary64.readMantissa [])).map Binary64.round = none
        cases Binary64.readExponent ('E' :: rest) <;> rfl
    have scientific : '.' ∈ c :: rest ∨ 'e' ∈ c :: rest ∨ 'E' ∈ c :: rest := by
      rcases exponent with rfl | rfl <;> simp
    rw [numberOf, if_neg (List.cons_ne_nil _ _), if_pos scientific, float] at read
    cases read

theorem Value.of_narrow {depth : Nat} {v : LuaValue} (valued : Value coded depth l v r) (stopped : Stopped r)
    (narrow : Narrow (.outside false) l) : Value (rfc surrogates) depth l v r ∧ Narrow (.outside false) r := by
  induction depth generalizing l v r with
  | zero => cases valued
  | succ depth ih =>
    have mark {l r : Text} {c : Char} (blank : Blanks coded l (c :: r)) (between : Between c) (narrow : Narrow (.outside false) l) :
        Blanks (rfc surrogates) l (c :: r) ∧ Narrow (.outside false) r := by
      obtain ⟨blank, narrow⟩ := blank.of_narrow narrow
      exact ⟨blank, (narrow_between between r).mp narrow⟩
    have step {l m n : Text} {v : LuaValue} {c : Char} (element : Element coded (Value coded depth) l v m)
        (blank : Blanks coded m (c :: n)) (between : Between c) (narrow : Narrow (.outside false) l) :
        Element (rfc surrogates) (Value (rfc surrogates) depth) l v m ∧ Blanks (rfc surrogates) m (c :: n) ∧
          Narrow (.outside false) n := by
      obtain ⟨k, gap, valued⟩ := element
      obtain ⟨gap, narrow⟩ := gap.of_narrow narrow
      obtain ⟨valued, narrow⟩ := ih valued (stopped_of_blanks blank between.2.2.1) narrow
      obtain ⟨blank, narrow⟩ := mark blank between narrow
      exact ⟨⟨k, gap, valued⟩, blank, narrow⟩
    cases valued with
    | null =>
      have narrow := (narrow_letter (by decide) _).mp ((narrow_letter (by decide) _).mp narrow)
      have narrow := (narrow_letter (by decide) _).mp ((narrow_letter (by decide) _).mp narrow)
      exact ⟨.null, (narrow_stopped stopped).mp narrow⟩
    | true_ =>
      have narrow := (narrow_letter (by decide) _).mp ((narrow_letter (by decide) _).mp narrow)
      have narrow := (narrow_letter (by decide) _).mp ((narrow_letter (by decide) _).mp narrow)
      exact ⟨.true_, (narrow_stopped stopped).mp narrow⟩
    | false_ =>
      have narrow := (narrow_letter (by decide) _).mp ((narrow_letter (by decide) _).mp narrow)
      have narrow := (narrow_letter (by decide) _).mp ((narrow_letter (by decide) _).mp ((narrow_letter (by decide) _).mp narrow))
      exact ⟨.false_, (narrow_stopped stopped).mp narrow⟩
    | string chars =>
      rw [narrow_outside, if_pos rfl] at narrow
      obtain ⟨chars, narrow⟩ := chars.of_narrow narrow
      exact ⟨.string chars, narrow⟩
    | number number =>
      obtain ⟨some, numeric, read⟩ := number
      obtain ⟨c, rest, rfl, letter⟩ := head_of_numberOf numeric read
      obtain ⟨⟨w, number⟩, narrow⟩ := (narrow_number letter numeric stopped).mp narrow
      rw [number.numberOf] at read
      cases read
      exact ⟨.number number, narrow⟩
    | emptyArray closed =>
      obtain ⟨closed, narrow⟩ := mark closed (by decide) ((narrow_between (by decide) _).mp narrow)
      exact ⟨.emptyArray closed, narrow⟩
    | @array l vs r elements =>
      have all : Reader.Listed (Element (rfc surrogates) (Value (rfc surrogates) depth)) (Blanks (rfc surrogates)) ',' ']' l vs r ∧
          Narrow (.outside false) r := by
        refine elements.transfer (fun l v m c n element gap stop narrow => ?_) ((narrow_between (by decide) _).mp narrow)
        exact step element gap (by rcases stop with rfl | rfl <;> decide) narrow
      exact ⟨.array all.1, all.2⟩
    | emptyObject closed =>
      obtain ⟨closed, narrow⟩ := mark closed (by decide) ((narrow_between (by decide) _).mp narrow)
      exact ⟨.emptyObject closed, narrow⟩
    | @object l ps r members =>
      have all : Reader.Listed (Member (rfc surrogates) (Value (rfc surrogates) depth)) (Blanks (rfc surrogates)) ',' '\x7d'
          l ps r ∧ Narrow (.outside false) r := by
        refine members.transfer (fun l p m c n member gap stop narrow => ?_) ((narrow_between (by decide) _).mp narrow)
        obtain ⟨k, s, k', o, quote, chars, colon, element, name⟩ := member
        obtain ⟨quote, narrow⟩ := quote.of_narrow narrow
        rw [narrow_outside, if_pos rfl] at narrow
        obtain ⟨chars, narrow⟩ := chars.of_narrow narrow
        obtain ⟨colon, narrow⟩ := mark colon (by decide) narrow
        obtain ⟨element, gap, narrow⟩ := step element gap (by rcases stop with rfl | rfl <;> decide) narrow
        exact ⟨⟨k, s, k', o, quote, chars, colon, element, name⟩, gap, narrow⟩
      exact ⟨.object all.1, all.2⟩

end

/-! One grammar within another. -/

structure Lexis.Includes (G G' : Lexis) : Prop where
  blank : ∀ c, G.blank c → G'.blank c
  code : ∀ w x y z c, G.code w x y z c → G'.code w x y z c
  number : ∀ text v, G.number text v → G'.number text v

section

variable {G G' : Lexis} {inner inner' : Text → LuaValue → Text → Prop} {l r : Text}

theorem Blanks.imp (includes : G.Includes G') (blank : Blanks G l r) : Blanks G' l r := by
  obtain ⟨gap, blank, rfl⟩ := blank
  exact ⟨gap, fun c member => includes.blank c (blank c member), rfl⟩

theorem Chars.imp (includes : G.Includes G') {s : Text} (chars : Chars G l s r) : Chars G' l s r := by
  induction chars with
  | done => exact .done
  | unescaped high quote backslash _ ih => exact .unescaped high quote backslash ih
  | escaped simple _ ih => exact .escaped simple ih
  | code code _ ih => exact .code (includes.code _ _ _ _ _ code) ih

theorem Element.imp (includes : G.Includes G') (inners : ∀ l v r, inner l v r → inner' l v r) {v : LuaValue}
    (element : Element G inner l v r) : Element G' inner' l v r := by
  obtain ⟨m, blank, valued⟩ := element
  exact ⟨m, blank.imp includes, inners _ _ _ valued⟩

theorem Member.imp (includes : G.Includes G') (inners : ∀ l v r, inner l v r → inner' l v r) {p : LuaValue × LuaValue}
    (member : Member G inner l p r) : Member G' inner' l p r := by
  obtain ⟨m, s, n, o, quote, chars, colon, element, name⟩ := member
  exact ⟨m, s, n, o, quote.imp includes, chars.imp includes, colon.imp includes, element.imp includes inners, name⟩

theorem Value.imp (includes : G.Includes G') {depth : Nat} {v : LuaValue} (valued : Value G depth l v r) :
    Value G' depth l v r := by
  induction depth generalizing l v r with
  | zero => cases valued
  | succ depth ih =>
    have inners : ∀ l v r, Value G depth l v r → Value G' depth l v r := fun _ _ _ => ih
    have gaps : ∀ l m, Blanks G l m → Blanks G' l m := fun _ _ => Blanks.imp includes
    cases valued with
    | null => exact .null
    | true_ => exact .true_
    | false_ => exact .false_
    | number number => exact .number (includes.number _ _ number)
    | string chars => exact .string (chars.imp includes)
    | emptyArray closed => exact .emptyArray (closed.imp includes)
    | array elements => exact .array (elements.imp (fun _ _ _ => Element.imp includes inners) gaps)
    | emptyObject closed => exact .emptyObject (closed.imp includes)
    | object members => exact .object (members.imp (fun _ _ _ => Member.imp includes inners) gaps)

theorem Document.imp (includes : G.Includes G') {depth : Nat} {text : Text} {v : LuaValue} (document : Document G depth text v) :
    Document G' depth text v := by
  obtain ⟨r, element, ended⟩ := document
  exact ⟨r, element.imp includes fun _ _ _ => Value.imp includes, ended.imp includes⟩

end

theorem rfc_includes : (rfc false).Includes coded where
  blank c blank := by
    change isAsciiWhitespace c = true
    rcases blank with rfl | rfl | rfl | rfl <;> decide
  code w x y z c := by
    rintro ⟨code, read, rfl | ⟨impossible, -⟩⟩
    · have sign : w ≠ '+' := (hexValue_plain (hexValue_of_readDigits read w List.mem_cons_self)).2.2
      have hex : fromHex [w, x, y, z] = some c.toNat := by
        rw [fromHex, stripPrefix_eq_none_of_head sign.symm]
        exact read
      exact Option.bind_eq_some_iff.mpr ⟨_, hex, charFromU32_toNat c⟩
    · cases impossible
  number _ _ := coded_number

theorem Document.narrow {surrogates : Bool} {depth : Nat} {text : Text} {v : LuaValue}
    (document : Document (rfc surrogates) depth text v) : Narrow (.outside false) text := by
  obtain ⟨r, ⟨m, gap, valued⟩, ended⟩ := document
  have stopped : Stopped r := by
    obtain ⟨gap, blank, rfl⟩ := ended
    intro c first
    exact (rfc_blank (blank c (List.mem_of_mem_head? (by simpa using first)))).2.2.1
  exact gap.narrow_iff.mpr (valued.narrow stopped (ended.narrow_iff.mpr trivial))

theorem Document.of_narrow {surrogates : Bool} {depth : Nat} {text : Text} {v : LuaValue} (document : Document coded depth text v)
    (narrow : Narrow (.outside false) text) : Document (rfc surrogates) depth text v := by
  obtain ⟨r, ⟨m, gap, valued⟩, ended⟩ := document
  obtain ⟨gap, narrow⟩ := gap.of_narrow narrow
  obtain ⟨valued, narrow⟩ := valued.of_narrow (stopped_of_ended ended) narrow
  exact ⟨r, ⟨m, gap, valued⟩, (ended.of_narrow narrow).1⟩

/-- The parser takes the text for a document of RFC 8259 just if it is one, of the depth that is allowed and without escaped
surrogates, and takes it for the value that it denotes. -/
structure Exact (surrogates : Bool) (text : Text) : Prop where
  sound : ∀ v, parseJson text = .ok v → Document (rfc surrogates) JSON_MAX_DEPTH text v
  complete : ∀ v, Document (rfc false) JSON_MAX_DEPTH text v → parseJson text = .ok v

/-- The parser is exact but for the documents in which something is wider. -/
theorem parseJson_exact_iff (surrogates : Bool) (text : Text) :
    Exact surrogates text ↔ ∀ v, Document coded JSON_MAX_DEPTH text v → Narrow (.outside false) text := by
  constructor
  · exact fun exact v document => (exact.sound v (parseJson_iff.mpr document)).narrow
  · intro narrow
    refine ⟨fun v parsed => ?_, fun v document => parseJson_iff.mpr (document.imp rfc_includes)⟩
    exact (parseJson_iff.mp parsed).of_narrow (narrow v (parseJson_iff.mp parsed))

theorem IsNumber.unsigned_head {text : Text} {v : LuaValue} (number : IsNumber text v) : text.head? ≠ some '+' := by
  cases number with
  | unsigned int _ _ =>
    obtain ⟨c, rest, shape, -, plus⟩ := int.digits.unsigned _
    rw [shape]
    exact fun same => plus (Option.some.inj same)
  | minus _ _ _ => exact fun same => absurd (Option.some.inj same) (by decide)

/-- A plus sign in front of a number. -/
theorem parseJson_plus :
    parseJson "+1".toList = .ok (.integer (.wrap 1)) ∧ ∀ depth v, ¬Document (rfc true) depth "+1".toList v := by
  refine ⟨rfl, fun depth v document => ?_⟩
  have narrow : Narrow (.outside false) ('+' :: ['1'] ++ []) := document.narrow
  obtain ⟨⟨w, number⟩, -⟩ := (narrow_number (by decide) (by decide) (by simp [Stopped])).mp narrow
  exact number.unsigned_head rfl

end Bitty.Plugin.Store
