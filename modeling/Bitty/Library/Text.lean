import Mathlib

/-! Text as its characters: the bytes, the lines and the numbers in it. -/

abbrev Text := List Char

/-- Named, for one term in all that asks whether a text is among others. -/
instance Text.lawfulBEq : LawfulBEq Text := inferInstance

namespace Text

def bytes (text : Text) : ByteArray := (String.ofList text).toByteArray

def byteLen (text : Text) : Nat := text.bytes.size

theorem bytes_eq (text : Text) : text.bytes = text.utf8Encode := String.toByteArray_ofList

@[simp] theorem byteLen_nil : byteLen [] = 0 := rfl

@[simp] theorem byteLen_append (a b : Text) : byteLen (a ++ b) = byteLen a + byteLen b := by
  simp only [byteLen, bytes_eq, List.utf8Encode_append, ByteArray.size_append]

theorem byteLen_cons (c : Char) (text : Text) : byteLen (c :: text) = c.utf8Size + byteLen text := by
  have single : byteLen [c] = c.utf8Size := by simp [byteLen, bytes_eq, List.utf8Encode]
  rw [← single, ← byteLen_append]
  rfl

variable {text : Text}

theorem byteLen_of_ascii (ascii : ∀ c ∈ text, c.utf8Size = 1) : byteLen text = text.length := by
  induction text with
  | nil => rfl
  | cons c rest ih =>
    have first := ascii c List.mem_cons_self
    have others := ih fun d member => ascii d (List.mem_cons_of_mem _ member)
    rw [byteLen_cons, first, others, List.length_cons]
    omega

theorem length_le_byteLen (text : Text) : text.length ≤ byteLen text := by
  induction text with
  | nil => exact Nat.zero_le _
  | cons c rest ih =>
    have wide := c.utf8Size_pos
    rw [byteLen_cons, List.length_cons]
    omega

def ofBytes? (bytes : ByteArray) : Option Text := bytes.utf8Decode?.map Array.toList

@[simp] theorem ofBytes?_bytes (text : Text) : ofBytes? text.bytes = some text := by
  simp [ofBytes?, bytes_eq]

theorem bytes_of_ofBytes? {bytes : ByteArray} (decoded : ofBytes? bytes = some text) : text.bytes = bytes := by
  rw [bytes_eq]
  obtain ⟨chars, found, rfl⟩ := Option.map_eq_some_iff.mp decoded
  have valid : bytes.utf8Decode?.isSome := by simp [found]
  have back := ByteArray.utf8Encode_get_utf8Decode? (b := bytes) (h := valid)
  simpa only [found, Option.get_some] using back

def stripPrefix : Text → Text → Option Text
  | [], text => some text
  | _ :: _, [] => none
  | p :: ps, c :: cs => if p = c then stripPrefix ps cs else none

@[simp] theorem stripPrefix_append (start rest : Text) : stripPrefix start (start ++ rest) = some rest := by
  induction start with
  | nil => rfl
  | cons c cs ih => simpa [stripPrefix] using ih

theorem eq_append_of_stripPrefix {start whole left : Text} (found : stripPrefix start whole = some left) :
    whole = start ++ left := by
  induction start generalizing whole with
  | nil =>
    cases found
    rfl
  | cons p ps ih =>
    cases whole with
    | nil => cases found
    | cons c cs =>
      unfold stripPrefix at found
      split_ifs at found with same
      rw [same, ih found, List.cons_append]

/-- Looking at the characters of a text, not at all characters. -/
instance (priority := high) decidableForallMem (p : Char → Prop) [DecidablePred p] (text : List Char) :
    Decidable (∀ c ∈ text, p c) := List.decidableBAll p text

def Inline (text : Text) : Prop := ∀ c ∈ text, c ≠ '\n' ∧ c ≠ '\r'

instance (text : Text) : Decidable text.Inline := inferInstanceAs (Decidable (∀ c ∈ text, c ≠ '\n' ∧ c ≠ '\r'))

variable {a : Text}

theorem Inline.append {b : Text} (first : a.Inline) (second : b.Inline) : Inline (a ++ b) := by
  intro c member
  rcases List.mem_append.mp member with inFirst | inSecond
  · exact first c inFirst
  · exact second c inSecond

variable {c : Char}

theorem Inline.cons (plain : c ≠ '\n' ∧ c ≠ '\r') (rest : text.Inline) : Inline (c :: text) := by
  intro d member
  rcases List.mem_cons.mp member with rfl | later
  · exact plain
  · exact rest d later

def chomp (line : Text) : Text := if line.getLast? = some '\r' then line.dropLast else line

def linesFrom (line : Text) : Text → List Text
  | [] => if line = [] then [] else [line.reverse]
  | c :: rest => if c = '\n' then chomp line.reverse :: linesFrom [] rest else linesFrom (c :: line) rest

def lines (text : Text) : List Text := linesFrom [] text

def unlines (ls : List Text) : Text := ls.flatMap fun line => line ++ ['\n']

theorem Inline.chomp_eq {line : Text} (plain : line.Inline) : chomp line = line := by
  have noReturn : line.getLast? ≠ some '\r' := by
    intro last
    exact (plain '\r' (List.mem_of_getLast? last)).2 rfl
  rw [chomp, if_neg noReturn]

theorem linesFrom_append (seen line rest : Text) (plain : line.Inline) (whole : Inline (seen.reverse ++ line)) :
    linesFrom seen (line ++ '\n' :: rest) = (seen.reverse ++ line) :: linesFrom [] rest := by
  induction line generalizing seen with
  | nil =>
    rw [List.append_nil] at whole
    simp [linesFrom, whole.chomp_eq]
  | cons c cs ih =>
    have unbroken := (plain c List.mem_cons_self).1
    have later := ih (c :: seen) (fun d member => plain d (List.mem_cons_of_mem _ member)) (by simpa using whole)
    rw [List.cons_append, linesFrom, if_neg unbroken, later]
    simp

theorem lines_unlines {ls : List Text} (plain : ∀ line ∈ ls, line.Inline) : lines (unlines ls) = ls := by
  induction ls with
  | nil => rfl
  | cons line rest ih =>
    have first := plain line List.mem_cons_self
    have others := ih fun l member => plain l (List.mem_cons_of_mem _ member)
    have split : unlines (line :: rest) = line ++ '\n' :: unlines rest := by simp [unlines]
    rw [lines, split, linesFrom_append [] line _ first (by simpa using first)]
    exact congrArg (line :: ·) others

theorem byteLen_unlines (ls : List Text) : byteLen (unlines ls) = (ls.map fun line => byteLen line + 1).sum := by
  induction ls with
  | nil => rfl
  | cons line rest ih =>
    have split : unlines (line :: rest) = line ++ ['\n'] ++ unlines rest := by simp [unlines]
    have newline : byteLen ['\n'] = 1 := by decide
    rw [split, byteLen_append, byteLen_append, newline, ih, List.map_cons, List.sum_cons]

/-- A number from its digits, most significant first, after the digits in `seen`. -/
def readDigits (digit : Char → Option Nat) (base : Nat) : Nat → Text → Option Nat
  | seen, [] => some seen
  | seen, c :: rest =>
    match digit c with
    | none => none
    | some d => readDigits digit base (base * seen + d) rest

theorem readDigits_append (digit : Char → Option Nat) (base seen : Nat) (a b : Text) :
    readDigits digit base seen (a ++ b) = (readDigits digit base seen a).bind fun n => readDigits digit base n b := by
  induction a generalizing seen with
  | nil => rfl
  | cons c rest ih =>
    rw [List.cons_append, readDigits, readDigits]
    cases digit c with
    | none => rfl
    | some d => exact ih _

variable {base : Nat}

theorem readDigits_toDigits {digit : Char → Option Nat} (large : 1 < base)
    (reads : ∀ d < base, digit d.digitChar = some d) (n : Nat) :
    readDigits digit base 0 (Nat.toDigits base n) = some n := by
  induction n using Nat.strongRecOn with
  | _ n ih =>
    by_cases small : n < base
    · rw [Nat.toDigits_of_lt_base small, readDigits, reads n small]
      simp [readDigits]
    · have smaller : n / base < n := Nat.div_lt_self (by omega) large
      have last := Nat.mod_lt n (show 0 < base by omega)
      rw [Nat.toDigits_of_base_le large (by omega), readDigits_append, ih _ smaller, Option.bind_some, readDigits,
        reads _ last]
      simp [readDigits, Nat.div_add_mod]

variable {n : Nat}

theorem exists_digit_of_mem_toDigits (large : 1 < base) (member : c ∈ Nat.toDigits base n) :
    ∃ d < base, c = d.digitChar := by
  induction n using Nat.strongRecOn with
  | _ n ih =>
    by_cases small : n < base
    · rw [Nat.toDigits_of_lt_base small, List.mem_singleton] at member
      exact ⟨n, small, member⟩
    · rw [Nat.toDigits_of_base_le large (by omega), List.mem_append, List.mem_singleton] at member
      rcases member with earlier | last
      · exact ih _ (Nat.div_lt_self (by omega) large) earlier
      · exact ⟨n % base, Nat.mod_lt n (by omega), last⟩

theorem readDigits_zeros {digit : Char → Option Nat} (zero : digit '0' = some 0) (count : Nat) :
    readDigits digit base 0 (List.replicate count '0') = some 0 := by
  induction count with
  | zero => rfl
  | succ count ih =>
    rw [List.replicate_succ, readDigits, zero]
    exact ih

def decimalDigit (c : Char) : Option Nat := if c.isDigit then some (c.toNat - '0'.toNat) else none

/-- An unsigned number of at most `max`, with or without a plus sign. -/
def parseUnsigned (max : Nat) (text : Text) : Option Nat :=
  let digits := (stripPrefix ['+'] text).getD text
  if digits = [] then none else (readDigits decimalDigit 10 0 digits).filter (· ≤ max)

def number (n : Nat) : Text := Nat.toDigits 10 n

theorem isDigit_of_mem_number (member : c ∈ number n) : c.isDigit := by
  exact Nat.isDigit_of_mem_toDigits (by decide) (by decide) member

theorem not_mem_number (other : c.isDigit = false) : c ∉ number n := by
  intro member
  rw [isDigit_of_mem_number member] at other
  cases other

theorem inline_number (n : Nat) : (number n).Inline := by
  intro c member
  constructor
  · rintro rfl
    exact not_mem_number (by decide) member
  · rintro rfl
    exact not_mem_number (by decide) member

theorem stripPrefix_eq_none_of_head {p : Char} {ps : Text} (other : p ≠ c) :
    stripPrefix (p :: ps) (c :: text) = none := by
  rw [stripPrefix, if_neg other]

theorem parseUnsigned_number_eq (n max : Nat) : parseUnsigned max (number n) = if n ≤ max then some n else none := by
  have digits : number n ≠ [] := Nat.toDigits_ne_nil
  have unsigned : stripPrefix ['+'] (number n) = none := by
    cases shape : number n with
    | nil => rfl
    | cons c rest =>
      refine stripPrefix_eq_none_of_head ?_
      rintro rfl
      exact not_mem_number (by decide : '+'.isDigit = false) (shape ▸ List.mem_cons_self)
  have reads : readDigits decimalDigit 10 0 (Nat.toDigits 10 n) = some n :=
    readDigits_toDigits (by omega) (by decide) n
  simp only [parseUnsigned, unsigned, Option.getD_none, if_neg digits]
  rw [number, reads]
  simp [Option.filter]

theorem parseUnsigned_number {max : Nat} (small : n ≤ max) : parseUnsigned max (number n) = some n := by
  rw [parseUnsigned_number_eq, if_pos small]

theorem utf8Size_of_isDigit (digit : c.isDigit) : c.utf8Size = 1 := by
  simp only [Char.isDigit, Bool.and_eq_true, decide_eq_true_eq] at digit
  have small : c.val ≤ 127 := UInt32.le_trans digit.2 (by decide)
  exact if_pos small

theorem byteLen_number (n : Nat) : byteLen (number n) = (number n).length := by
  exact byteLen_of_ascii fun _ member => utf8Size_of_isDigit (isDigit_of_mem_number member)

theorem byteLen_number_pos (n : Nat) : 0 < byteLen (number n) := by
  rw [byteLen_number]
  exact Nat.length_toDigits_pos

theorem byteLen_number_mono {m : Nat} (le : m ≤ n) : byteLen (number m) ≤ byteLen (number n) := by
  rw [byteLen_number, byteLen_number]
  have bound := (Nat.length_toDigits_le_iff (b := 10) (by omega) Nat.length_toDigits_pos).mp (Nat.le_refl (number n).length)
  exact (Nat.length_toDigits_le_iff (by omega) Nat.length_toDigits_pos).mpr (Nat.lt_of_le_of_lt le bound)

def parseU32 (text : Text) : Option UInt32 := (parseUnsigned (UInt32.size - 1) text).map UInt32.ofNat

def parseU64 (text : Text) : Option UInt64 := (parseUnsigned (UInt64.size - 1) text).map UInt64.ofNat

@[simp] theorem parseU32_number (n : UInt32) : parseU32 (number n.toNat) = some n := by
  have small : n.toNat ≤ UInt32.size - 1 := Nat.le_sub_one_of_lt n.toNat_lt_size
  rw [parseU32, parseUnsigned_number small, Option.map_some, UInt32.ofNat_toNat]

@[simp] theorem parseU64_number (n : UInt64) : parseU64 (number n.toNat) = some n := by
  have small : n.toNat ≤ UInt64.size - 1 := Nat.le_sub_one_of_lt n.toNat_lt_size
  rw [parseU64, parseUnsigned_number small, Option.map_some, UInt64.ofNat_toNat]

/-- Unicode `White_Space`. -/
def isWhitespace (c : Char) : Bool :=
  (0x09 ≤ c.toNat ∧ c.toNat ≤ 0x0D) ∨ (0x2000 ≤ c.toNat ∧ c.toNat ≤ 0x200A) ∨
    c.toNat ∈ [0x20, 0x85, 0xA0, 0x1680, 0x2028, 0x2029, 0x202F, 0x205F, 0x3000]

/-- Unicode `Cc`. -/
def isControl (c : Char) : Bool := c.toNat ≤ 0x1F ∨ (0x7F ≤ c.toNat ∧ c.toNat ≤ 0x9F)

def trim (text : Text) : Text := ((text.dropWhile isWhitespace).reverse.dropWhile isWhitespace).reverse

def splitOnce (sep : Char) (text : Text) : Option (Text × Text) :=
  if sep ∈ text then some (text.takeWhile (· ≠ sep), (text.dropWhile (· ≠ sep)).drop 1) else none

def splitLast (sep : Char) (text : Text) : Option (Text × Text) :=
  (splitOnce sep text.reverse).map fun (after, before) => (before.reverse, after.reverse)

theorem bytes_injective {b : Text} (same : a.bytes = b.bytes) : a = b := by
  have read := congrArg ofBytes? same
  rw [ofBytes?_bytes, ofBytes?_bytes] at read
  exact Option.some.inj read

theorem encode_injective {b : Text} (same : a.flatMap String.utf8EncodeChar = b.flatMap String.utf8EncodeChar) : a = b := by
  refine bytes_injective ?_
  rw [bytes_eq, bytes_eq, List.utf8Encode, List.utf8Encode, same]

theorem toNat_lt_of_mem_encode {b : UInt8} (member : b ∈ text.flatMap String.utf8EncodeChar) : b.toNat < 248 := by
  obtain ⟨c, -, inside⟩ := List.mem_flatMap.mp member
  unfold String.utf8EncodeChar at inside
  dsimp only at inside
  split_ifs at inside <;> simp only [List.mem_cons, List.not_mem_nil, or_false] at inside <;>
    rcases inside with rfl | rfl | rfl | rfl <;> simp only [UInt8.toNat_ofNat'] <;> omega

def breaks (text : Text) : List Text := text.splitOn '\n'

theorem breaks_injective {b : Text} (same : breaks a = breaks b) : a = b := by
  have join := congrArg (List.intercalate ['\n']) same
  rwa [breaks, breaks, List.intercalate_splitOn, List.intercalate_splitOn] at join

theorem breaks_unlines (ls : List Text) : breaks (unlines ls) = ls.flatMap breaks ++ [[]] := by
  induction ls with
  | nil => rfl
  | cons line rest ih =>
    have split : unlines (line :: rest) = line ++ '\n' :: unlines rest := by simp [unlines]
    rw [split, breaks, List.splitOn_append_cons_self]
    change breaks line ++ breaks (unlines rest) = _
    rw [ih, List.flatMap_cons, List.append_assoc]

theorem unlines_inj {ls ms : List Text} : unlines ls = unlines ms ↔ ls.flatMap breaks = ms.flatMap breaks := by
  constructor
  · intro same
    have pieces := congrArg breaks same
    rw [breaks_unlines, breaks_unlines] at pieces
    exact List.append_cancel_right pieces
  · intro same
    refine breaks_injective ?_
    rw [breaks_unlines, breaks_unlines, same]

theorem breaks_of_unbroken (unbroken : '\n' ∉ text) : breaks text = [text] :=
  List.splitOn_eq_singleton unbroken

theorem breaks_eq (text : Text) :
    ∃ first others, breaks text = first :: others ∧ first <+: text ∧
      ∀ line ∈ others, ∃ before after, text = before ++ '\n' :: (line ++ after) := by
  induction text with
  | nil => exact ⟨[], [], rfl, List.prefix_rfl, by simp⟩
  | cons c rest ih =>
    obtain ⟨first, others, lines, start, later⟩ := ih
    have found : ∀ line ∈ others, ∃ before after, c :: rest = before ++ '\n' :: (line ++ after) := by
      intro line member
      obtain ⟨before, after, rfl⟩ := later line member
      exact ⟨c :: before, after, rfl⟩
    rw [breaks, List.splitOn_cons_eq_if_modifyHead]
    change ∃ _ _, (if (c == '\n') = true then [] :: breaks rest else (breaks rest).modifyHead (c :: ·)) = _ ∧ _
    rw [lines]
    by_cases newline : c = '\n'
    · subst newline
      refine ⟨[], first :: others, rfl, List.nil_prefix, fun line member => ?_⟩
      rcases List.mem_cons.mp member with rfl | other
      · obtain ⟨after, rfl⟩ := start
        exact ⟨[], after, rfl⟩
      · exact found line other
    · refine ⟨c :: first, others, ?_, List.cons_prefix_cons.mpr ⟨rfl, start⟩, found⟩
      simp [newline]

theorem breaks_ne_nil (text : Text) : breaks text ≠ [] := List.splitOn_ne_nil _ _

variable {sep : Char}

theorem exists_mem_splitOn (member : c ∈ text) (other : c ≠ sep) : ∃ piece ∈ text.splitOn sep, c ∈ piece := by
  induction text with
  | nil => cases member
  | cons d rest ih =>
    rw [List.splitOn_cons_eq_if_modifyHead]
    cases pieces : rest.splitOn sep with
    | nil => exact absurd pieces (List.splitOn_ne_nil _ _)
    | cons first others =>
      rw [pieces] at ih
      by_cases separator : d = sep
      · have later : c ∈ rest := by
          rcases List.mem_cons.mp member with same | later
          · exact absurd (same.trans separator) other
          · exact later
        obtain ⟨piece, inside, found⟩ := ih later
        exact ⟨piece, by simpa [separator] using .inr (List.mem_cons.mp inside), found⟩
      · have split : (if (d == sep) = true then [] :: (first :: others) else (first :: others).modifyHead (d :: ·)) =
            (d :: first) :: others := by simp [separator]
        rw [split]
        rcases List.mem_cons.mp member with rfl | later
        · exact ⟨_, List.mem_cons_self, List.mem_cons_self⟩
        · obtain ⟨piece, inside, found⟩ := ih later
          rcases List.mem_cons.mp inside with rfl | elsewhere
          · exact ⟨_, List.mem_cons_self, List.mem_cons_of_mem _ found⟩
          · exact ⟨piece, List.mem_cons_of_mem _ elsewhere, found⟩

theorem not_mem_of_mem_splitOn {piece : Text} (inside : piece ∈ text.splitOn sep) : sep ∉ piece := by
  induction text generalizing piece with
  | nil =>
    rw [List.splitOn_nil, List.mem_singleton] at inside
    exact inside ▸ List.not_mem_nil
  | cons d rest ih =>
    rw [List.splitOn_cons_eq_if_modifyHead] at inside
    cases pieces : rest.splitOn sep with
    | nil => exact absurd pieces (List.splitOn_ne_nil _ _)
    | cons first others =>
      rw [pieces] at ih inside
      by_cases separator : d = sep
      · rw [if_pos (beq_iff_eq.mpr separator)] at inside
        rcases List.mem_cons.mp inside with rfl | later
        · exact List.not_mem_nil
        · exact ih later
      · rw [if_neg (by simpa using separator), List.modifyHead_cons] at inside
        rcases List.mem_cons.mp inside with rfl | later
        · exact List.not_mem_cons_of_ne_of_not_mem (fun same => separator same.symm) (ih List.mem_cons_self)
        · exact ih (List.mem_cons_of_mem _ later)

theorem mem_of_splitOn (pieces : 1 < (text.splitOn sep).length) : sep ∈ text := by
  by_contra absent
  rw [List.splitOn_eq_singleton absent] at pieces
  simp at pieces

theorem append_sep_inj {b x y : Text} (inA : sep ∉ a) (inB : sep ∉ b)
    (same : a ++ sep :: x = b ++ sep :: y) : a = b ∧ x = y := by
  induction a generalizing b with
  | nil =>
    cases b with
    | nil => exact ⟨rfl, (List.cons.inj same).2⟩
    | cons c rest => exact absurd (List.mem_cons.mpr (.inl (List.cons.inj same).1)) inB
  | cons c rest ih =>
    cases b with
    | nil => exact absurd (List.mem_cons.mpr (.inl (List.cons.inj same).1.symm)) inA
    | cons d others =>
      obtain ⟨rfl, tails⟩ := List.cons.inj same
      obtain ⟨rfl, later⟩ := ih (List.not_mem_of_not_mem_cons inA) (List.not_mem_of_not_mem_cons inB) tails
      exact ⟨rfl, later⟩

variable {α : Type}

theorem flatMap_inj_of_split {κ : Type} {write : α → Text} {read : α → κ} {as bs : List α}
    (nonempty : ∀ a, write a ≠ [])
    (split : ∀ a ∈ as, ∀ b ∈ bs, ∀ x y, write a ++ x = write b ++ y → read a = read b ∧ x = y)
    (same : as.flatMap write = bs.flatMap write) : as.map read = bs.map read := by
  induction as generalizing bs with
  | nil =>
    cases bs with
    | nil => rfl
    | cons b others => exact absurd (List.append_eq_nil_iff.mp same.symm).1 (nonempty b)
  | cons a rest ih =>
    cases bs with
    | nil => exact absurd (List.append_eq_nil_iff.mp same).1 (nonempty a)
    | cons b others =>
      obtain ⟨heads, tails⟩ := split a List.mem_cons_self b List.mem_cons_self _ _ same
      have later := ih (fun x inX y inY => split x (List.mem_cons_of_mem _ inX) y (List.mem_cons_of_mem _ inY)) tails
      rw [List.map_cons, List.map_cons, heads, later]

def le : Text → Text → Bool
  | [], _ => true
  | _ :: _, [] => false
  | a :: as, b :: bs => a.toNat < b.toNat || (a.toNat = b.toNat && le as bs)

theorem le_total (a b : Text) : le a b = true ∨ le b a = true := by
  induction a generalizing b with
  | nil => exact .inl rfl
  | cons c rest ih =>
    cases b with
    | nil => exact .inr rfl
    | cons d others =>
      have later := ih others
      simp only [le, Bool.or_eq_true, Bool.and_eq_true, decide_eq_true_eq] at later ⊢
      rcases Nat.lt_trichotomy c.toNat d.toNat with less | equal | more
      · exact .inl (.inl less)
      · exact later.imp (fun below => .inr ⟨equal, below⟩) fun below => .inr ⟨equal.symm, below⟩
      · exact .inr (.inl more)

theorem le_trans (a b c : Text) (first : le a b = true) (second : le b c = true) : le a c = true := by
  induction a generalizing b c with
  | nil => rfl
  | cons x rest ih =>
    cases b with
    | nil => cases first
    | cons y others =>
      cases c with
      | nil => cases second
      | cons z more =>
        have later := ih others more
        simp only [le, Bool.or_eq_true, Bool.and_eq_true, decide_eq_true_eq] at first second ⊢
        rcases first with less | ⟨equal, below⟩
        · rcases second with less' | ⟨equal', -⟩
          · exact .inl (by omega)
          · exact .inl (by omega)
        · rcases second with less' | ⟨equal', below'⟩
          · exact .inl (by omega)
          · exact .inr ⟨equal.trans equal', later below below'⟩

theorem le_antisymm {b : Text} (first : le a b = true) (second : le b a = true) : a = b := by
  induction a generalizing b with
  | nil =>
    cases b with
    | nil => rfl
    | cons y others => cases second
  | cons x rest ih =>
    cases b with
    | nil => cases first
    | cons y others =>
      simp only [le, Bool.or_eq_true, Bool.and_eq_true, decide_eq_true_eq] at first second
      rcases first with less | ⟨equal, below⟩
      · rcases second with more | ⟨equal, -⟩
        · omega
        · omega
      · rcases second with more | ⟨-, above⟩
        · omega
        · rw [Char.toNat_inj.mp equal, ih below above]

def sortBy {α : Type} (key : α → Text) (as : List α) : List α :=
  as.insertionSort fun a b => le (key a) (key b) = true

theorem sortBy_perm (key : α → Text) (as : List α) : (sortBy key as).Perm as := List.perm_insertionSort _ _

theorem sortBy_eq_iff {key : α → Text} {as bs : List α} (once : (as.map key).Nodup) :
    sortBy key as = sortBy key bs ↔ as.Perm bs := by
  constructor
  · intro same
    exact (sortBy_perm key as).symm.trans (same ▸ sortBy_perm key bs)
  · intro perm
    have total : Std.Total fun a b => le (key a) (key b) = true := ⟨fun a b => le_total (key a) (key b)⟩
    have trans : IsTrans α fun a b => le (key a) (key b) = true := ⟨fun a b c => le_trans (key a) (key b) (key c)⟩
    have sorted (cs : List α) : (sortBy key cs).Pairwise fun a b => le (key a) (key b) = true :=
      List.pairwise_insertionSort _ cs
    refine List.Perm.eq_of_pairwise (fun a b inA inB first second => ?_) (sorted as) (sorted bs)
      ((sortBy_perm key as).trans (perm.trans (sortBy_perm key bs).symm))
    have member : a ∈ as := (sortBy_perm key as).mem_iff.mp inA
    have other : b ∈ as := perm.mem_iff.mpr ((sortBy_perm key bs).mem_iff.mp inB)
    exact List.inj_on_of_nodup_map once member other (le_antisymm first second)

end Text
