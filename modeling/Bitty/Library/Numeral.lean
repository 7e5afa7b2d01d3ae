import Bitty.Library.Text

/-! Signed integers and digits behind a decimal point, written and read. -/

namespace Text

def integer (n : Int) : Text := if n < 0 then '-' :: number n.natAbs else number n.natAbs

def readNumber (text : Text) : Option Nat := if text = [] then none else readDigits decimalDigit 10 0 text

def readInteger : Text → Option Int
  | '-' :: digits => (readNumber digits).map fun n : Nat => -(n : Int)
  | '+' :: digits => (readNumber digits).map fun n : Nat => (n : Int)
  | digits => (readNumber digits).map fun n : Nat => (n : Int)

/-- The last `w` digits of a number. -/
def padded : Nat → Nat → Text
  | 0, _ => []
  | w + 1, n => padded w (n / 10) ++ [(n % 10).digitChar]

theorem readDigits_number (n : Nat) : readDigits decimalDigit 10 0 (number n) = some n :=
  readDigits_toDigits (by omega) (by decide) n

theorem number_ne_nil (n : Nat) : number n ≠ [] := Nat.toDigits_ne_nil

@[simp] theorem readNumber_number (n : Nat) : readNumber (number n) = some n := by
  rw [readNumber, if_neg (number_ne_nil n), readDigits_number]

theorem number_unsigned {n : Nat} {c : Char} {rest : Text} (shape : number n = c :: rest) : c ≠ '-' ∧ c ≠ '+' := by
  have member : c ∈ number n := shape ▸ List.mem_cons_self
  constructor
  · rintro rfl
    exact not_mem_number (by decide) member
  · rintro rfl
    exact not_mem_number (by decide) member

theorem readInteger_number (n : Nat) : readInteger (number n) = some (n : Int) := by
  have read := readNumber_number n
  cases shape : number n with
  | nil => exact absurd shape (number_ne_nil n)
  | cons c rest =>
    obtain ⟨minus, plus⟩ := number_unsigned shape
    rw [shape] at read
    unfold readInteger
    split
    · rename_i same
      exact absurd (List.cons.inj same).1 minus
    · rename_i same
      exact absurd (List.cons.inj same).1 plus
    · rw [read]
      rfl

@[simp] theorem readInteger_integer (n : Int) : readInteger (integer n) = some n := by
  unfold integer
  split_ifs with negative
  · rw [readInteger, readNumber_number, Option.map_some]
    congr 1
    omega
  · rw [readInteger_number]
    congr 1
    omega

theorem length_padded (w n : Nat) : (padded w n).length = w := by
  induction w generalizing n with
  | zero => rfl
  | succ w ih =>
    rw [padded, List.length_append, ih]
    rfl

theorem isDigit_of_mem_padded {w n : Nat} {c : Char} (member : c ∈ padded w n) : c.isDigit := by
  induction w generalizing n with
  | zero => cases member
  | succ w ih =>
    rw [padded, List.mem_append, List.mem_singleton] at member
    rcases member with earlier | rfl
    · exact ih earlier
    · have digits : ∀ d < 10, d.digitChar.isDigit = true := by decide
      exact digits (n % 10) (Nat.mod_lt n (by omega))

theorem readDigits_padded (seen w n : Nat) :
    readDigits decimalDigit 10 seen (padded w n) = some (10 ^ w * seen + n % 10 ^ w) := by
  induction w generalizing n with
  | zero => simp [padded, readDigits, Nat.mod_one]
  | succ w ih =>
    have digits : ∀ d < 10, decimalDigit d.digitChar = some d := by decide
    have digit := digits (n % 10) (Nat.mod_lt n (by omega))
    have split : n % 10 ^ (w + 1) = 10 * (n / 10 % 10 ^ w) + n % 10 := by
      rw [pow_succ', Nat.mod_mul]
      omega
    rw [padded, readDigits_append, ih, Option.bind_some, readDigits, digit, split, pow_succ']
    refine congrArg some ?_
    ring

/-! What digits are a number. -/

theorem byteLen_digits {part : Text} (digits : ∀ c ∈ part, c.isDigit = true) : byteLen part = part.length :=
  byteLen_of_ascii fun c member => utf8Size_of_isDigit (digits c member)

theorem exists_digitChar {c : Char} (digit : c.isDigit = true) : ∃ d < 10, c = d.digitChar := by
  have range : 48 ≤ c.toNat ∧ c.toNat ≤ 57 := by
    simp only [Char.isDigit, Bool.and_eq_true, decide_eq_true_eq, UInt32.le_iff_toNat_le] at digit
    exact digit
  have back := Char.ofNat_toNat c
  refine ⟨c.toNat - 48, by omega, ?_⟩
  rw [← back]
  generalize c.toNat = n at range
  obtain ⟨low, high⟩ := range
  interval_cases n <;> rfl

theorem exists_number {part : Text} (nonempty : part ≠ []) (digits : ∀ c ∈ part, c.isDigit = true)
    (plain : part.head? = some '0' → part.length ≤ 1) : ∃ n, part = number n := by
  induction part using List.reverseRecOn with
  | nil => exact absurd rfl nonempty
  | append_singleton before c ih =>
    obtain ⟨d, small, rfl⟩ := exists_digitChar (digits c (by simp))
    cases before with
    | nil => exact ⟨d, (Nat.toDigits_of_lt_base small).symm⟩
    | cons e rest =>
      have nonzero : e ≠ '0' := by
        rintro rfl
        have short := plain rfl
        simp at short
      have earlier : ∀ c ∈ e :: rest, c.isDigit = true := fun c member => digits c (List.mem_append_left _ member)
      obtain ⟨m, written⟩ := ih (by simp) earlier (by simp [nonzero])
      have positive : 0 < m := by
        rcases Nat.eq_zero_or_pos m with rfl | positive
        · exact absurd (List.cons.inj written).1 nonzero
        · exact positive
      refine ⟨10 * m + d, ?_⟩
      rw [written, number, number, ← Nat.toDigits_append_toDigits (by decide) positive small, Nat.toDigits_of_lt_base small]

theorem head_number {n : Nat} (zero : (number n).head? = some '0') : n = 0 := by
  induction n using Nat.strongRecOn with
  | _ n ih =>
    by_cases small : n < 10
    · rw [number, Nat.toDigits_of_lt_base small] at zero
      simpa using zero
    · have split := Nat.toDigits_of_base_le (b := 10) (n := n) (by decide) (by omega)
      rw [number, split, List.head?_append_of_ne_nil _ Nat.toDigits_ne_nil] at zero
      have := ih (n / 10) (by omega) zero
      omega

end Text
