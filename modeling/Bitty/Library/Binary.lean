import Bitty.Library.Assign
import Bitty.Library.Numeral

/-! Single-precision numbers: the values of a 32-bit float and its rounded product. -/

/-- A 32-bit float. A finite one is its value: no sign of zero, no payload of a NaN. -/
inductive Binary32
  | nan
  | infinite (negative : Bool)
  | finite (value : ℚ)

namespace Binary32

/-- The distance of neighbouring floats at `x`: 24 bits of significand, down to the subnormal step. -/
def ulp (x : ℚ) : ℚ := (2 : ℚ) ^ max (Int.log 2 |x| - 23) (-149)

def roundEven (x : ℚ) : Int :=
  let below := ⌊x⌋
  if x - below < 1 / 2 then below
  else if 1 / 2 < x - below then below + 1
  else if below % 2 = 0 then below else below + 1

def round (x : ℚ) : Binary32 :=
  let value := roundEven (x / ulp x) * ulp x
  if 2 ^ 128 ≤ |value| then .infinite (value < 0) else .finite value

def ofNat (n : Nat) : Binary32 := round n

def isFinite : Binary32 → Bool
  | finite _ => true
  | _ => false

/-- The sum of two finite floats; a special operand makes it special. -/
def add : Binary32 → Binary32 → Binary32
  | finite x, finite y => round (x + y)
  | infinite s, finite _ => .infinite s
  | finite _, infinite s => .infinite s
  | infinite s, infinite t => if s = t then .infinite s else .nan
  | _, _ => .nan

/-- The product of two finite floats; a special operand makes it special. -/
def mul : Binary32 → Binary32 → Binary32
  | finite x, finite y => round (x * y)
  | infinite s, finite y => if y = 0 then .nan else .infinite (s ^^ decide (y < 0))
  | finite x, infinite s => if x = 0 then .nan else .infinite (s ^^ decide (x < 0))
  | infinite s, infinite t => .infinite (s ^^ t)
  | _, _ => .nan

/-- `floor` and then the saturating conversion to a 32-bit unsigned integer. -/
def floorToU32 : Binary32 → Nat
  | nan => 0
  | infinite negative => if negative then 0 else 2 ^ 32 - 1
  | finite x => min ⌊x⌋.toNat (2 ^ 32 - 1)

end Binary32

/-! Double-precision numbers, and their decimal texts: the shortest that reads back as the number. -/

namespace Binary64

open Binary32 (roundEven)

/-- The exponent of the distance of neighbouring floats at `x`: 53 bits of significand, down to the subnormal step. -/
def step (x : ℚ) : Int := max (Int.log 2 |x| - 52) (-1074)

def nearest (x : ℚ) : ℚ := roundEven (x / 2 ^ step x) * 2 ^ step x

theorem roundEven_intCast (n : Int) : roundEven n = n := by
  simp [roundEven]

theorem abs_roundEven_le {x : ℚ} {n : Nat} (bound : |x| ≤ n) : |roundEven x| ≤ n := by
  have low : (-(n : Int)) ≤ ⌊x⌋ := by
    rw [Int.le_floor]
    push_cast
    exact (abs_le.mp bound).1
  have below : ((⌊x⌋ : Int) : ℚ) ≤ x := Int.floor_le x
  have whole : ((⌊x⌋ : Int) : ℚ) ≤ n := below.trans (abs_le.mp bound).2
  have high : ⌊x⌋ ≤ (n : Int) := by exact_mod_cast whole
  have last : ⌊x⌋ = n → roundEven x = n := by
    intro same
    have at_top : x = n := by
      refine le_antisymm (abs_le.mp bound).2 ?_
      rw [same] at below
      exact_mod_cast below
    rw [at_top]
    exact_mod_cast roundEven_intCast n
  by_cases same : ⌊x⌋ = n
  · rw [last same]
    simp
  · have cases : roundEven x = ⌊x⌋ ∨ roundEven x = ⌊x⌋ + 1 := by
      unfold roundEven
      dsimp only
      split_ifs <;> simp
    rw [abs_le]
    omega

theorem unit_pos (e : Int) : (0 : ℚ) < 2 ^ e := zpow_pos (by norm_num) e

theorem lt_step (x : ℚ) : |x| < 2 ^ (step x + 53) := by
  rcases eq_or_ne x 0 with rfl | nonzero
  · rw [abs_zero]
    exact unit_pos _
  have above := Int.lt_zpow_succ_log_self (b := 2) (by norm_num) |x|
  refine lt_of_lt_of_le above ?_
  refine zpow_le_zpow_right₀ (by norm_num) ?_
  have := le_max_left (Int.log 2 |x| - 52) (-1074)
  unfold step
  omega

theorem nearest_of_multiple {x : ℚ} {n : Int} (multiple : x = n * 2 ^ step x) : nearest x = x := by
  have unit : (2 : ℚ) ^ step x ≠ 0 := (unit_pos _).ne'
  have ratio : x / 2 ^ step x = n := by
    rw [div_eq_iff unit]
    exact multiple
  unfold nearest
  rw [ratio, roundEven_intCast]
  exact multiple.symm

theorem step_ge (x : ℚ) : -1074 ≤ step x := le_max_right _ _

theorem step_le {y : ℚ} {e : Int} (low : -1074 ≤ e) (nonzero : y ≠ 0) (small : |y| < 2 ^ (e + 53)) : step y ≤ e := by
  have log := (Int.lt_zpow_iff_log_lt (b := 2) (by norm_num) (abs_pos.mpr nonzero)).mp (by exact_mod_cast small)
  refine max_le ?_ low
  omega

theorem zpow_of_le {a e : Int} (le : a ≤ e) : ∃ k : Nat, (2 : ℚ) ^ e = 2 ^ k * 2 ^ a := by
  obtain ⟨k, rfl⟩ := Int.le.dest le
  exact ⟨k, by rw [add_comm, zpow_add₀ (by norm_num), zpow_natCast]⟩

theorem nearest_nearest (x : ℚ) : nearest (nearest x) = nearest x := by
  let e := step x
  let r := roundEven (x / 2 ^ e)
  have value : nearest x = r * 2 ^ e := rfl
  have unit := unit_pos e
  have bound : |r| ≤ (2 ^ 53 : Nat) := by
    refine abs_roundEven_le ?_
    have above := lt_step x
    rw [zpow_add₀ (by norm_num)] at above
    rw [abs_div, abs_of_pos unit, div_le_iff₀ unit, mul_comm]
    exact_mod_cast above.le
  rw [value]
  rcases eq_or_ne r 0 with none | some
  · rw [none]
    exact nearest_of_multiple (n := 0) (by simp)
  have nonzero : (r : ℚ) * 2 ^ e ≠ 0 := mul_ne_zero (by exact_mod_cast some) unit.ne'
  have size : |(r : ℚ) * 2 ^ e| = |r| * 2 ^ e := by
    rw [abs_mul, abs_of_pos unit]
    push_cast
    rfl
  rcases bound.lt_or_eq with below | full
  · -- the step of the rounded value is no larger, so the value is a multiple of it
    have small : |(r : ℚ) * 2 ^ e| < 2 ^ (e + 53) := by
      rw [size, zpow_add₀ (by norm_num), mul_comm]
      refine mul_lt_mul_of_pos_left ?_ unit
      exact_mod_cast below
    obtain ⟨k, split⟩ := zpow_of_le (step_le (step_ge x) nonzero small)
    refine nearest_of_multiple (n := r * 2 ^ k) ?_
    push_cast
    rw [mul_assoc, ← split]
  · -- all 53 bits were rounded up: the value is a power of two
    have small : |(r : ℚ) * 2 ^ e| < 2 ^ (e + 1 + 53) := by
      rw [size, full, add_assoc, zpow_add₀ (by norm_num), mul_comm]
      refine mul_lt_mul_of_pos_left ?_ unit
      norm_num
    obtain ⟨k, split⟩ := zpow_of_le (step_le (le_trans (step_ge x) (Int.le_add_one le_rfl)) nonzero small)
    have double : (2 : ℚ) ^ (e + 1) = 2 ^ e * 2 := zpow_add_one₀ (by norm_num) e
    have signed : (r : ℚ) = r.sign * 2 ^ 53 := by
      have whole : r = r.sign * (2 ^ 53 : Nat) := by
        rw [← full, Int.sign_mul_abs]
      exact_mod_cast whole
    refine nearest_of_multiple (n := r.sign * 2 ^ 52 * 2 ^ k) ?_
    push_cast
    rw [mul_assoc _ ((2 : ℚ) ^ k), ← split, double, signed]
    ring

theorem nearest_neg {x : ℚ} (float : nearest x = x) : nearest (-x) = -x := by
  have same : step (-x) = step x := by
    unfold step
    rw [abs_neg]
  refine nearest_of_multiple (n := -roundEven (x / 2 ^ step x)) ?_
  rw [same]
  push_cast
  rw [neg_mul]
  exact congrArg Neg.neg float.symm

theorem nearest_abs {x : ℚ} (float : nearest x = x) : nearest |x| = |x| := by
  rcases abs_choice x with same | opposite
  · rw [same]
    exact float
  · rw [opposite]
    exact nearest_neg float

end Binary64

/-- A 64-bit float. A finite one is its value: no sign of zero, no payload of a NaN. -/
inductive Binary64
  | nan
  | infinite (negative : Bool)
  | finite (value : ℚ) (float : Binary64.nearest value = value) (bounded : |value| < 2 ^ 1024)

namespace Binary64

open Text

def round (x : ℚ) : Binary64 :=
  if bounded : |nearest x| < 2 ^ 1024 then .finite (nearest x) (nearest_nearest x) bounded else .infinite (x < 0)

def neg : Binary64 → Binary64
  | nan => nan
  | infinite negative => infinite !negative
  | finite value float bounded => finite (-value) (nearest_neg float) (by rwa [abs_neg])

def isFinite : Binary64 → Bool
  | finite .. => true
  | _ => false

theorem round_of_nearest {x value : ℚ} (same : nearest x = value) (float : nearest value = value) (bounded : |value| < 2 ^ 1024) :
    round x = .finite value float bounded := by
  subst same
  exact dif_pos bounded

/-! A decimal is a number of digits and the power of ten of the last one. -/

def decimal (d : Nat × Int) : ℚ := d.1 * 10 ^ d.2

/-- The decimals of `k` digits next to a positive value, the nearer one first. -/
def neighbours (q : ℚ) (k : Nat) : List (Nat × Int) :=
  let place := Int.log 10 q + 1 - k
  let below := ⌊q / 10 ^ place⌋.toNat
  let above := if below + 1 = 10 ^ k then (1, place + k) else (below + 1, place)
  let gap := q / 10 ^ place - below
  if gap < 1 / 2 ∨ gap = 1 / 2 ∧ below % 2 = 0 then [(below, place), above] else [above, (below, place)]

/-- The shortest decimal of at most 17 digits that reads back as the value. -/
def shortest (q : ℚ) : Nat × Int :=
  let candidates := (List.range 17).flatMap fun k => neighbours q (k + 1)
  (candidates.find? fun d => nearest (decimal d) = q).getD (⌊q * 10 ^ 1074⌋.toNat, -1074)

def decimalText : Nat × Int → Text
  | (digits, .ofNat places) => number (digits * 10 ^ places)
  | (digits, .negSucc places) => number (digits / 10 ^ (places + 1)) ++ '.' :: padded (places + 1) digits

/-- `Display` of an `f64`. -/
def display : Binary64 → Text
  | nan => "NaN".toList
  | infinite negative => if negative then "-inf".toList else "inf".toList
  | finite value _ _ =>
    if value < 0 then '-' :: decimalText (shortest |value|) else decimalText (shortest |value|)

def readExponent : Text → Option Int
  | [] => some 0
  | _ :: rest => readInteger rest

/-- The value of digits with or without a point, times a power of ten. -/
def readMantissa (text : Text) (exponent : Int) : Option ℚ :=
  let (whole, fraction) := (splitOnce '.' text).getD (text, [])
  (readNumber (whole ++ fraction)).map fun digits => decimal (digits, exponent - fraction.length)

def readUnsigned (text : Text) : Option ℚ :=
  (readExponent (text.dropWhile fun c => c ≠ 'e' ∧ c ≠ 'E')).bind
    (readMantissa (text.takeWhile fun c => c ≠ 'e' ∧ c ≠ 'E'))

/-- `FromStr` of an `f64`, for a text of digits, signs, points and exponents. -/
def parse : Text → Option Binary64
  | '-' :: rest => (readUnsigned rest).map fun x => neg (round x)
  | '+' :: rest => (readUnsigned rest).map round
  | rest => (readUnsigned rest).map round

theorem decimalText_places (digits places : Nat) :
    decimalText (digits, (places : Int)) = number (digits * 10 ^ places) := rfl

theorem decimalText_fraction (digits places : Nat) : decimalText (digits, Int.negSucc places) =
    number (digits / 10 ^ (places + 1)) ++ '.' :: padded (places + 1) digits := rfl

theorem mem_decimalText {d : Nat × Int} {c : Char} (member : c ∈ decimalText d) : c.isDigit ∨ c = '.' := by
  obtain ⟨digits, place⟩ := d
  cases place with
  | ofNat places => exact .inl (isDigit_of_mem_number member)
  | negSucc places =>
    rw [decimalText_fraction, List.mem_append, List.mem_cons] at member
    rcases member with whole | rfl | fraction
    · exact .inl (isDigit_of_mem_number whole)
    · exact .inr rfl
    · exact .inl (isDigit_of_mem_padded fraction)

theorem not_mem_decimalText {d : Nat × Int} {c : Char} (letter : c.isDigit = false) (other : c ≠ '.') : c ∉ decimalText d := by
  intro member
  rcases mem_decimalText member with digit | point
  · rw [letter] at digit
    cases digit
  · exact other point

theorem readMantissa_decimalText (d : Nat × Int) : readMantissa (decimalText d) 0 = some (decimal d) := by
  obtain ⟨digits, place⟩ := d
  cases place with
  | ofNat places =>
    have pointless : '.' ∉ number (digits * 10 ^ places) := not_mem_number (by decide)
    have whole : splitOnce '.' (number (digits * 10 ^ places)) = none := if_neg pointless
    simp only [readMantissa, Int.ofNat_eq_natCast, decimalText_places, whole, Option.getD_none, List.append_nil,
      readNumber_number, Option.map_some]
    simp [decimal]
  | negSucc places =>
    have split : splitOnce '.' (decimalText (digits, Int.negSucc places)) =
        some (number (digits / 10 ^ (places + 1)), padded (places + 1) digits) :=
      splitOnce_append _ (not_mem_number (by decide))
    have read : readNumber (number (digits / 10 ^ (places + 1)) ++ padded (places + 1) digits) = some digits := by
      have some : number (digits / 10 ^ (places + 1)) ++ padded (places + 1) digits ≠ [] :=
        List.append_ne_nil_of_left_ne_nil (number_ne_nil _) _
      rw [readNumber, if_neg some, readDigits_append, readDigits_number, Option.bind_some, readDigits_padded,
        Nat.div_add_mod]
    simp only [readMantissa, split, Option.getD_some, read, Option.map_some, length_padded]
    congr 2

theorem readUnsigned_decimalText (d : Nat × Int) : readUnsigned (decimalText d) = some (decimal d) := by
  have plain : ∀ c ∈ decimalText d, decide (c ≠ 'e' ∧ c ≠ 'E') = true := by
    intro c member
    rw [decide_eq_true_eq]
    constructor
    · rintro rfl
      exact not_mem_decimalText (by decide) (by decide) member
    · rintro rfl
      exact not_mem_decimalText (by decide) (by decide) member
  have mantissa : (decimalText d).takeWhile (fun c => c ≠ 'e' ∧ c ≠ 'E') = decimalText d :=
    List.takeWhile_eq_self_iff.mpr plain
  have tail : (decimalText d).dropWhile (fun c => c ≠ 'e' ∧ c ≠ 'E') = [] := List.dropWhile_eq_nil_iff.mpr plain
  rw [readUnsigned, mantissa, tail]
  exact readMantissa_decimalText d

theorem exists_whole (r : Int) {e : Int} {places : Nat} (low : -(places : Int) ≤ e) :
    ∃ n : Int, (r : ℚ) * 2 ^ e * 10 ^ places = n := by
  obtain ⟨k, sum⟩ := Int.eq_ofNat_of_zero_le (by omega : 0 ≤ e + places)
  have twos : (2 : ℚ) ^ e * 2 ^ places = 2 ^ k := by
    rw [← zpow_natCast (2 : ℚ) places, ← zpow_add₀ (by norm_num), sum, zpow_natCast]
  have tens : (10 : ℚ) ^ places = 2 ^ places * 5 ^ places := by
    rw [← mul_pow]
    norm_num
  refine ⟨r * 2 ^ k * 5 ^ places, ?_⟩
  push_cast
  rw [← twos, tens]
  ring

theorem decimal_of_whole {q : ℚ} {places : Nat} {n : Int} (nonneg : 0 ≤ q) (whole : q * 10 ^ places = n) :
    decimal (⌊q * 10 ^ places⌋.toNat, -(places : Int)) = q := by
  have positive : (0 : ℚ) < 10 ^ places := by positivity
  have sign : 0 ≤ n := by
    have scaled : (0 : ℚ) ≤ n := whole ▸ mul_nonneg nonneg positive.le
    exact_mod_cast scaled
  have digits : ((n.toNat : Nat) : ℚ) = n := by exact_mod_cast congrArg (Int.cast : Int → ℚ) (Int.toNat_of_nonneg sign)
  rw [decimal, whole, Int.floor_intCast, digits, ← whole, zpow_neg, zpow_natCast, mul_assoc, mul_inv_cancel₀ positive.ne',
    mul_one]

theorem nearest_shortest {q : ℚ} (float : nearest q = q) (nonneg : 0 ≤ q) : nearest (decimal (shortest q)) = q := by
  unfold shortest
  dsimp only
  cases found : ((List.range 17).flatMap fun k => neighbours q (k + 1)).find? fun d => nearest (decimal d) = q with
  | some d =>
    have reads := List.find?_some found
    rw [decide_eq_true_eq] at reads
    exact reads
  | none =>
    -- the subnormal step bounds the places of every float
    obtain ⟨n, whole⟩ := exists_whole (Binary32.roundEven (q / 2 ^ step q)) (step_ge q)
    have value : (Binary32.roundEven (q / 2 ^ step q) : ℚ) * 2 ^ step q = q := float
    rw [value] at whole
    have exact : decimal (⌊q * 10 ^ 1074⌋.toNat, -1074) = q := decimal_of_whole nonneg whole
    rw [Option.getD_none, exact]
    exact float

theorem parse_decimalText (d : Nat × Int) : parse (decimalText d) = some (round (decimal d)) := by
  have read := readUnsigned_decimalText d
  unfold parse
  split
  · rename_i rest shape
    exact absurd (shape ▸ List.mem_cons_self) (not_mem_decimalText (d := d) (by decide) (by decide))
  · rename_i rest shape
    exact absurd (shape ▸ List.mem_cons_self) (not_mem_decimalText (d := d) (by decide) (by decide))
  · rw [read]
    rfl

theorem parse_display {f : Binary64} (finite : f.isFinite = true) : parse (display f) = some f := by
  cases f with
  | nan => cases finite
  | infinite negative => cases finite
  | finite value float bounded =>
    have size : |(|value|)| < 2 ^ 1024 := by rwa [abs_abs]
    have rounded := round_of_nearest (nearest_shortest (nearest_abs float) (abs_nonneg value)) (nearest_abs float) size
    unfold display
    dsimp only
    split_ifs with negative
    · rw [parse, readUnsigned_decimalText, Option.map_some, rounded, neg]
      congr 2
      rw [abs_of_neg negative, neg_neg]
    · rw [parse_decimalText, rounded]
      congr 2
      exact abs_of_nonneg (not_lt.mp negative)

theorem mem_display {f : Binary64} (finite : f.isFinite = true) {c : Char} (member : c ∈ display f) :
    c.isDigit ∨ c = '.' ∨ c = '-' := by
  cases f with
  | nan => cases finite
  | infinite negative => cases finite
  | finite value float bounded =>
    unfold display at member
    dsimp only at member
    have unsigned (inside : c ∈ decimalText (shortest |value|)) : c.isDigit ∨ c = '.' ∨ c = '-' := by
      rcases mem_decimalText inside with digit | point
      · exact .inl digit
      · exact .inr (.inl point)
    split_ifs at member with negative
    · rcases List.mem_cons.mp member with sign | inside
      · exact .inr (.inr sign)
      · exact unsigned inside
    · exact unsigned member

theorem display_pointless {value : ℚ} {float : nearest value = value} {bounded : |value| < 2 ^ 1024} (nonzero : value ≠ 0)
    (pointless : '.' ∉ display (finite value float bounded)) : ∃ n, display (finite value float bounded) = integer n := by
  have reads := nearest_shortest (nearest_abs float) (abs_nonneg value)
  unfold display at pointless ⊢
  dsimp only at pointless ⊢
  have whole (inside : '.' ∉ decimalText (shortest |value|)) : ∃ n : Nat, 0 < n ∧ decimalText (shortest |value|) = number n := by
    rcases shape : shortest |value| with ⟨digits, place⟩
    rw [shape] at inside reads
    cases place with
    | ofNat places =>
      refine ⟨digits * 10 ^ places, ?_, rfl⟩
      refine Nat.mul_pos (Nat.pos_of_ne_zero ?_) (by positivity)
      rintro rfl
      have zero : nearest (0 : ℚ) = 0 := nearest_of_multiple (n := 0) (by simp)
      rw [decimal, Nat.cast_zero, zero_mul, zero] at reads
      exact nonzero (abs_eq_zero.mp reads.symm)
    | negSucc places => exact absurd (List.mem_append_right _ List.mem_cons_self) inside
  split_ifs at pointless ⊢ with negative
  · obtain ⟨n, positive, text⟩ := whole fun inside => pointless (List.mem_cons_of_mem _ inside)
    refine ⟨-(n : Int), ?_⟩
    rw [integer, if_pos (by omega), text, Int.natAbs_neg, Int.natAbs_natCast]
  · obtain ⟨n, positive, text⟩ := whole pointless
    refine ⟨n, ?_⟩
    rw [integer, if_neg (by omega), text, Int.natAbs_natCast]

end Binary64
