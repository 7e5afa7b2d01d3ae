import Mathlib

/-! SHA-256 as FIPS 180-4 states it: on a message of bits, with the constants given by the roots of primes. -/

namespace Fips180

abbrev Word := BitVec 32

/-! Constants. -/

/-- The greatest number whose power is at most `n`, above `r` and by so many binary digits. -/
def rootFrom (k n : Nat) : Nat → Nat → Nat
  | 0, r => r
  | digits + 1, r => if (r + 2 ^ digits) ^ k ≤ n then rootFrom k n digits (r + 2 ^ digits) else rootFrom k n digits r

theorem rootFrom_spec {k n digits r : Nat} (below : r ^ k ≤ n) (above : n < (r + 2 ^ digits) ^ k) :
    rootFrom k n digits r ^ k ≤ n ∧ n < (rootFrom k n digits r + 1) ^ k := by
  induction digits generalizing r with
  | zero => exact ⟨below, above⟩
  | succ digits ih =>
    unfold rootFrom
    split_ifs with reached
    · refine ih reached ?_
      have double : r + 2 ^ digits + 2 ^ digits = r + 2 ^ (digits + 1) := by ring
      rwa [double]
    · exact ih below (Nat.lt_of_not_le reached)

def primes : List Nat := (List.range 312).filter fun n => n.Prime

def fraction (k n : Nat) : Word := BitVec.ofNat 32 (rootFrom k (n * 2 ^ (32 * k)) 56 0)

def K (t : Nat) : Word := fraction 3 (primes.getD t 0)

theorem rootFrom_eq {k n digits r : Nat} (positive : k ≠ 0) (below : r ^ k ≤ n) (above : n < (r + 1) ^ k)
    (fits : n < (2 ^ digits) ^ k) : rootFrom k n digits 0 = r := by
  have found := @rootFrom_spec k n digits 0 (by simp [positive]) (by rwa [Nat.zero_add])
  have low : r < rootFrom k n digits 0 + 1 := lt_of_pow_lt_pow_left₀ k (Nat.zero_le _) (below.trans_lt found.2)
  have high : rootFrom k n digits 0 < r + 1 := lt_of_pow_lt_pow_left₀ k (Nat.zero_le _) (found.1.trans_lt above)
  omega

def IsRoot (k n : Nat) (c : Word) : Prop :=
  let r := rootFrom k n 8 0 * 2 ^ 32 + c.toNat
  r ^ k ≤ n * 2 ^ (32 * k) ∧ n * 2 ^ (32 * k) < (r + 1) ^ k

instance (k n : Nat) (c : Word) : Decidable (IsRoot k n c) := inferInstanceAs (Decidable (_ ∧ _))

theorem fraction_eq {k n : Nat} {c : Word} (positive : k ≠ 0) (small : n < 2 ^ 24) (root : IsRoot k n c) :
    fraction k n = c := by
  have fits : n * 2 ^ (32 * k) < (2 ^ 56) ^ k := by
    have split : (2 ^ 56) ^ k = (2 ^ 24) ^ k * 2 ^ (32 * k) := by
      rw [Nat.pow_mul, ← Nat.mul_pow]
      norm_num
    rw [split]
    refine Nat.mul_lt_mul_of_pos_right (small.trans_le ?_) (by positivity)
    exact Nat.le_self_pow positive _
  unfold fraction
  rw [rootFrom_eq positive root.1 root.2 fits]
  apply BitVec.eq_of_toNat_eq
  have below := c.isLt
  simp only [BitVec.toNat_ofNat]
  omega

def passes (n : Nat) : Bool := 2 ≤ n && [2, 3, 5, 7, 11, 13, 17].all fun p => n % p != 0 || p == n

theorem prime_iff_passes {n : Nat} (small : n < 324) : n.Prime ↔ passes n = true := by
  simp only [passes, Bool.and_eq_true, decide_eq_true_eq, List.all_eq_true, Bool.or_eq_true, bne_iff_ne, beq_iff_eq]
  constructor
  · intro prime
    refine ⟨prime.two_le, fun p member => ?_⟩
    by_cases divides : p ∣ n
    · rcases (Nat.dvd_prime prime).mp divides with one | same
      · subst one
        exact absurd member (by decide)
      · exact .inr same
    · exact .inl fun zero => divides (Nat.dvd_of_mod_eq_zero zero)
  · rintro ⟨two, tests⟩
    by_contra composite
    have square := Nat.minFac_sq_le_self (by omega) composite
    have below : n.minFac < 18 := by nlinarith
    have prime : n.minFac.Prime := Nat.minFac_prime (by omega)
    have listed : n.minFac ∈ [2, 3, 5, 7, 11, 13, 17] := by
      generalize n.minFac = p at below prime
      interval_cases p <;> first | decide | exact absurd prime (by norm_num)
    rcases tests _ listed with rest | same
    · exact rest (Nat.mod_eq_zero_of_dvd n.minFac_dvd)
    · exact composite (same ▸ prime)

theorem primes_eq : primes =
    [2, 3, 5, 7, 11, 13, 17, 19, 23, 29, 31, 37, 41, 43, 47, 53, 59, 61, 67, 71, 73, 79, 83, 89, 97, 101, 103, 107, 109, 113,
      127, 131, 137, 139, 149, 151, 157, 163, 167, 173, 179, 181, 191, 193, 197, 199, 211, 223, 227, 229, 233, 239, 241, 251,
      257, 263, 269, 271, 277, 281, 283, 293, 307, 311] := by
  have tested : primes = (List.range 312).filter passes := by
    refine List.filter_congr fun n member => ?_
    have small := List.mem_range.mp member
    rw [Bool.eq_iff_iff, decide_eq_true_iff]
    exact prime_iff_passes (by omega)
  rw [tested]
  decide +kernel

theorem getD_primes_lt (t : Nat) : primes.getD t 0 < 2 ^ 24 := by
  by_cases inside : t < primes.length
  · rw [List.getD_eq_getElem _ _ inside]
    have member := List.mem_range.mp (List.mem_filter.mp (List.getElem_mem inside)).1
    omega
  · rw [List.getD_eq_default _ _ (by omega)]
    decide

theorem eq_fractions {k : Nat} (positive : k ≠ 0) {table : List Word}
    (roots : ∀ t < table.length, IsRoot k (primes.getD t 0) (table.getD t 0)) :
    table = (List.range table.length).map fun t => fraction k (primes.getD t 0) := by
  refine List.ext_getElem (by simp) fun t inside _ => ?_
  have root := roots t inside
  rw [List.getD_eq_getElem _ _ inside] at root
  rw [List.getElem_map, List.getElem_range]
  exact (fraction_eq positive (getD_primes_lt t) root).symm

/-! Functions. -/

def Ch (x y z : Word) : Word := (x &&& y) ^^^ (~~~x &&& z)

def Maj (x y z : Word) : Word := (x &&& y) ^^^ (x &&& z) ^^^ (y &&& z)

def bigSigma0 (x : Word) : Word := x.rotateRight 2 ^^^ x.rotateRight 13 ^^^ x.rotateRight 22

def bigSigma1 (x : Word) : Word := x.rotateRight 6 ^^^ x.rotateRight 11 ^^^ x.rotateRight 25

def sigma0 (x : Word) : Word := x.rotateRight 7 ^^^ x.rotateRight 18 ^^^ x >>> 3

def sigma1 (x : Word) : Word := x.rotateRight 17 ^^^ x.rotateRight 19 ^^^ x >>> 10

/-! The hash of blocks of sixteen words. -/

def W (M : Nat → Word) (t : Nat) : Word :=
  if t < 16 then M t else sigma1 (W M (t - 2)) + W M (t - 7) + sigma0 (W M (t - 15)) + W M (t - 16)
termination_by t

/-- The eight working variables, or words of a hash value. -/
structure Hash where
  a : Word
  b : Word
  c : Word
  d : Word
  e : Word
  f : Word
  g : Word
  h : Word

namespace Hash

/-- The initial value comes from the square roots of the first eight primes. -/
def initial : Hash :=
  ⟨fraction 2 (primes.getD 0 0), fraction 2 (primes.getD 1 0), fraction 2 (primes.getD 2 0), fraction 2 (primes.getD 3 0),
    fraction 2 (primes.getD 4 0), fraction 2 (primes.getD 5 0), fraction 2 (primes.getD 6 0), fraction 2 (primes.getD 7 0)⟩

def round (s : Hash) (K W : Word) : Hash :=
  let T1 := s.h + bigSigma1 s.e + Ch s.e s.f s.g + K + W
  let T2 := bigSigma0 s.a + Maj s.a s.b s.c
  ⟨T1 + T2, s.a, s.b, s.c, s.d + T1, s.e, s.f, s.g⟩

def add (s t : Hash) : Hash := ⟨t.a + s.a, t.b + s.b, t.c + s.c, t.d + s.d, t.e + s.e, t.f + s.f, t.g + s.g, t.h + s.h⟩

def block (H : Hash) (M : Nat → Word) : Hash := H.add ((List.range 64).foldl (fun s t => s.round (K t) (W M t)) H)

def words (H : Hash) : List Word := [H.a, H.b, H.c, H.d, H.e, H.f, H.g, H.h]

end Hash

/-! Messages. -/

def bits (length n : Nat) : List Bool := (List.range length).map fun i => n.testBit (length - 1 - i)

def value (digits : List Bool) : Nat := digits.foldl (fun n b => 2 * n + b.toNat) 0

def zeros (length : Nat) : Nat := (959 - length % 512) % 512

def Hash.digest (H : Hash) : List Bool := H.words.flatMap fun w => bits 32 w.toNat

def pad (message : List Bool) : List Bool :=
  message ++ true :: (List.replicate (zeros message.length) false ++ bits 64 message.length)

def M (padded : List Bool) (i t : Nat) : Word := BitVec.ofNat 32 (value ((padded.drop (512 * i + 32 * t)).take 32))

def sha256 (message : List Bool) : Hash :=
  (List.range ((pad message).length / 512)).foldl (fun H i => H.block (M (pad message) i)) Hash.initial

/-! Bits of bytes. -/

@[simp] theorem length_bits (length n : Nat) : (bits length n).length = length := by simp [bits]

theorem bits_append (a b n : Nat) : bits (a + b) n = bits a (n / 2 ^ b) ++ bits b n := by
  unfold bits
  rw [List.range_add, List.map_append, List.map_map]
  refine congrArg₂ (· ++ ·) (List.map_congr_left fun i member => ?_) (List.map_congr_left fun i member => ?_)
  · have small := List.mem_range.mp member
    rw [Nat.testBit_div_two_pow]
    congr 1
    omega
  · change n.testBit (a + b - 1 - (a + i)) = _
    congr 1
    omega

theorem bits_mod (length n : Nat) : bits length (n % 2 ^ length) = bits length n := by
  unfold bits
  refine List.map_congr_left fun i member => ?_
  have small := List.mem_range.mp member
  rw [Nat.testBit_mod_two_pow, decide_eq_true (by omega), Bool.true_and]

theorem value_append (xs ys : List Bool) : value (xs ++ ys) = value xs * 2 ^ ys.length + value ys := by
  have start (n : Nat) (ys : List Bool) :
      ys.foldl (fun n b => 2 * n + b.toNat) n = n * 2 ^ ys.length + ys.foldl (fun n b => 2 * n + b.toNat) 0 := by
    induction ys generalizing n with
    | nil => simp
    | cons b ys ih =>
      rw [List.foldl_cons, List.foldl_cons, ih, ih (2 * 0 + b.toNat), List.length_cons]
      ring
  rw [value, List.foldl_append, start]
  rfl

theorem value_bits (length n : Nat) : value (bits length n) = n % 2 ^ length := by
  induction length generalizing n with
  | zero =>
    rw [Nat.pow_zero, Nat.mod_one]
    rfl
  | succ length ih =>
    have last : value (bits 1 n) = n % 2 := by
      simp only [bits, List.range_one, List.map_cons, List.map_nil, value, List.foldl_cons, List.foldl_nil]
      rcases Nat.mod_two_eq_zero_or_one n with even | odd
      · simp [even]
      · simp [odd]
    have whole : n % (2 * 2 ^ length) = n % 2 + 2 * (n / 2 % 2 ^ length) := Nat.mod_mul
    rw [bits_append, value_append, ih, last, length_bits, pow_one, Nat.pow_succ', whole]
    omega

end Fips180
