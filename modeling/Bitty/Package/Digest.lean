import Bitty.Package.Sha256
namespace Bitty.Package

open Fips180

/-! The hash of words. -/

theorem toBitVec_rotateRight (x : UInt32) {n : UInt32} (positive : 0 < n.toNat) (small : n.toNat < 32) :
    (rotateRight x n).toBitVec = x.toBitVec.rotateRight n.toNat := by
  have size : (n.toBitVec % 32#32).toNat = n.toNat := by
    rw [BitVec.toNat_umod]
    exact Nat.mod_eq_of_lt small
  have rest : ((32 - n).toBitVec % 32#32).toNat = 32 - n.toNat := by
    rw [BitVec.toNat_umod]
    change (32 - n).toNat % 32 = _
    rw [UInt32.toNat_sub_of_le _ _ (UInt32.le_iff_toNat_le.mpr small.le)]
    change (32 - n.toNat) % 32 = _
    omega
  rw [BitVec.rotateRight_def, Nat.mod_eq_of_lt small]
  unfold rotateRight
  rw [UInt32.toBitVec_or, UInt32.toBitVec_shiftRight, UInt32.toBitVec_shiftLeft, BitVec.ushiftRight_eq',
    BitVec.shiftLeft_eq']
  exact congrArg₂ (fun a b => x.toBitVec >>> a ||| x.toBitVec <<< b) size rest

namespace Sha256State

def hash (s : Sha256State) : Hash :=
  ⟨s.a.toBitVec, s.b.toBitVec, s.c.toBitVec, s.d.toBitVec, s.e.toBitVec, s.f.toBitVec, s.g.toBitVec, s.h.toBitVec⟩

theorem hash_round (s : Sha256State) (kw : UInt32 × UInt32) :
    (s.round kw).hash = s.hash.round kw.1.toBitVec kw.2.toBitVec := by
  have rotate (x n : UInt32) (positive : 0 < n.toNat) (small : n.toNat < 32) := toBitVec_rotateRight x positive small
  simp only [round, hash, Hash.round, bigSigma0, bigSigma1, Ch, Maj, UInt32.toBitVec_add, UInt32.toBitVec_xor,
    UInt32.toBitVec_and, UInt32.toBitVec_not]
  rw [rotate s.e 6 (by decide) (by decide), rotate s.e 11 (by decide) (by decide), rotate s.e 25 (by decide) (by decide),
    rotate s.a 2 (by decide) (by decide), rotate s.a 13 (by decide) (by decide), rotate s.a 22 (by decide) (by decide)]
  rfl

end Sha256State

/-! The schedule. -/

theorem toBitVec_nextWord (w : List UInt32) (k : Nat) (M : Nat → Word) (enough : 16 ≤ k)
    (words : w.map (·.toBitVec) = (List.range k).map (W M)) : (nextWord w).toBitVec = W M k := by
  have length : w.length = k := by simpa using congrArg List.length words
  have at' (back : Nat) (positive : 0 < back) (small : back ≤ k) :
      (w.getD (w.length - back) 0).toBitVec = W M (k - back) := by
    have here : k - back < w.length := by omega
    have same : (w.map (·.toBitVec))[k - back]? = ((List.range k).map (W M))[k - back]? := by rw [words]
    rw [List.getElem?_map, List.getElem?_map, List.getElem?_range (by omega), List.getElem?_eq_getElem here] at same
    rw [length, List.getD_eq_getElem?_getD, List.getElem?_eq_getElem here]
    simpa using same
  have rotate (x n : UInt32) (positive : 0 < n.toNat) (small : n.toNat < 32) := toBitVec_rotateRight x positive small
  unfold nextWord
  simp only [UInt32.toBitVec_add, UInt32.toBitVec_xor]
  rw [rotate _ 7 (by decide) (by decide), rotate _ 18 (by decide) (by decide), rotate _ 17 (by decide) (by decide),
    rotate _ 19 (by decide) (by decide)]
  rw [UInt32.toBitVec_shiftRight, UInt32.toBitVec_shiftRight, at' 15 (by decide) (by omega), at' 2 (by decide) (by omega),
    at' 16 (by decide) (by omega), at' 7 (by decide) (by omega)]
  conv_rhs => rw [W, if_neg (by omega)]
  simp only [Fips180.sigma0, Fips180.sigma1]
  change W M (k - 16) + (_ ^^^ _ ^^^ W M (k - 15) >>> 3) + W M (k - 7) + (_ ^^^ _ ^^^ W M (k - 2) >>> 10) = _
  ac_rfl

theorem toBitVec_extendWords (n k : Nat) {w : List UInt32} {M : Nat → Word} (enough : 16 ≤ k)
    (words : w.map (·.toBitVec) = (List.range k).map (W M)) :
    (extendWords n w).map (·.toBitVec) = (List.range (k + n)).map (W M) := by
  induction n generalizing k w with
  | zero => exact words
  | succ n ih =>
    have more : (w ++ [nextWord w]).map (·.toBitVec) = (List.range (k + 1)).map (W M) := by
      rw [List.map_append, words, List.range_succ, List.map_append, List.map_singleton, List.map_singleton,
        toBitVec_nextWord w k M enough words]
    have longer := ih (k + 1) (by omega) more
    rw [Nat.add_right_comm] at longer
    exact longer

theorem toBitVec_SHA256_K : SHA256_K.map (·.toBitVec) = (List.range 64).map K := by
  refine eq_fractions (k := 3) (by decide) ?_
  rw [primes_eq]
  decide +kernel

theorem hash_SHA256_H0 : SHA256_H0.hash = Hash.initial := by
  have words : SHA256_H0.toWords.map (·.toBitVec) = (List.range 8).map fun t => fraction 2 (primes.getD t 0) := by
    refine eq_fractions (k := 2) (by decide) ?_
    rw [primes_eq]
    decide +kernel
  simp only [Sha256State.toWords, List.map_cons, List.map_nil, List.range_succ, List.range_zero, List.nil_append,
    List.cons_append, List.cons.injEq, and_true] at words
  obtain ⟨a, b, c, d, e, f, g, h⟩ := words
  simp only [Sha256State.hash, Hash.initial, a, b, c, d, e, f, g, h]

namespace Sha256State

theorem hash_foldl_round (kws : List (UInt32 × UInt32)) (s : Sha256State) :
    (kws.foldl round s).hash =
      (kws.map fun kw => (kw.1.toBitVec, kw.2.toBitVec)).foldl (fun s kw => s.round kw.1 kw.2) s.hash := by
  induction kws generalizing s with
  | nil => rfl
  | cons kw rest ih =>
    rw [List.foldl_cons, ih, hash_round]
    rfl

theorem hash_compress (s : Sha256State) {chunk : List UInt8} {M : Nat → Word}
    (words : (blockWords chunk).map (·.toBitVec) = (List.range 16).map M) :
    (s.compress chunk).hash = s.hash.block M := by
  have first : (blockWords chunk).map (·.toBitVec) = (List.range 16).map (W M) := by
    rw [words]
    refine List.map_congr_left fun t member => ?_
    rw [W, if_pos (List.mem_range.mp member)]
  have schedule := toBitVec_extendWords 48 16 (by omega) first
  have pairs : ((SHA256_K.zip (extendWords 48 (blockWords chunk))).map fun kw => (kw.1.toBitVec, kw.2.toBitVec)) =
      (List.range 64).map fun t => (K t, W M t) := by
    have split : ((SHA256_K.zip (extendWords 48 (blockWords chunk))).map fun kw => (kw.1.toBitVec, kw.2.toBitVec)) =
        (SHA256_K.map (·.toBitVec)).zip ((extendWords 48 (blockWords chunk)).map (·.toBitVec)) := by
      rw [List.zip_map]
      rfl
    rw [split, schedule, toBitVec_SHA256_K, List.zip_map']
  have rounds := hash_foldl_round (SHA256_K.zip (extendWords 48 (blockWords chunk))) s
  rw [pairs, List.foldl_map] at rounds
  unfold Hash.block
  rw [← rounds]
  simp only [compress, hash, Hash.add, UInt32.toBitVec_add, BitVec.add_comm]

end Sha256State

/-! Bits of bytes. -/

def byteBits (data : List UInt8) : List Bool := data.flatMap fun b => bits 8 b.toNat

theorem byteBits_append (xs ys : List UInt8) : byteBits (xs ++ ys) = byteBits xs ++ byteBits ys := List.flatMap_append

theorem byteBits_cons (b : UInt8) (rest : List UInt8) : byteBits (b :: rest) = bits 8 b.toNat ++ byteBits rest := rfl

theorem length_byteBits (data : List UInt8) : (byteBits data).length = 8 * data.length := by
  induction data with
  | nil => rfl
  | cons b rest ih =>
    rw [byteBits_cons, List.length_append, length_bits, ih, List.length_cons]
    omega

theorem drop_byteBits (n : Nat) (data : List UInt8) : (byteBits data).drop (8 * n) = byteBits (data.drop n) := by
  by_cases inside : n ≤ data.length
  · have head : (byteBits (data.take n)).length = 8 * n := by
      rw [length_byteBits, List.length_take]
      omega
    conv_lhs => rw [← List.take_append_drop n data, byteBits_append]
    exact List.drop_left' head
  · rw [List.drop_eq_nil_of_le (by rw [length_byteBits]; omega), List.drop_eq_nil_of_le (by omega)]
    rfl

theorem take_byteBits (n : Nat) (data : List UInt8) : (byteBits data).take (8 * n) = byteBits (data.take n) := by
  by_cases inside : n ≤ data.length
  · have head : (byteBits (data.take n)).length = 8 * n := by
      rw [length_byteBits, List.length_take]
      omega
    conv_lhs => rw [← List.take_append_drop n data, byteBits_append]
    exact List.take_left' head
  · rw [List.take_of_length_le (by rw [length_byteBits]; omega), List.take_of_length_le (by omega)]

theorem value_word (b₀ b₁ b₂ b₃ : UInt8) : BitVec.ofNat 32 (value (byteBits [b₀, b₁, b₂, b₃])) =
    (b₀.toUInt32 <<< 24 ||| b₁.toUInt32 <<< 16 ||| b₂.toUInt32 <<< 8 ||| b₃.toUInt32).toBitVec := by
  have small₀ := b₀.toNat_lt
  have small₁ := b₁.toNat_lt
  have small₂ := b₂.toNat_lt
  have small₃ := b₃.toNat_lt
  have digits : value (byteBits [b₀, b₁, b₂, b₃]) =
      ((b₀.toNat * 2 ^ 8 + b₁.toNat) * 2 ^ 8 + b₂.toNat) * 2 ^ 8 + b₃.toNat := by
    have byte (b : UInt8) : value (bits 8 b.toNat) = b.toNat := by
      rw [value_bits]
      exact Nat.mod_eq_of_lt b.toNat_lt
    simp only [byteBits, List.flatMap_cons, List.flatMap_nil, List.append_nil, value_append, byte, length_bits,
      List.length_append]
    ring
  apply BitVec.eq_of_toNat_eq
  rw [digits, BitVec.toNat_ofNat, UInt32.toNat_toBitVec]
  simp only [UInt32.toNat_or, UInt32.toNat_shiftLeft, UInt8.toNat_toUInt32]
  have shift (b : UInt8) {n : Nat} (inside : n ≤ 24) : b.toNat <<< n % 2 ^ 32 = 2 ^ n * b.toNat := by
    rw [Nat.shiftLeft_eq, Nat.mul_comm]
    refine Nat.mod_eq_of_lt ?_
    calc 2 ^ n * b.toNat < 2 ^ n * 2 ^ 8 := Nat.mul_lt_mul_of_pos_left b.toNat_lt (by positivity)
      _ ≤ 2 ^ 24 * 2 ^ 8 := Nat.mul_le_mul_right _ (Nat.pow_le_pow_right (by decide) inside)
  change _ = b₀.toNat <<< 24 % 2 ^ 32 ||| b₁.toNat <<< 16 % 2 ^ 32 ||| b₂.toNat <<< 8 % 2 ^ 32 ||| b₃.toNat
  rw [shift b₀ (by decide), shift b₁ (by decide), shift b₂ (by decide), ← Nat.two_pow_add_eq_or_of_lt (by omega)]
  have two : 2 ^ 24 * b₀.toNat + 2 ^ 16 * b₁.toNat = 2 ^ 16 * (2 ^ 8 * b₀.toNat + b₁.toNat) := by omega
  rw [two, ← Nat.two_pow_add_eq_or_of_lt (by omega)]
  have three : 2 ^ 16 * (2 ^ 8 * b₀.toNat + b₁.toNat) + 2 ^ 8 * b₂.toNat =
      2 ^ 8 * (2 ^ 8 * (2 ^ 8 * b₀.toNat + b₁.toNat) + b₂.toNat) := by omega
  rw [three, ← Nat.two_pow_add_eq_or_of_lt (by omega)]
  omega

theorem toBitVec_blockWords (n : Nat) {chunk : List UInt8} (length : chunk.length = 4 * n) :
    (blockWords chunk).map (·.toBitVec) =
      (List.range n).map fun t => BitVec.ofNat 32 (value (((byteBits chunk).drop (32 * t)).take 32)) := by
  induction n generalizing chunk with
  | zero =>
    obtain rfl := List.length_eq_zero_iff.mp length
    rfl
  | succ n ih =>
    match chunk, length with
    | b₀ :: b₁ :: b₂ :: b₃ :: rest, length =>
      have fewer : rest.length = 4 * n := by
        simp only [List.length_cons] at length
        omega
      have head : (byteBits (b₀ :: b₁ :: b₂ :: b₃ :: rest)).take 32 = byteBits [b₀, b₁, b₂, b₃] :=
        take_byteBits 4 (b₀ :: b₁ :: b₂ :: b₃ :: rest)
      rw [List.range_succ_eq_map, List.map_cons, List.map_map, Nat.mul_zero, List.drop_zero, head, value_word,
        blockWords, List.map_cons, ih fewer]
      refine congrArg _ (List.map_congr_left fun t _ => ?_)
      have tail : (byteBits (b₀ :: b₁ :: b₂ :: b₃ :: rest)).drop (32 * (t + 1)) = (byteBits rest).drop (32 * t) := by
        have split : 32 * (t + 1) = 8 * (4 * t + 4) := by omega
        have same : 32 * t = 8 * (4 * t) := by omega
        rw [split, same, drop_byteBits, drop_byteBits]
        rfl
      rw [Function.comp_apply, tail]

namespace Sha256State

theorem hash_update (blocks : Nat) (s : Sha256State) {data : List UInt8}
    (enough : SHA256_BLOCK_BYTES * blocks ≤ data.length) :
    (s.update blocks data).1.hash = (List.range blocks).foldl (fun H i => H.block (M (byteBits data) i)) s.hash := by
  induction blocks with
  | zero => rfl
  | succ blocks ih =>
    rw [Nat.mul_succ] at enough
    rw [update_add, List.range_succ, List.foldl_append, ← ih (by omega)]
    refine hash_compress _ ?_
    have length : ((data.drop (SHA256_BLOCK_BYTES * blocks)).take SHA256_BLOCK_BYTES).length = 4 * 16 := by
      rw [List.length_take, List.length_drop]
      unfold SHA256_BLOCK_BYTES at *
      omega
    rw [toBitVec_blockWords 16 length]
    refine List.map_congr_left fun t member => ?_
    have inside := List.mem_range.mp member
    unfold M SHA256_BLOCK_BYTES
    rw [← take_byteBits, ← drop_byteBits, List.drop_take, List.take_take, List.drop_drop]
    congr 4
    · omega
    · omega

end Sha256State

/-! Padding. -/

theorem byteBits_wordBytes (w : UInt32) : byteBits (wordBytes w) = bits 32 w.toNat := by
  have byte (x : UInt32) : bits 8 x.toUInt8.toNat = bits 8 x.toNat := by
    rw [UInt32.toNat_toUInt8]
    exact bits_mod 8 x.toNat
  have shift (n : UInt32) (small : n.toNat < 32) : (w >>> n).toNat = w.toNat / 2 ^ n.toNat := by
    rw [UInt32.toNat_shiftRight, Nat.mod_eq_of_lt small, Nat.shiftRight_eq_div_pow]
  have split : bits 32 w.toNat = bits 8 (w.toNat / 2 ^ 24) ++ (bits 8 (w.toNat / 2 ^ 16) ++ (bits 8 (w.toNat / 2 ^ 8) ++
      bits 8 w.toNat)) := by
    rw [← bits_append 8 8, ← bits_append 8 16, ← bits_append 8 24]
  rw [split, wordBytes, byteBits_cons, byteBits_cons, byteBits_cons, byteBits_cons, byte, byte, byte, byte,
    shift 24 (by decide), shift 16 (by decide), shift 8 (by decide)]
  exact congrArg _ (congrArg _ (congrArg _ (List.append_nil _)))

theorem byteBits_lengthBytes (n : UInt64) : byteBits (lengthBytes n) = bits 64 n.toNat := by
  have high : (n >>> 32).toUInt32.toNat = n.toNat / 2 ^ 32 % 2 ^ 32 := by
    rw [UInt64.toNat_toUInt32, UInt64.toNat_shiftRight, ← Nat.shiftRight_eq_div_pow]
    rfl
  rw [lengthBytes, byteBits_append, byteBits_wordBytes, byteBits_wordBytes, high, UInt64.toNat_toUInt32, bits_mod,
    bits_mod, ← bits_append]

theorem byteBits_replicate (n : Nat) : byteBits (List.replicate n 0) = List.replicate (8 * n) false := by
  induction n with
  | zero => rfl
  | succ n ih =>
    have zero : bits 8 (0 : UInt8).toNat = List.replicate 8 false := by decide
    rw [List.replicate_succ, byteBits_cons, ih, zero, List.replicate_append_replicate]
    congr 1
    omega

def padded (message : List UInt8) : List UInt8 :=
  message ++ 0x80 :: (List.replicate ((119 - message.length % 64) % 64) 0 ++
    lengthBytes (UInt64.ofNat message.length * 8))

theorem pad_byteBits {message : List UInt8} (short : message.length < 2 ^ 61) :
    pad (byteBits message) = byteBits (padded message) := by
  have size : (UInt64.ofNat message.length * 8).toNat = 8 * message.length := by
    rw [UInt64.toNat_mul, UInt64.toNat_ofNat']
    change message.length % 2 ^ 64 * 8 % 2 ^ 64 = _
    omega
  have room : zeros (8 * message.length) = 7 + 8 * ((119 - message.length % 64) % 64) := by
    unfold zeros
    omega
  have mark : bits 8 (0x80 : UInt8).toNat = true :: List.replicate 7 false := by decide
  rw [padded, byteBits_append, byteBits_cons, byteBits_append, byteBits_replicate, byteBits_lengthBytes, size, mark, pad,
    length_byteBits, room, ← List.replicate_append_replicate, List.append_assoc]
  rfl

theorem length_padded (message : List UInt8) : (padded message).length =
    SHA256_BLOCK_BYTES * (message.length / SHA256_BLOCK_BYTES +
      if SHA256_LENGTH_OFFSET ≤ message.length % SHA256_BLOCK_BYTES then 2 else 1) := by
  have length : (padded message).length = message.length + (1 + ((119 - message.length % 64) % 64 + 8)) := by
    simp only [padded, List.length_append, List.length_cons, List.length_replicate, lengthBytes, wordBytes]
    rw [Nat.add_comm 1]
    rfl
  rw [length]
  unfold SHA256_LENGTH_OFFSET SHA256_BLOCK_BYTES
  split <;> omega

theorem length_lengthBytes (n : UInt64) : (lengthBytes n).length = 8 := rfl

theorem finalize_one (s : Sha256State) {rest : List UInt8} (total : UInt64) (short : rest.length < SHA256_LENGTH_OFFSET) :
    Package.finalize s rest total =
      (s.update 1 (rest ++ 0x80 :: (List.replicate (55 - rest.length) 0 ++ lengthBytes (total * 8)))).1.toWords.flatMap
        wordBytes := by
  have block : padBlock SHA256_LENGTH_OFFSET (rest ++ [0x80]) ++ lengthBytes (total * 8) =
      rest ++ 0x80 :: (List.replicate (55 - rest.length) 0 ++ lengthBytes (total * 8)) := by
    have zeros : SHA256_LENGTH_OFFSET - (rest ++ [(0x80 : UInt8)]).length = 55 - rest.length := by
      rw [List.length_append, List.length_singleton]
      unfold SHA256_LENGTH_OFFSET SHA256_BLOCK_BYTES
      omega
    rw [padBlock, zeros, List.append_assoc, List.append_assoc]
    rfl
  have whole : (rest ++ 0x80 :: (List.replicate (55 - rest.length) 0 ++ lengthBytes (total * 8))).length =
      SHA256_BLOCK_BYTES := by
    rw [List.length_append, List.length_cons, List.length_append, List.length_replicate, length_lengthBytes]
    unfold SHA256_LENGTH_OFFSET SHA256_BLOCK_BYTES at *
    omega
  unfold Package.finalize
  dsimp only
  rw [if_neg (by omega), block, Sha256State.update, List.take_of_length_le whole.le]
  rfl

theorem finalize_two (s : Sha256State) {rest : List UInt8} (total : UInt64) (long : SHA256_LENGTH_OFFSET ≤ rest.length)
    (below : rest.length < SHA256_BLOCK_BYTES) :
    Package.finalize s rest total =
      (s.update 2 (rest ++ 0x80 :: (List.replicate (119 - rest.length) 0 ++ lengthBytes (total * 8)))).1.toWords.flatMap
        wordBytes := by
  have marked : (padBlock SHA256_BLOCK_BYTES (rest ++ [0x80])).length = SHA256_BLOCK_BYTES := by
    rw [padBlock, List.length_append, List.length_append, List.length_singleton, List.length_replicate]
    omega
  have blocks : rest ++ 0x80 :: (List.replicate (119 - rest.length) 0 ++ lengthBytes (total * 8)) =
      padBlock SHA256_BLOCK_BYTES (rest ++ [0x80]) ++ (padBlock SHA256_LENGTH_OFFSET [] ++ lengthBytes (total * 8)) := by
    have zeros : 119 - rest.length = (63 - rest.length) + SHA256_LENGTH_OFFSET := by
      unfold SHA256_LENGTH_OFFSET SHA256_BLOCK_BYTES at *
      omega
    have first : SHA256_BLOCK_BYTES - (rest ++ [(0x80 : UInt8)]).length = 63 - rest.length := by
      rw [List.length_append, List.length_singleton]
      unfold SHA256_BLOCK_BYTES
      omega
    rw [padBlock, first, padBlock, List.length_nil, Nat.sub_zero, zeros, ← List.replicate_append_replicate]
    simp only [List.append_assoc, List.cons_append, List.nil_append]
  have last : (padBlock SHA256_LENGTH_OFFSET [] ++ lengthBytes (total * 8)).length = SHA256_BLOCK_BYTES := rfl
  unfold Package.finalize
  dsimp only
  rw [if_pos long, blocks, Sha256State.update, Sha256State.update, List.take_left' marked, List.drop_left' marked,
    List.take_of_length_le last.le]
  rfl

theorem finalize_eq (message : List UInt8) :
    Package.finalize (SHA256_H0.update (message.length / SHA256_BLOCK_BYTES) message).1
        (message.drop (SHA256_BLOCK_BYTES * (message.length / SHA256_BLOCK_BYTES))) (UInt64.ofNat message.length) =
      (SHA256_H0.update ((padded message).length / SHA256_BLOCK_BYTES) (padded message)).1.toWords.flatMap wordBytes := by
  have enough : SHA256_BLOCK_BYTES * (message.length / SHA256_BLOCK_BYTES) ≤ message.length := Nat.mul_div_le _ _
  have rest : (message.drop (SHA256_BLOCK_BYTES * (message.length / SHA256_BLOCK_BYTES))).length =
      message.length % SHA256_BLOCK_BYTES := by
    rw [List.length_drop]
    unfold SHA256_BLOCK_BYTES
    omega
  have below : message.length % SHA256_BLOCK_BYTES < SHA256_BLOCK_BYTES := Nat.mod_lt _ (by decide)
  have zeros : (119 - message.length % 64) % 64 = if SHA256_LENGTH_OFFSET ≤ message.length % SHA256_BLOCK_BYTES
      then 119 - message.length % SHA256_BLOCK_BYTES else 55 - message.length % SHA256_BLOCK_BYTES := by
    unfold SHA256_LENGTH_OFFSET SHA256_BLOCK_BYTES
    split <;> omega
  rw [length_padded, Nat.mul_div_cancel_left _ (by decide), Sha256State.update_add, padded,
    Sha256State.update_append _ _ _ enough, List.drop_append_of_le_length enough, zeros, ← rest]
  rw [← rest] at below
  by_cases long : SHA256_LENGTH_OFFSET ≤
      (message.drop (SHA256_BLOCK_BYTES * (message.length / SHA256_BLOCK_BYTES))).length
  · rw [if_pos long, if_pos long]
    exact finalize_two _ _ long below
  · rw [if_neg long, if_neg long]
    exact finalize_one _ _ (by omega)

theorem byteBits_toWords (s : Sha256State) : byteBits (s.toWords.flatMap wordBytes) = s.hash.digest := by
  simp only [Sha256State.toWords, Sha256State.hash, Hash.digest, Hash.words, List.flatMap_cons, List.flatMap_nil,
    byteBits_append, byteBits_wordBytes, UInt32.toNat_toBitVec]
  rfl

namespace Sha256Hasher

theorem Read.finalize {message : List UInt8} {s : Sha256Hasher} (read : Read message s)
    (short : message.length < 2 ^ 61) : byteBits s.finalize = (Fips180.sha256 (byteBits message)).digest := by
  have blocks : (pad (byteBits message)).length / 512 = (padded message).length / SHA256_BLOCK_BYTES := by
    rw [pad_byteBits short, length_byteBits]
    unfold SHA256_BLOCK_BYTES
    omega
  rw [Sha256Hasher.finalize, read.state, read.rest, read.total, finalize_eq, byteBits_toWords,
    Sha256State.hash_update _ _ (Nat.mul_div_le _ _), hash_SHA256_H0, Fips180.sha256, blocks, pad_byteBits short]

/-- A message in any pieces has the digest of the whole. -/
theorem finalize_pieces (pieces : List (List UInt8)) (short : pieces.flatten.length < 2 ^ 61) :
    byteBits (pieces.foldl (fun s piece => s.update piece) new).finalize =
      (Fips180.sha256 (byteBits pieces.flatten)).digest :=
  (read_new.updates pieces).finalize short

/-- "abc" with an empty piece. -/
theorem finalize_abc : byteBits ([[0x61], [], [0x62, 0x63]].foldl (fun s piece => s.update piece) new).finalize =
    (Fips180.sha256 (byteBits [0x61, 0x62, 0x63])).digest :=
  finalize_pieces [[0x61], [], [0x62, 0x63]] (by decide)

end Sha256Hasher

end Bitty.Package
