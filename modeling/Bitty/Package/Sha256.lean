import Bitty.Library.Fips180
import Bitty.Package.Manifest

namespace Bitty.Package

open Text

def DIGEST_HEX_LEN : Nat := 64

def SHA256_K : List UInt32 :=
  [0x428a2f98, 0x71374491, 0xb5c0fbcf, 0xe9b5dba5, 0x3956c25b, 0x59f111f1, 0x923f82a4, 0xab1c5ed5,
    0xd807aa98, 0x12835b01, 0x243185be, 0x550c7dc3, 0x72be5d74, 0x80deb1fe, 0x9bdc06a7, 0xc19bf174,
    0xe49b69c1, 0xefbe4786, 0x0fc19dc6, 0x240ca1cc, 0x2de92c6f, 0x4a7484aa, 0x5cb0a9dc, 0x76f988da,
    0x983e5152, 0xa831c66d, 0xb00327c8, 0xbf597fc7, 0xc6e00bf3, 0xd5a79147, 0x06ca6351, 0x14292967,
    0x27b70a85, 0x2e1b2138, 0x4d2c6dfc, 0x53380d13, 0x650a7354, 0x766a0abb, 0x81c2c92e, 0x92722c85,
    0xa2bfe8a1, 0xa81a664b, 0xc24b8b70, 0xc76c51a3, 0xd192e819, 0xd6990624, 0xf40e3585, 0x106aa070,
    0x19a4c116, 0x1e376c08, 0x2748774c, 0x34b0bcb5, 0x391c0cb3, 0x4ed8aa4a, 0x5b9cca4f, 0x682e6ff3,
    0x748f82ee, 0x78a5636f, 0x84c87814, 0x8cc70208, 0x90befffa, 0xa4506ceb, 0xbef9a3f7, 0xc67178f2]

structure Sha256State where
  a : UInt32
  b : UInt32
  c : UInt32
  d : UInt32
  e : UInt32
  f : UInt32
  g : UInt32
  h : UInt32

def SHA256_H0 : Sha256State :=
  ⟨0x6a09e667, 0xbb67ae85, 0x3c6ef372, 0xa54ff53a, 0x510e527f, 0x9b05688c, 0x1f83d9ab, 0x5be0cd19⟩

def SHA256_BLOCK_BYTES : Nat := 64

def SHA256_LENGTH_OFFSET : Nat := SHA256_BLOCK_BYTES - 8

def rotateRight (x n : UInt32) : UInt32 := x >>> n ||| x <<< (32 - n)

def blockWords : List UInt8 → List UInt32
  | b₀ :: b₁ :: b₂ :: b₃ :: rest =>
    (b₀.toUInt32 <<< 24 ||| b₁.toUInt32 <<< 16 ||| b₂.toUInt32 <<< 8 ||| b₃.toUInt32) :: blockWords rest
  | _ => []

/-- The word that follows the words `w`. -/
def nextWord (w : List UInt32) : UInt32 :=
  let at' (back : Nat) : UInt32 := w.getD (w.length - back) 0
  let s0 := rotateRight (at' 15) 7 ^^^ rotateRight (at' 15) 18 ^^^ at' 15 >>> 3
  let s1 := rotateRight (at' 2) 17 ^^^ rotateRight (at' 2) 19 ^^^ at' 2 >>> 10
  at' 16 + s0 + at' 7 + s1

def extendWords : Nat → List UInt32 → List UInt32
  | 0, w => w
  | n + 1, w => extendWords n (w ++ [nextWord w])

namespace Sha256State

def round (s : Sha256State) (kw : UInt32 × UInt32) : Sha256State :=
  let s1 := rotateRight s.e 6 ^^^ rotateRight s.e 11 ^^^ rotateRight s.e 25
  let ch := (s.e &&& s.f) ^^^ (~~~s.e &&& s.g)
  let temp1 := s.h + s1 + ch + kw.1 + kw.2
  let s0 := rotateRight s.a 2 ^^^ rotateRight s.a 13 ^^^ rotateRight s.a 22
  let maj := (s.a &&& s.b) ^^^ (s.a &&& s.c) ^^^ (s.b &&& s.c)
  let temp2 := s0 + maj
  ⟨temp1 + temp2, s.a, s.b, s.c, s.d + temp1, s.e, s.f, s.g⟩

def compress (s : Sha256State) (chunk : List UInt8) : Sha256State :=
  let t := (SHA256_K.zip (extendWords 48 (blockWords chunk))).foldl round s
  ⟨s.a + t.a, s.b + t.b, s.c + t.c, s.d + t.d, s.e + t.e, s.f + t.f, s.g + t.g, s.h + t.h⟩

def update : Nat → Sha256State → List UInt8 → Sha256State × List UInt8
  | 0, s, data => (s, data)
  | blocks + 1, s, data => update blocks (s.compress (data.take SHA256_BLOCK_BYTES)) (data.drop SHA256_BLOCK_BYTES)

def toWords (s : Sha256State) : List UInt32 := [s.a, s.b, s.c, s.d, s.e, s.f, s.g, s.h]

end Sha256State

def wordBytes (w : UInt32) : List UInt8 := [(w >>> 24).toUInt8, (w >>> 16).toUInt8, (w >>> 8).toUInt8, w.toUInt8]

def lengthBytes (n : UInt64) : List UInt8 := wordBytes (n >>> 32).toUInt32 ++ wordBytes n.toUInt32

def padBlock (length : Nat) (bytes : List UInt8) : List UInt8 := bytes ++ List.replicate (length - bytes.length) 0

def finalize (s : Sha256State) (rest : List UInt8) (totalBytes : UInt64) : List UInt8 :=
  let bitLen := lengthBytes (totalBytes * 8)
  let marked := rest ++ [0x80]
  let last :=
    if SHA256_LENGTH_OFFSET ≤ rest.length then
      (s.compress (padBlock SHA256_BLOCK_BYTES marked)).compress (padBlock SHA256_LENGTH_OFFSET [] ++ bitLen)
    else s.compress (padBlock SHA256_LENGTH_OFFSET marked ++ bitLen)
  last.toWords.flatMap wordBytes

def sha256 (data : List UInt8) : List UInt8 :=
  let (s, rest) := SHA256_H0.update (data.length / SHA256_BLOCK_BYTES) data
  finalize s rest (UInt64.ofNat data.length)

def hexDigit (n : Nat) : Char := if n < 10 then Char.ofNat (48 + n) else Char.ofNat (87 + n)

def hexLower (bytes : List UInt8) : Text := bytes.flatMap fun b => [hexDigit (b.toNat / 16), hexDigit (b.toNat % 16)]

def sha256Hex (bytes : ByteArray) : Text := hexLower (sha256 bytes.toList)

def isAsciiHexdigit (c : Char) : Bool := c.isDigit ∨ ('a' ≤ c ∧ c ≤ 'f') ∨ ('A' ≤ c ∧ c ≤ 'F')

def isValidHexDigest (s : Text) : Bool := byteLen s = DIGEST_HEX_LEN ∧ s.all isAsciiHexdigit

def validateHexDigest (s field : Text) : Check :=
  Checks.refuseIf (¬isValidHexDigest s) (.manifest field ("digest '".toList ++ s ++ "' must be 64 hex chars (SHA-256)".toList))

theorem utf8Size_hexDigit {n : Nat} (small : n < 16) : (hexDigit n).utf8Size = 1 := by
  revert n
  decide

variable {c : Char}

theorem exists_of_mem_hexLower {bytes : List UInt8} (member : c ∈ hexLower bytes) : ∃ n < 16, c = hexDigit n := by
  obtain ⟨b, -, digit⟩ := List.mem_flatMap.mp member
  have small := b.toNat_lt
  rcases List.mem_cons.mp digit with high | low
  · exact ⟨b.toNat / 16, by omega, high⟩
  · exact ⟨b.toNat % 16, by omega, List.mem_singleton.mp low⟩

theorem length_hexLower (bytes : List UInt8) : (hexLower bytes).length = 2 * bytes.length := by
  induction bytes with
  | nil => rfl
  | cons b rest ih =>
    have split : hexLower (b :: rest) = [hexDigit (b.toNat / 16), hexDigit (b.toNat % 16)] ++ hexLower rest := rfl
    rw [split, List.length_append, ih, List.length_cons]
    simp only [List.length_cons, List.length_nil]
    omega

@[simp] theorem length_sha256Hex (bytes : ByteArray) : (sha256Hex bytes).length = DIGEST_HEX_LEN := length_hexLower _

@[simp] theorem byteLen_sha256Hex (bytes : ByteArray) : byteLen (sha256Hex bytes) = DIGEST_HEX_LEN := by
  rw [byteLen_of_ascii, length_sha256Hex]
  intro c member
  obtain ⟨n, small, rfl⟩ := exists_of_mem_hexLower member
  exact utf8Size_hexDigit small

variable {s : Text}

theorem isValidHexDigest_iff :
    isValidHexDigest s = true ↔ byteLen s = DIGEST_HEX_LEN ∧ ∀ c ∈ s, isAsciiHexdigit c = true := by
  simp [isValidHexDigest]

theorem utf8Size_of_isAsciiHexdigit (digit : isAsciiHexdigit c = true) : c.utf8Size = 1 := by
  simp only [isAsciiHexdigit, Bool.decide_or, Bool.decide_and, Bool.or_eq_true, Bool.and_eq_true, decide_eq_true_eq]
    at digit
  rcases digit with decimal | ⟨-, lower⟩ | ⟨-, upper⟩
  · exact utf8Size_of_isDigit decimal
  · exact if_pos (UInt32.le_trans lower (by decide))
  · exact if_pos (UInt32.le_trans upper (by decide))

theorem length_of_isValidHexDigest (valid : isValidHexDigest s = true) : s.length = DIGEST_HEX_LEN := by
  obtain ⟨size, digits⟩ := isValidHexDigest_iff.mp valid
  rw [← size, byteLen_of_ascii]
  exact fun c member => utf8Size_of_isAsciiHexdigit (digits c member)

theorem not_mem_of_isValidHexDigest (valid : isValidHexDigest s = true)
    (other : isAsciiHexdigit c = false) : c ∉ s := by
  intro member
  rw [(isValidHexDigest_iff.mp valid).2 c member] at other
  cases other

example : sha256Hex (bytes "abc".toList) =
    "ba7816bf8f01cfea414140de5dae2223b00361a396177a9cb410ff61f20015ad".toList := by
  decide +kernel

end Bitty.Package

namespace Bitty.Package

def copyFromSlice (start : Nat) (data block : List UInt8) : List UInt8 :=
  block.take start ++ data ++ block.drop (start + data.length)

/-- SHA-256 of a message that arrives in pieces; a block that is not full yet is kept. -/
structure Sha256Hasher where
  state : Sha256State
  block : List UInt8
  blockLen : Nat
  totalBytes : UInt64

namespace Sha256Hasher

def new : Sha256Hasher := ⟨SHA256_H0, List.replicate SHA256_BLOCK_BYTES 0, 0, 0⟩

def absorb (data : List UInt8) (s : Sha256Hasher) : Sha256Hasher :=
  let (state, rest) := s.state.update (data.length / SHA256_BLOCK_BYTES) data
  { s with state, block := copyFromSlice 0 rest s.block, blockLen := rest.length }

def update (data : List UInt8) (s : Sha256Hasher) : Sha256Hasher :=
  let total := s.totalBytes + UInt64.ofNat data.length
  if 0 < s.blockLen then
    let take := min (SHA256_BLOCK_BYTES - s.blockLen) data.length
    let block := copyFromSlice s.blockLen (data.take take) s.block
    if s.blockLen + take < SHA256_BLOCK_BYTES then ⟨s.state, block, s.blockLen + take, total⟩
    else absorb (data.drop take) ⟨s.state.compress block, block, 0, total⟩
  else absorb data { s with totalBytes := total }

def finalize (s : Sha256Hasher) : List UInt8 := Package.finalize s.state (s.block.take s.blockLen) s.totalBytes

end Sha256Hasher

/-! Blocks. -/

namespace Sha256State

theorem update_rest (blocks : Nat) (s : Sha256State) (data : List UInt8) :
    (s.update blocks data).2 = data.drop (SHA256_BLOCK_BYTES * blocks) := by
  induction blocks generalizing s data with
  | zero => rfl
  | succ blocks ih => rw [update, ih, List.drop_drop, Nat.mul_succ, Nat.add_comm]

theorem update_add (m n : Nat) (s : Sha256State) (data : List UInt8) :
    s.update (m + n) data = (s.update m data).1.update n (data.drop (SHA256_BLOCK_BYTES * m)) := by
  induction m generalizing s data with
  | zero => rw [Nat.zero_add, Nat.mul_zero, List.drop_zero, update]
  | succ m ih =>
    have next : m + 1 + n = (m + n) + 1 := by omega
    rw [next, update, ih, update, List.drop_drop, Nat.mul_succ, Nat.add_comm (SHA256_BLOCK_BYTES * m)]

theorem update_append (blocks : Nat) (s : Sha256State) {data : List UInt8} (more : List UInt8)
    (enough : SHA256_BLOCK_BYTES * blocks ≤ data.length) :
    (s.update blocks (data ++ more)).1 = (s.update blocks data).1 := by
  induction blocks generalizing s data with
  | zero => rfl
  | succ blocks ih =>
    rw [Nat.mul_succ] at enough
    rw [update, update, List.take_append_of_le_length (by omega), List.drop_append_of_le_length (by omega)]
    exact ih _ (by rw [List.length_drop]; omega)

end Sha256State

/-! What a hasher has read. -/

namespace Sha256Hasher

structure Read (message : List UInt8) (s : Sha256Hasher) : Prop where
  state : s.state = (SHA256_H0.update (message.length / SHA256_BLOCK_BYTES) message).1
  rest : s.block.take s.blockLen = message.drop (SHA256_BLOCK_BYTES * (message.length / SHA256_BLOCK_BYTES))
  blockLen : s.blockLen = message.length % SHA256_BLOCK_BYTES
  total : s.totalBytes = UInt64.ofNat message.length
  size : s.block.length = SHA256_BLOCK_BYTES

theorem read_new : Read [] new where
  state := rfl
  rest := rfl
  blockLen := rfl
  total := rfl
  size := List.length_replicate

theorem length_copyFromSlice {start : Nat} {data block : List UInt8} (fits : start + data.length ≤ block.length) :
    (copyFromSlice start data block).length = block.length := by
  simp only [copyFromSlice, List.length_append, List.length_take, List.length_drop]
  omega

theorem take_copyFromSlice {start : Nat} {data block : List UInt8} (fits : start + data.length ≤ block.length) :
    (copyFromSlice start data block).take (start + data.length) = block.take start ++ data := by
  refine List.take_left' ?_
  rw [List.length_append, List.length_take]
  omega

theorem ofNat_length_append (m n : Nat) : UInt64.ofNat m + UInt64.ofNat n = UInt64.ofNat (m + n) :=
  (UInt64.ofNat_add m n).symm

variable {message : List UInt8} {s : Sha256Hasher}

theorem Read.absorb (data : List UInt8)
    (state : s.state = (SHA256_H0.update (message.length / SHA256_BLOCK_BYTES) message).1)
    (boundary : message.length % SHA256_BLOCK_BYTES = 0)
    (total : s.totalBytes = UInt64.ofNat (message.length + data.length)) (size : s.block.length = SHA256_BLOCK_BYTES) :
    Read (message ++ data) (s.absorb data) := by
  have blocks : (message ++ data).length / SHA256_BLOCK_BYTES =
      message.length / SHA256_BLOCK_BYTES + data.length / SHA256_BLOCK_BYTES := by
    rw [List.length_append]
    unfold SHA256_BLOCK_BYTES at *
    omega
  have whole : SHA256_BLOCK_BYTES * (message.length / SHA256_BLOCK_BYTES) = message.length := by
    unfold SHA256_BLOCK_BYTES at *
    omega
  have rest := Sha256State.update_rest (data.length / SHA256_BLOCK_BYTES) s.state data
  have length : (s.state.update (data.length / SHA256_BLOCK_BYTES) data).2.length = data.length % SHA256_BLOCK_BYTES := by
    rw [rest, List.length_drop]
    unfold SHA256_BLOCK_BYTES
    omega
  have fits : 0 + (s.state.update (data.length / SHA256_BLOCK_BYTES) data).2.length ≤ s.block.length := by
    rw [length, size]
    unfold SHA256_BLOCK_BYTES
    omega
  refine ⟨?_, ?_, ?_, ?_, ?_⟩
  · rw [blocks, Sha256State.update_add, Sha256State.update_append _ _ _ (by omega), whole, List.drop_left, ← state]
    rfl
  · have taken := take_copyFromSlice fits
    rw [Nat.zero_add, List.take_zero, List.nil_append] at taken
    change (copyFromSlice 0 (s.state.update (data.length / SHA256_BLOCK_BYTES) data).2 s.block).take
      (s.state.update (data.length / SHA256_BLOCK_BYTES) data).2.length = _
    rw [taken, rest, blocks, Nat.mul_add, whole, List.drop_append, List.drop_eq_nil_of_le (Nat.le_add_right _ _),
      List.nil_append, Nat.add_sub_cancel_left]
  · change (s.state.update (data.length / SHA256_BLOCK_BYTES) data).2.length = _
    rw [length, List.length_append]
    unfold SHA256_BLOCK_BYTES at *
    omega
  · rw [List.length_append]
    exact total
  · exact (length_copyFromSlice fits).trans size

theorem Read.update (read : Read message s) (data : List UInt8) : Read (message ++ data) (s.update data) := by
  have total : s.totalBytes + UInt64.ofNat data.length = UInt64.ofNat (message.length + data.length) := by
    rw [read.total, ofNat_length_append]
  have size := read.size
  unfold Sha256Hasher.update
  dsimp only
  by_cases partly : 0 < s.blockLen
  swap
  · rw [if_neg partly]
    have boundary : message.length % SHA256_BLOCK_BYTES = 0 := by
      rw [← read.blockLen]
      omega
    exact Read.absorb data read.state boundary total size
  rw [if_pos partly]
  have small : s.blockLen < SHA256_BLOCK_BYTES := by
    rw [read.blockLen]
    exact Nat.mod_lt _ (by decide)
  have fits : s.blockLen + (data.take (min (SHA256_BLOCK_BYTES - s.blockLen) data.length)).length ≤ s.block.length := by
    rw [List.length_take, size]
    omega
  have taken := take_copyFromSlice fits
  have grown := length_copyFromSlice fits
  by_cases short : s.blockLen + min (SHA256_BLOCK_BYTES - s.blockLen) data.length < SHA256_BLOCK_BYTES
  · -- the block is not full yet
    have all : min (SHA256_BLOCK_BYTES - s.blockLen) data.length = data.length := by omega
    rw [if_pos short, all]
    rw [all, List.take_length] at taken grown
    rw [all] at short
    have blocks : (message ++ data).length / SHA256_BLOCK_BYTES = message.length / SHA256_BLOCK_BYTES := by
      rw [List.length_append]
      rw [read.blockLen] at short
      unfold SHA256_BLOCK_BYTES at *
      omega
    have enough : SHA256_BLOCK_BYTES * (message.length / SHA256_BLOCK_BYTES) ≤ message.length := Nat.mul_div_le _ _
    refine ⟨?_, ?_, ?_, ?_, ?_⟩
    · rw [blocks, Sha256State.update_append _ _ _ enough]
      exact read.state
    · change (copyFromSlice s.blockLen (data.take data.length) s.block).take (s.blockLen + data.length) = _
      rw [List.take_length, taken, read.rest, blocks, List.drop_append_of_le_length enough]
    · change s.blockLen + data.length = _
      rw [read.blockLen] at short ⊢
      rw [List.length_append]
      unfold SHA256_BLOCK_BYTES at *
      omega
    · rw [List.length_append]
      exact total
    · change (copyFromSlice s.blockLen (data.take data.length) s.block).length = _
      rw [List.take_length]
      exact grown.trans size
  · -- the block is full, and the rest starts on a boundary
    have take : min (SHA256_BLOCK_BYTES - s.blockLen) data.length = SHA256_BLOCK_BYTES - s.blockLen := by omega
    have long : SHA256_BLOCK_BYTES - s.blockLen ≤ data.length := by omega
    rw [if_neg short, take]
    rw [take] at taken grown
    have head : (data.take (SHA256_BLOCK_BYTES - s.blockLen)).length = SHA256_BLOCK_BYTES - s.blockLen := by
      rw [List.length_take]
      omega
    have first : (message ++ data.take (SHA256_BLOCK_BYTES - s.blockLen)).length =
        SHA256_BLOCK_BYTES * (message.length / SHA256_BLOCK_BYTES + 1) := by
      rw [List.length_append, head, read.blockLen]
      unfold SHA256_BLOCK_BYTES at *
      omega
    have quotient : (message ++ data.take (SHA256_BLOCK_BYTES - s.blockLen)).length / SHA256_BLOCK_BYTES =
        message.length / SHA256_BLOCK_BYTES + 1 := by
      rw [first]
      exact Nat.mul_div_cancel_left _ (by decide)
    have block : copyFromSlice s.blockLen (data.take (SHA256_BLOCK_BYTES - s.blockLen)) s.block =
        message.drop (SHA256_BLOCK_BYTES * (message.length / SHA256_BLOCK_BYTES)) ++
          data.take (SHA256_BLOCK_BYTES - s.blockLen) := by
      have full : s.blockLen + (data.take (SHA256_BLOCK_BYTES - s.blockLen)).length =
          (copyFromSlice s.blockLen (data.take (SHA256_BLOCK_BYTES - s.blockLen)) s.block).length := by
        rw [grown, size, head]
        omega
      rw [← read.rest, ← taken, full, List.take_length]
    have parts : message ++ data = message ++ data.take (SHA256_BLOCK_BYTES - s.blockLen) ++
        data.drop (SHA256_BLOCK_BYTES - s.blockLen) := by
      rw [List.append_assoc, List.take_append_drop]
    rw [parts]
    refine Read.absorb _ ?_ ?_ ?_ (grown.trans size)
    · have enough : SHA256_BLOCK_BYTES * (message.length / SHA256_BLOCK_BYTES) ≤ message.length := Nat.mul_div_le _ _
      have whole : (message.drop (SHA256_BLOCK_BYTES * (message.length / SHA256_BLOCK_BYTES)) ++
          data.take (SHA256_BLOCK_BYTES - s.blockLen)).length = SHA256_BLOCK_BYTES := by
        rw [List.length_append, List.length_drop, head, read.blockLen]
        unfold SHA256_BLOCK_BYTES
        omega
      rw [quotient, Sha256State.update_add, Sha256State.update_append _ _ _ enough,
        List.drop_append_of_le_length enough, ← read.state]
      change s.state.compress _ = s.state.compress (List.take SHA256_BLOCK_BYTES _)
      rw [block, List.take_of_length_le whole.le]
    · rw [first]
      exact Nat.mul_mod_right _ _
    · have lengths : message.length + data.length = (message ++ data.take (SHA256_BLOCK_BYTES - s.blockLen)).length +
          (data.drop (SHA256_BLOCK_BYTES - s.blockLen)).length := by
        rw [List.length_append, head, List.length_drop]
        omega
      rw [← lengths]
      exact total

theorem Read.updates (read : Read message s) (pieces : List (List UInt8)) :
    Read (message ++ pieces.flatten) (pieces.foldl (fun s piece => s.update piece) s) := by
  induction pieces generalizing message s with
  | nil =>
    rw [List.flatten_nil, List.append_nil]
    exact read
  | cons piece rest ih =>
    rw [List.flatten_cons, ← List.append_assoc, List.foldl_cons]
    exact ih (read.update piece)

end Sha256Hasher

end Bitty.Package
