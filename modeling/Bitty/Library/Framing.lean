import Mathlib

/-! Fields that are written after their lengths. -/

namespace Framing

def leBytes : Nat → Nat → List UInt8
  | 0, _ => []
  | k + 1, n => UInt8.ofNat n :: leBytes k (n / 256)

@[simp] theorem length_leBytes (k n : Nat) : (leBytes k n).length = k := by
  induction k generalizing n with
  | zero => rfl
  | succ k ih => rw [leBytes, List.length_cons, ih]

variable {k n : Nat}

theorem mod_of_leBytes {m : Nat} (same : leBytes k m = leBytes k n) : m % 256 ^ k = n % 256 ^ k := by
  induction k generalizing m n with
  | zero => rw [pow_zero, Nat.mod_one, Nat.mod_one]
  | succ k ih =>
    obtain ⟨first, others⟩ := List.cons.inj same
    have lowest : m % 256 = n % 256 := by
      have read := congrArg UInt8.toNat first
      rwa [UInt8.toNat_ofNat', UInt8.toNat_ofNat'] at read
    have higher := ih others
    rw [pow_succ', Nat.mod_mul, Nat.mod_mul, lowest, higher]

theorem leBytes_inj {m : Nat} (smallM : m < 256 ^ k) (smallN : n < 256 ^ k) : leBytes k m = leBytes k n ↔ m = n := by
  constructor
  · intro same
    have rest := mod_of_leBytes same
    rwa [Nat.mod_eq_of_lt smallM, Nat.mod_eq_of_lt smallN] at rest
  · exact congrArg _

def frame (k : Nat) (field : List UInt8) : List UInt8 := leBytes k field.length ++ field

variable {a b x y : List UInt8}

theorem frame_append_inj (smallA : a.length < 256 ^ k) (smallB : b.length < 256 ^ k) :
    frame k a ++ x = frame k b ++ y ↔ a = b ∧ x = y := by
  constructor
  · intro same
    rw [frame, frame, List.append_assoc, List.append_assoc] at same
    obtain ⟨lengths, rest⟩ := List.append_inj same (by rw [length_leBytes, length_leBytes])
    exact List.append_inj rest ((leBytes_inj smallA smallB).mp lengths)
  · rintro ⟨rfl, rfl⟩
    rfl

def beValue (bytes : List UInt8) : Nat := bytes.foldl (fun n b => 256 * n + b.toNat) 0

def beBytes (k n : Nat) : List UInt8 := (leBytes k n).reverse

@[simp] theorem length_beBytes (k n : Nat) : (beBytes k n).length = k := by
  rw [beBytes, List.length_reverse, length_leBytes]

theorem beValue_beBytes (small : n < 256 ^ k) : beValue (beBytes k n) = n := by
  induction k generalizing n with
  | zero =>
    rw [pow_zero, Nat.lt_one_iff] at small
    rw [small]
    rfl
  | succ k ih =>
    have quotient : n / 256 < 256 ^ k := by rwa [Nat.div_lt_iff_lt_mul (by decide), ← pow_succ]
    have higher := ih quotient
    rw [beValue, beBytes] at higher ⊢
    rw [leBytes, List.reverse_cons, List.foldl_append, higher, List.foldl_cons, List.foldl_nil, UInt8.toNat_ofNat']
    exact Nat.div_add_mod n 256

theorem beBytes_beValue (bytes : List UInt8) : beBytes bytes.length (beValue bytes) = bytes := by
  induction bytes using List.reverseRecOn with
  | nil => rfl
  | append_singleton bytes b ih =>
    have value : beValue (bytes ++ [b]) = 256 * beValue bytes + b.toNat := by
      rw [beValue, List.foldl_append]
      rfl
    have small := b.toNat_lt
    have quotient : (256 * beValue bytes + b.toNat) / 256 = beValue bytes := by omega
    have lowest : UInt8.ofNat (256 * beValue bytes + b.toNat) = b := by
      refine UInt8.toNat_inj.mp ?_
      rw [UInt8.toNat_ofNat']
      omega
    rw [beBytes] at ih ⊢
    rw [value, List.length_append, List.length_singleton, leBytes, List.reverse_cons, quotient, lowest, ih]

theorem beValue_lt (bytes : List UInt8) : beValue bytes < 256 ^ bytes.length := by
  induction bytes using List.reverseRecOn with
  | nil => exact Nat.one_pos
  | append_singleton bytes b ih =>
    have small := b.toNat_lt
    have value : beValue (bytes ++ [b]) = 256 * beValue bytes + b.toNat := by
      rw [beValue, List.foldl_append]
      rfl
    rw [value, List.length_append, List.length_singleton, pow_succ]
    omega

def frameBe (k : Nat) (field : List UInt8) : List UInt8 := beBytes k field.length ++ field

theorem frameBe_append_inj (smallA : a.length < 256 ^ k) (smallB : b.length < 256 ^ k)
    (same : frameBe k a ++ x = frameBe k b ++ y) : a = b ∧ x = y := by
  rw [frameBe, frameBe, List.append_assoc, List.append_assoc] at same
  obtain ⟨headers, rest⟩ := List.append_inj same (by rw [length_beBytes, length_beBytes])
  have lengths := congrArg beValue headers
  rw [beValue_beBytes smallA, beValue_beBytes smallB] at lengths
  exact List.append_inj rest lengths

theorem marked_append_inj {mark : UInt8} (apart : mark ∉ a) (apart' : mark ∉ b)
    (same : a ++ mark :: x = b ++ mark :: y) : a = b ∧ x = y := by
  induction a generalizing b with
  | nil =>
    cases b with
    | nil => exact ⟨rfl, (List.cons.inj same).2⟩
    | cons c rest => exact absurd ((List.cons.inj same).1 ▸ List.mem_cons_self) apart'
  | cons c others ih =>
    cases b with
    | nil => exact absurd ((List.cons.inj same).1 ▸ List.mem_cons_self) apart
    | cons d rest =>
      obtain ⟨rfl, later⟩ := List.cons.inj same
      obtain ⟨rfl, tails⟩ := ih (List.not_mem_of_not_mem_cons apart) (List.not_mem_of_not_mem_cons apart') later
      exact ⟨rfl, tails⟩

variable {α : Type}

/-- What is written can be told apart from what follows it. -/
structure Delimited (write : α → List UInt8) : Prop where
  nonempty : ∀ a, write a ≠ []
  stops : ∀ a b x y, write a ++ x = write b ++ y → a = b ∧ x = y

theorem Delimited.flatMap_injective {write : α → List UInt8} (delimited : Delimited write) :
    Function.Injective (List.flatMap write) := by
  intro as bs same
  induction as generalizing bs with
  | nil =>
    cases bs with
    | nil => rfl
    | cons b rest =>
      rw [List.flatMap_nil, List.flatMap_cons] at same
      exact absurd (List.append_eq_nil_iff.mp same.symm).1 (delimited.nonempty b)
  | cons a others ih =>
    cases bs with
    | nil =>
      rw [List.flatMap_nil, List.flatMap_cons] at same
      exact absurd (List.append_eq_nil_iff.mp same).1 (delimited.nonempty a)
    | cons b rest =>
      rw [List.flatMap_cons, List.flatMap_cons] at same
      obtain ⟨rfl, later⟩ := delimited.stops _ _ _ _ same
      rw [ih later]

end Framing
