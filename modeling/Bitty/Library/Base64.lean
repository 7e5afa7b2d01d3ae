import Mathlib

/-! Base-64 texts over an alphabet: which texts are well formed, and the octets that they encode. -/

namespace Bitty

/-- Symbols that stand for six bits each, and a padding symbol that stands for none. -/
structure Base64 (α : Type*) where
  value : α → Option Nat
  pad : α
  value_lt : ∀ {symbol n}, value symbol = some n → n < 64
  value_pad : value pad = none

namespace Base64

/-- The octets that a run of sextets fills; the bits that are left are dropped. -/
def octets : List Nat → List UInt8
  | a :: b :: c :: d :: rest =>
    UInt8.ofNat (a * 4 + b / 16) :: UInt8.ofNat (b % 16 * 16 + c / 4) :: UInt8.ofNat (c % 4 * 64 + d) :: octets rest
  | [a, b, c] => [UInt8.ofNat (a * 4 + b / 16), UInt8.ofNat (b % 16 * 16 + c / 4)]
  | [a, b] => [UInt8.ofNat (a * 4 + b / 16)]
  | [_] => []
  | [] => []

theorem length_octets (sextets : List Nat) : (octets sextets).length = sextets.length * 3 / 4 := by
  induction sextets using octets.induct with
  | case1 a b c d rest ih =>
    simp only [octets, List.length_cons, ih]
    omega
  | _ => simp [octets]

variable {α : Type*} (A : Base64 α)

def run (symbols : List α) : Option (List UInt8) := (symbols.mapM A.value).map octets

def Closes (symbols padding : Nat) : Prop :=
  padding = 0 ∧ symbols % 4 ≠ 1 ∨ padding = 1 ∧ symbols % 4 = 3 ∨ padding = 2 ∧ symbols % 4 = 2

instance (symbols padding : Nat) : Decidable (Closes symbols padding) := inferInstanceAs (Decidable (_ ∨ _))

/-- A text that encodes octets: symbols, then nothing or the padding of their last quantum. -/
def Encodes (text : List α) (bytes : List UInt8) : Prop :=
  ∃ body padding, text = body ++ List.replicate padding A.pad ∧ Closes body.length padding ∧ A.run body = some bytes

def decode [DecidableEq α] : List α → Option (List UInt8)
  | a :: b :: c :: d :: rest =>
    if d = A.pad ∧ rest = [] then (if c = A.pad then A.run [a, b] else A.run [a, b, c])
    else do
      let quantum ← A.run [a, b, c, d]
      let tail ← decode rest
      return quantum ++ tail
  | [_] => none
  | short => A.run short

variable {A} {text rest body : List α} {bytes : List UInt8}

theorem mapM_value_eq_some {sextets : List Nat} :
    body.mapM A.value = some sextets ↔ body.map A.value = sextets.map some := by
  induction body generalizing sextets with
  | nil => cases sextets <;> simp
  | cons a body ih => cases sextets <;> simp [Option.bind_eq_some_iff, ih]

theorem run_eq_some : A.run body = some bytes ↔ ∃ sextets, body.map A.value = sextets.map some ∧ octets sextets = bytes := by
  simp only [run, Option.map_eq_some_iff, mapM_value_eq_some]

theorem length_of_run (runs : A.run body = some bytes) : bytes.length = body.length * 3 / 4 := by
  obtain ⟨sextets, values, rfl⟩ := run_eq_some.mp runs
  have same : body.length = sextets.length := by simpa using congrArg List.length values
  rw [length_octets, same]

theorem run_cons (a b c d : α) (rest : List α) : A.run (a :: b :: c :: d :: rest) = (do
    let quantum ← A.run [a, b, c, d]
    let tail ← A.run rest
    return quantum ++ tail) := by
  simp only [run, List.mapM_cons, List.mapM_nil]
  cases A.value a <;> cases A.value b <;> cases A.value c <;> cases A.value d <;> cases rest.mapM A.value <;>
    simp [octets]

theorem run_eq_none {symbol : α} (foreign : A.value symbol = none) (member : symbol ∈ body) : A.run body = none := by
  refine Option.eq_none_iff_forall_ne_some.mpr fun bytes runs => ?_
  obtain ⟨sextets, values, -⟩ := run_eq_some.mp runs
  have here : A.value symbol ∈ sextets.map some := values ▸ List.mem_map_of_mem member
  simp [foreign] at here

theorem pad_notMem_of_run (runs : A.run body = some bytes) : A.pad ∉ body :=
  fun member => nomatch (run_eq_none A.value_pad member).symm.trans runs

theorem encodes_solid (solid : A.pad ∉ body) :
    A.Encodes body bytes ↔ body.length % 4 ≠ 1 ∧ A.run body = some bytes := by
  constructor
  · rintro ⟨other, padding, rfl, closes, runs⟩
    obtain rfl : padding = 0 := by
      by_contra padded
      exact solid (List.mem_append_right _ (List.mem_replicate.mpr ⟨padded, rfl⟩))
    rw [List.replicate_zero, List.append_nil]
    exact ⟨by unfold Closes at closes; omega, runs⟩
  · rintro ⟨whole, runs⟩
    exact ⟨body, 0, by simp, .inl ⟨rfl, whole⟩, runs⟩

theorem encodes_padded (solid : A.pad ∉ body) : A.Encodes (body ++ A.pad :: rest) bytes ↔
    ∃ padding, A.pad :: rest = List.replicate padding A.pad ∧ Closes body.length padding ∧ A.run body = some bytes := by
  classical
  constructor
  · rintro ⟨other, padding, same, closes, runs⟩
    have front {symbols : List α} (solid : A.pad ∉ symbols) (tail : List α) :
        (symbols ++ tail).takeWhile (· ≠ A.pad) = symbols ++ tail.takeWhile (· ≠ A.pad) :=
      List.takeWhile_append_of_pos fun symbol member => decide_eq_true fun here => solid (here ▸ member)
    have split := congrArg (List.takeWhile (· ≠ A.pad)) same
    rw [front solid, front (pad_notMem_of_run runs)] at split
    have ends : (List.replicate padding A.pad).takeWhile (· ≠ A.pad) = [] := by cases padding <;> simp [List.replicate_succ]
    have here : body = other := by simpa [ends] using split
    subst here
    exact ⟨padding, List.append_cancel_left same, closes, runs⟩
  · rintro ⟨padding, same, closes, runs⟩
    exact ⟨body, padding, by rw [same], closes, runs⟩

theorem encodes_replicate (solid : A.pad ∉ body) (padding : Nat) :
    A.Encodes (body ++ List.replicate padding A.pad) bytes ↔ Closes body.length padding ∧ A.run body = some bytes := by
  cases padding with
  | zero => simpa [Closes] using encodes_solid solid
  | succ padding =>
    rw [List.replicate_succ, encodes_padded solid, ← List.replicate_succ]
    constructor
    · rintro ⟨other, same, closes, runs⟩
      obtain rfl : padding + 1 = other := by simpa using congrArg List.length same
      exact ⟨closes, runs⟩
    · rintro ⟨closes, runs⟩
      exact ⟨_, rfl, closes, runs⟩

theorem not_encodes {symbol : α} (foreign : A.value symbol = none) (other : symbol ≠ A.pad) (member : symbol ∈ text) :
    ¬A.Encodes text bytes := by
  rintro ⟨body, padding, rfl, -, runs⟩
  rcases List.mem_append.mp member with inside | padded
  · exact nomatch (run_eq_none foreign inside).symm.trans runs
  · exact other (List.eq_of_mem_replicate padded)

theorem Encodes.length_le (encodes : A.Encodes text bytes) :
    text.length ≤ bytes.length / 3 * 4 + (if bytes.length % 3 = 0 then 0 else 4) := by
  obtain ⟨body, padding, rfl, closes, runs⟩ := encodes
  rw [length_of_run runs, List.length_append, List.length_replicate]
  unfold Closes at closes
  split_ifs <;> omega

section

variable [DecidableEq α]

theorem decode_padded {body : List α} {bytes : List UInt8} {padding : Nat} (closes : Closes body.length padding) (runs : A.run body = some bytes) :
    A.decode (body ++ List.replicate padding A.pad) = some bytes := by
  have solid := pad_notMem_of_run runs
  match body with
  | [] => obtain rfl : padding = 0 := by unfold Closes at closes; simp at closes; omega
          exact runs
  | [_] => unfold Closes at closes; simp at closes
  | [a, b] =>
    rcases closes with ⟨rfl, -⟩ | ⟨-, odd⟩ | ⟨rfl, -⟩
    · exact runs
    · simp at odd
    · simpa [decode] using runs
  | [a, b, c] =>
    have here : c ≠ A.pad := fun same => solid (by simp [same])
    rcases closes with ⟨rfl, -⟩ | ⟨rfl, -⟩ | ⟨-, odd⟩
    · exact runs
    · simpa [decode, here] using runs
    · simp at odd
  | a :: b :: c :: d :: rest =>
    have here : d ≠ A.pad := fun same => solid (by simp [same])
    rw [run_cons] at runs
    obtain ⟨quantum, first, others⟩ := Option.bind_eq_some_iff.mp runs
    obtain ⟨tail, runs, whole⟩ := Option.bind_eq_some_iff.mp others
    have closes : Closes rest.length padding := by
      unfold Closes at closes ⊢
      simp only [List.length_cons] at closes
      omega
    simpa [decode, here, first, decode_padded closes runs] using whole

theorem encodes_of_decode {text : List α} {bytes : List UInt8} (read : A.decode text = some bytes) : A.Encodes text bytes := by
  match text with
  | [] => exact ⟨[], 0, rfl, .inl ⟨rfl, by simp⟩, read⟩
  | [_] => exact absurd read nofun
  | [a, b] => exact ⟨[a, b], 0, rfl, .inl ⟨rfl, by simp⟩, read⟩
  | [a, b, c] => exact ⟨[a, b, c], 0, rfl, .inl ⟨rfl, by simp⟩, read⟩
  | a :: b :: c :: d :: rest =>
    rw [decode] at read
    split_ifs at read with last padded
    · obtain ⟨rfl, rfl⟩ := last
      exact ⟨[a, b], 2, by simp [padded], .inr (.inr ⟨rfl, rfl⟩), read⟩
    · obtain ⟨rfl, rfl⟩ := last
      exact ⟨[a, b, c], 1, rfl, .inr (.inl ⟨rfl, rfl⟩), read⟩
    · obtain ⟨quantum, first, others⟩ := Option.bind_eq_some_iff.mp read
      obtain ⟨tail, read, whole⟩ := Option.bind_eq_some_iff.mp others
      obtain ⟨body, padding, rfl, closes, runs⟩ := encodes_of_decode read
      refine ⟨a :: b :: c :: d :: body, padding, rfl, ?_, ?_⟩
      · unfold Closes at closes ⊢
        simp only [List.length_cons]
        omega
      · rw [run_cons, first, runs]
        exact whole

theorem decode_eq_some_iff : A.decode text = some bytes ↔ A.Encodes text bytes :=
  ⟨encodes_of_decode, fun ⟨_, _, same, closes, runs⟩ => same ▸ decode_padded closes runs⟩

end

theorem encodes_quantum {quad : List α} {head : List UInt8} (runs : A.run quad = some head) (full : quad.length = 4) :
    A.Encodes (quad ++ rest) bytes ↔ ∃ tail, A.Encodes rest tail ∧ bytes = head ++ tail := by
  classical
  match quad with
  | [a, b, c, d] =>
    have here : d ≠ A.pad := fun same => pad_notMem_of_run runs (by simp [same])
    simp only [← decode_eq_some_iff, List.cons_append, List.nil_append, decode, here, false_and, if_false, runs]
    simp only [Option.bind_eq_bind, Option.bind_some, Option.bind_eq_some_iff, Option.pure_def, Option.some.injEq,
      eq_comm (a := bytes)]

end Base64

end Bitty
