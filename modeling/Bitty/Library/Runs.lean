import Mathlib

/-! Runs of indices, of which each joins the run before it or starts its own. -/

namespace Runs

variable (joins : Nat → Nat → Prop) [DecidableRel joins]

def start : Nat → Nat
  | 0 => 0
  | k + 1 => if joins (start k) (k + 1) then start k else k + 1

/-- Every index after `a` up to `k` joins the run that starts at `a`. -/
def Spans (a k : Nat) : Prop := ∀ m ≤ k, a < m → joins a m

instance (a k : Nat) : Decidable (Spans joins a k) := inferInstanceAs (Decidable (∀ m ≤ k, a < m → joins a m))

/-- How far to the left of `c` an index `k` still lies in the runs that start there. -/
def back (k : Nat) : Nat → Nat
  | 0 => 0
  | c + 1 => if Spans joins c k then back k c else c + 1

def Linked (a k : Nat) : Prop := ∀ m < k, a ≤ m → joins m (m + 1)

instance (a k : Nat) : Decidable (Linked joins a k) := inferInstanceAs (Decidable (∀ m < k, a ≤ m → joins m (m + 1)))

/-- What joins an index joins every other start of its run as well: neighbours that are linked join each other at any
distance, and what is not linked to the end of a stretch does not join its first index. -/
structure Coherent (n : Nat) : Prop where
  joined : ∀ k < n, ∀ j < k, Linked joins j k → joins j k
  apart : ∀ k < n, ∀ j < k, (j = 0 ∨ ¬joins (j - 1) j) → Linked joins j (k - 1) → ¬joins (k - 1) k → ¬joins j k

variable {joins} {a j k n : Nat}

theorem start_le : ∀ k, start joins k ≤ k
  | 0 => Nat.le_refl 0
  | k + 1 => by
    have ih := start_le k
    unfold start
    split <;> omega

theorem spans_start : ∀ k, Spans joins (start joins k) k
  | 0 => fun m bound after => by omega
  | k + 1 => by
    unfold start
    split
    next joined =>
      intro m bound after
      by_cases last : m = k + 1
      · exact last ▸ joined
      · exact spans_start k m (by omega) after
    next => exact fun m bound after => by omega

theorem start_succ_of_joins (joined : joins (start joins k) (k + 1)) : start joins (k + 1) = start joins k := by
  rw [start, if_pos joined]

theorem start_succ_of_not_joins (apart : ¬joins (start joins k) (k + 1)) : start joins (k + 1) = k + 1 := by
  rw [start, if_neg apart]

theorem start_eq_of_mem (m : Nat) (low : start joins k ≤ m) (high : m ≤ k) : start joins m = start joins k := by
  induction k with
  | zero =>
    obtain rfl : m = 0 := by omega
    rfl
  | succ k ih =>
    by_cases last : m = k + 1
    · rw [last]
    · by_cases joined : joins (start joins k) (k + 1)
      · rw [start_succ_of_joins joined] at low ⊢
        exact ih low (by omega)
      · rw [start_succ_of_not_joins joined] at low
        omega

@[simp] theorem start_start (k : Nat) : start joins (start joins k) = start joins k :=
  start_eq_of_mem _ (Nat.le_refl _) (start_le k)

theorem back_eq_iff {c s : Nat} : back joins k c = s ↔
    s ≤ c ∧ (∀ j < c, s ≤ j → Spans joins j k) ∧ (s = 0 ∨ ¬Spans joins (s - 1) k) := by
  induction c with
  | zero =>
    constructor
    · rintro rfl
      exact ⟨Nat.le_refl 0, fun j before => absurd before (Nat.not_lt_zero j), .inl rfl⟩
    · rintro ⟨zero, _⟩
      exact (Nat.le_zero.mp zero).symm
  | succ c ih =>
    unfold back
    split
    next spans =>
      rw [ih]
      constructor
      · rintro ⟨le, inside, edge⟩
        refine ⟨by omega, fun j before after => ?_, edge⟩
        by_cases last : j = c
        · exact last ▸ spans
        · exact inside j (by omega) after
      · rintro ⟨le, inside, edge⟩
        refine ⟨Nat.le_of_lt_succ (Nat.lt_of_le_of_ne le ?_), fun j before after => inside j (by omega) after, edge⟩
        rintro rfl
        rcases edge with zero | apart
        · omega
        · exact apart spans
    next apart =>
      constructor
      · rintro rfl
        exact ⟨Nat.le_refl _, fun j before after => by omega, .inr apart⟩
      · rintro ⟨le, inside, _⟩
        by_contra other
        exact apart (inside c (Nat.lt_succ_self c) (by omega))

omit [DecidableRel joins] in
theorem Spans.joins_succ (spans : Spans joins j k) (less : j < k) : joins j (j + 1) := spans (j + 1) less (Nat.lt_succ_self j)

theorem Coherent.linked_start (coherent : Coherent joins n) (bound : k < n) :
    Linked joins (start joins k) k ∧ (start joins k = 0 ∨ ¬joins (start joins k - 1) (start joins k)) := by
  induction k with
  | zero => exact ⟨fun m before => absurd before (Nat.not_lt_zero m), .inl rfl⟩
  | succ k ih =>
    obtain ⟨linked, first⟩ := ih (by omega)
    have le : start joins k ≤ k := start_le k
    by_cases next : joins k (k + 1)
    · have longer : Linked joins (start joins k) (k + 1) := by
        intro m before after
        by_cases last : m = k
        · exact last ▸ next
        · exact linked m (by omega) after
      rw [start_succ_of_joins (coherent.joined (k + 1) bound _ (by omega) longer)]
      exact ⟨longer, first⟩
    · have apart : ¬joins (start joins k) (k + 1) := coherent.apart (k + 1) bound _ (by omega) first linked next
      rw [start_succ_of_not_joins apart]
      exact ⟨fun m before after => by omega, .inr next⟩

/-- The searches from the left and from the right find the same starts exactly in coherent indices. -/
theorem back_eq_start_iff : (∀ k < n, back joins k k = start joins k) ↔ Coherent joins n := by
  constructor
  · intro agree
    have inside {j k : Nat} (bound : k < n) (low : start joins k ≤ j) (less : j < k) : Spans joins j k :=
      (back_eq_iff.mp (agree k bound)).2.1 j less low
    have apart {k : Nat} (bound : k < n) (first : start joins k = k) : k = 0 ∨ ¬joins (k - 1) k := by
      rcases (back_eq_iff.mp (agree k bound)).2.2 with zero | torn
      · exact .inl (first ▸ zero)
      · rw [first] at torn
        refine .inr fun joined => torn fun m le less => ?_
        obtain rfl : m = k := by omega
        exact joined
    have linked {k : Nat} (bound : k < n) (j : Nat) (le : j ≤ k) (chain : Linked joins j k) : start joins k ≤ j := by
      by_contra before
      have head : start joins (start joins k) = start joins k := start_start k
      rcases apart (k := start joins k) (by have le : start joins k ≤ k := start_le k; omega) head with zero | torn
      · omega
      · have le' : start joins k ≤ k := start_le k
        refine torn ?_
        have last := chain (start joins k - 1) (by omega) (by omega)
        rwa [Nat.sub_add_cancel (by omega)] at last
    refine ⟨fun k bound j less chain => ?_, fun k bound j less first chain edge => ?_⟩
    · exact inside bound (linked bound j (by omega) chain) less k (Nat.le_refl k) less
    · obtain ⟨m, rfl⟩ : ∃ m, k = m + 1 := ⟨k - 1, by omega⟩
      rw [Nat.add_sub_cancel] at chain edge
      have low := linked (k := m) (by omega) j (by omega) chain
      have same : start joins m = j := by
        by_contra other
        rcases first with zero | torn
        · omega
        · have joined := (inside (k := m) (by omega) (j := j - 1) (by omega) (by omega)).joins_succ (by omega)
          rw [Nat.sub_add_cancel (by omega)] at joined
          exact torn joined
      intro joined
      rw [← same] at joined
      have longer := start_succ_of_joins joined
      have fits := (inside bound (j := m) (by rw [longer]; exact start_le m) (Nat.lt_succ_self m)).joins_succ (Nat.lt_succ_self m)
      exact edge fits
  · intro coherent k bound
    obtain ⟨linked, first⟩ := coherent.linked_start bound
    refine back_eq_iff.mpr ⟨start_le k, fun j less low m le after => ?_, ?_⟩
    · exact coherent.joined m (by omega) j after fun i before at_ => linked i (by omega) (by omega)
    · rcases first with zero | torn
      · exact .inl zero
      · by_cases zero : start joins k = 0
        · exact .inl zero
        · exact .inr fun spans => torn (spans _ (start_le k) (by omega))

end Runs
