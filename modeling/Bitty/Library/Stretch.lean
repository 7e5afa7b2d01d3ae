import Mathlib

/-! Stretches of a line: intervals of places that all satisfy one predicate, between two places that may end one. -/

namespace Stretch

variable (inside edge : Nat → Prop)

/-- The places from `a` to `b` are inside, and a stretch may end at `a` and at `b`. -/
structure Run (a b : Nat) : Prop where
  le : a ≤ b
  left : edge a
  right : edge b
  all : ∀ c, a ≤ c → c ≤ b → inside c

structure Longest (c a b : Nat) : Prop where
  run : Run inside edge a b
  le : a ≤ c
  ge : c ≤ b
  longest : ∀ {a' b'}, Run inside edge a' b' → a' ≤ c → c ≤ b' → a ≤ a' ∧ b' ≤ b

variable {inside edge} {a b a' b' c d : Nat}

theorem Run.union (first : Run inside edge a b) (second : Run inside edge a' b') (one : a ≤ c ∧ c ≤ b)
    (other : a' ≤ c ∧ c ≤ b') : Run inside edge (min a a') (max b b') where
  le := by omega
  left := by
    rcases min_choice a a' with eq | eq
    · rw [eq]
      exact first.left
    · rw [eq]
      exact second.left
  right := by
    rcases max_choice b b' with eq | eq
    · rw [eq]
      exact first.right
    · rw [eq]
      exact second.right
  all := by
    intro d above below
    by_cases inFirst : a ≤ d ∧ d ≤ b
    · exact first.all d inFirst.1 inFirst.2
    · exact second.all d (by omega) (by omega)

theorem Longest.of_mem (whole : Longest inside edge c a b) (above : a ≤ d) (below : d ≤ b) :
    Longest inside edge d a b where
  run := whole.run
  le := above
  ge := below
  longest := by
    intro a' b' run left right
    have joined := whole.run.union run ⟨above, below⟩ ⟨left, right⟩
    have le := whole.le
    have ge := whole.ge
    have bounds := whole.longest joined (by omega) (by omega)
    omega

theorem Longest.unique (first : Longest inside edge c a b) (second : Longest inside edge c a' b') : a = a' ∧ b = b' := by
  have one := first.longest second.run second.le second.ge
  have other := second.longest first.run first.le first.ge
  omega

theorem Longest.of_blocked (run : Run inside edge a b) (le : a ≤ c) (ge : c ≤ b)
    (left : ∀ d < a, edge d → ∃ e, d ≤ e ∧ e < a ∧ ¬inside e)
    (right : ∀ d, b < d → edge d → ∃ e, b < e ∧ e ≤ d ∧ ¬inside e) : Longest inside edge c a b where
  run := run
  le := le
  ge := ge
  longest := by
    intro a' b' other below above
    constructor
    · by_contra further
      obtain ⟨e, after, before, outside⟩ := left a' (by omega) other.left
      exact outside (other.all e after (by omega))
    · by_contra further
      obtain ⟨e, after, before, outside⟩ := right b' (by omega) other.right
      exact outside (other.all e (by omega) before)

end Stretch
