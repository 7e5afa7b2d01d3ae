import Mathlib

/-! The last elements of a list that grows at its end, as a bounded history, and when such a history
is enough to refuse what was there before. -/

namespace Recent

variable {α : Type}

/-- The last `n` elements. -/
def last (n : Nat) (xs : List α) : List α := xs.drop (xs.length - n)

/-- One element more, and the oldest one dropped when there are more than `n`. -/
def push (n : Nat) (history : List α) (x : α) : List α :=
  if n < (history ++ [x]).length then (history ++ [x]).tail else history ++ [x]

theorem length_last (n : Nat) (xs : List α) : (last n xs).length = min n xs.length := by
  rw [last, List.length_drop]
  omega

theorem push_last (n : Nat) (xs : List α) (x : α) : push n (last n xs) x = last n (xs ++ [x]) := by
  have length := length_last n xs
  unfold push
  rw [List.length_append, List.length_singleton]
  by_cases full : n ≤ xs.length
  · have exceeds : n < (last n xs).length + 1 := by omega
    rw [if_pos exceeds]
    unfold last
    rw [List.length_append, List.length_singleton, ← List.drop_append_of_le_length (by omega), List.tail_drop]
    congr 1
    omega
  · have fits : ¬n < (last n xs).length + 1 := by omega
    rw [if_neg fits]
    unfold last
    rw [List.length_append, List.length_singleton, Nat.sub_eq_zero_of_le (by omega), Nat.sub_eq_zero_of_le (by omega),
      List.drop_zero, List.drop_zero]

variable {ρ κ : Type} [LinearOrder ρ] [Fintype κ]

theorem not_mem_of_last {n : Nat} {xs : List (ρ × κ)} (sorted : xs.Pairwise fun a b => a.1 ≤ b.1) (once : xs.Nodup)
    (enough : Fintype.card κ ≤ n) {r : ρ} {k : κ} (latest : ∀ x ∈ xs, x.1 ≤ r) (unseen : (r, k) ∉ last n xs) :
    (r, k) ∉ xs := by
  intro seen
  obtain ⟨before, after, rfl⟩ := List.append_of_mem seen
  -- from the pair on, all are of revision `r`, so their kinds differ
  obtain ⟨-, tailSorted, -⟩ := List.pairwise_append.mp sorted
  have atLeast : ∀ x ∈ (r, k) :: after, r ≤ x.1 := by
    intro x member
    rcases List.mem_cons.mp member with rfl | later
    · exact le_refl _
    · exact (List.pairwise_cons.mp tailSorted).1 x later
  have revision : ∀ x ∈ (r, k) :: after, x.1 = r := fun x member =>
    le_antisymm (latest x (List.mem_append_right _ member)) (atLeast x member)
  have distinct := (List.nodup_append.mp once).2.1
  have kinds : (((r, k) :: after).map (·.2)).Nodup := by
    refine List.Nodup.map_on ?_ distinct
    intro x first y second same
    exact Prod.ext ((revision x first).trans (revision y second).symm) same
  have few : ((r, k) :: after).length ≤ n := by
    rw [← List.length_map (f := (·.2))]
    exact kinds.length_le_card.trans enough
  refine unseen ?_
  rw [last, List.drop_append_of_le_length (by rw [List.length_append]; omega)]
  exact List.mem_append_right _ List.mem_cons_self

end Recent

/-! A bounded history of snapshots, from which the newest can be taken back. -/

namespace Undo

structure History (α : Type) (cap : Nat) where
  snapshots : List α
  bounded : snapshots.length ≤ cap
  room : 0 < cap

namespace History

variable {α : Type} {cap : Nat} (h : History α cap)

def empty (room : 0 < cap) : History α cap := ⟨[], Nat.zero_le _, room⟩

def push (a : α) : History α cap where
  snapshots := (if cap ≤ h.snapshots.length then h.snapshots.drop 1 else h.snapshots) ++ [a]
  bounded := by
    have fits := h.bounded
    have room := h.room
    rw [List.length_append, List.length_singleton]
    split_ifs
    · rw [List.length_drop]
      omega
    · omega
  room := h.room

theorem length_dropLast_le : h.snapshots.dropLast.length ≤ cap := by
  rw [List.length_dropLast]
  have fits := h.bounded
  omega

def undo (current : α) : α × History α cap × Bool :=
  match h.snapshots.getLast? with
  | none => (current, h, false)
  | some a =>
    (a, { snapshots := h.snapshots.dropLast, bounded := h.length_dropLast_le, room := h.room }, true)

@[simp] theorem getLast?_push (a : α) : (h.push a).snapshots.getLast? = some a := List.getLast?_concat

theorem undo_push (a current : α) : ((h.push a).undo current).1 = a ∧ ((h.push a).undo current).2.2 = true := by
  unfold undo
  split
  next none =>
    rw [getLast?_push] at none
    cases none
  next found =>
    rw [getLast?_push] at found
    exact ⟨(Option.some.inj found).symm, rfl⟩

end History

end Undo
