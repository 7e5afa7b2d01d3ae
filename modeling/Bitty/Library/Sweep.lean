import Mathlib

/-! Loops that write the indices of a list, each with one value or with what stands at another index. -/

namespace Sweep

variable {α : Type*} (blank fill : α) (source : Nat → Option Nat)

/-- What the loop writes at an index: the entry at its source, or `fill` without one. -/
def written (xs : List α) (i : Nat) : α := (source i).elim fill (xs.getD · blank)

def sweep (targets : List Nat) (xs : List α) : List α :=
  targets.foldl (fun xs i => xs.set i (written blank fill source xs i)) xs

def Unread (targets : List Nat) : Prop := targets.Pairwise fun i k => i ≠ k ∧ source k ≠ some i

variable {blank fill source} {targets : List Nat} {xs ys : List α}

@[simp] theorem length_sweep : (sweep blank fill source targets xs).length = xs.length := by
  induction targets generalizing xs with
  | nil => rfl
  | cons i rest ih => exact ih.trans List.length_set

theorem getD_set (xs : List α) (i k : Nat) (x : α) :
    (xs.set i x).getD k blank = if i = k ∧ i < xs.length then x else xs.getD k blank := by
  simp only [List.getD_eq_getElem?_getD, List.getElem?_set]
  by_cases here : i = k
  · by_cases inside : i < xs.length
    · simp [here, here ▸ inside]
    · have beyond : xs.length ≤ k := by omega
      simp [here, Nat.not_lt.mpr beyond]
  · simp [here]

theorem written_set {i k : Nat} {x : α} (unread : source k ≠ some i) :
    written blank fill source (xs.set i x) k = written blank fill source xs k := by
  unfold written
  cases from_ : source k with
  | none => rfl
  | some j =>
    have other : ¬(i = j ∧ i < xs.length) := by
      rintro ⟨rfl, _⟩
      exact unread from_
    simp only [Option.elim_some, getD_set, if_neg other]

theorem getD_sweep (order : Unread source targets) (k : Nat) :
    (sweep blank fill source targets xs).getD k blank =
      if k ∈ targets ∧ k < xs.length then written blank fill source xs k else xs.getD k blank := by
  induction targets generalizing xs with
  | nil => simp [sweep]
  | cons i rest ih =>
    obtain ⟨first, later⟩ := List.pairwise_cons.mp order
    have step : (sweep blank fill source (i :: rest) xs) =
        sweep blank fill source rest (xs.set i (written blank fill source xs i)) := rfl
    rw [step, ih later, List.length_set, getD_set]
    by_cases inRest : k ∈ rest
    · have unread := first k inRest
      simp only [inRest, true_and, List.mem_cons, or_true, written_set unread.2, if_neg (fun same => unread.1 same.1 :
        ¬(i = k ∧ i < xs.length))]
    · have member : (k ∈ i :: rest ∧ k < xs.length) ↔ i = k ∧ i < xs.length := by
        simp only [List.mem_cons, inRest, or_false]
        constructor
        · rintro ⟨rfl, inside⟩
          exact ⟨rfl, inside⟩
        · rintro ⟨rfl, inside⟩
          exact ⟨rfl, inside⟩
      by_cases here : i = k ∧ i < xs.length
      · rw [if_neg (fun both => inRest both.1), if_pos here, if_pos (member.mpr here), here.1]
      · rw [if_neg (fun both => inRest both.1), if_neg here, if_neg (mt member.mp here)]

theorem unread_none (distinct : targets.Nodup) : Unread (fun _ => none) targets :=
  distinct.imp fun differ => ⟨differ, nofun⟩

theorem unread_back {n lo count : Nat} (positive : 0 < n) :
    Unread (fun i => some (i - n)) (List.range' lo count).reverse := by
  refine List.pairwise_reverse.mpr ((List.pairwise_lt_range' (s := lo) (n := count)).imp fun {a b} ordered => ⟨by omega, ?_⟩)
  simp only [ne_eq, Option.some.injEq]
  omega

theorem unread_ahead {n lo count last : Nat} (positive : 0 < n) :
    Unread (fun i => if i + n ≤ last then some (i + n) else none) (List.range' lo count) := by
  refine (List.pairwise_lt_range' (s := lo) (n := count)).imp fun {a b} ordered => ⟨by omega, ?_⟩
  dsimp only
  split
  · simp only [ne_eq, Option.some.injEq]
    omega
  · nofun

theorem ext_getD (blank : α) (size : xs.length = ys.length) (same : ∀ i < xs.length, xs.getD i blank = ys.getD i blank) :
    xs = ys := by
  refine List.ext_getElem size fun i here there => ?_
  simpa [here, there] using same i here

end Sweep
