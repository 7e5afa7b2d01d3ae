import Mathlib

/-! Lists whose elements hang on the key of another element: the removal of an element takes with it what hung on it. -/

namespace Cascade

variable {α κ : Type} [DecidableEq κ] (key : α → κ) (parent : α → Option κ)

def isOrphan (xs : List α) (x : α) : Bool :=
  match parent x with
  | none => false
  | some k => !xs.any (key · = k)

/-- Drops everything under the key of the first orphan, again and again. -/
def collapse : Nat → List α → List α
  | 0, xs => xs
  | fuel + 1, xs =>
    match xs.find? (isOrphan key parent xs) with
    | none => xs
    | some x => collapse fuel (xs.filter (key · ≠ key x))

def Closed (xs : List α) : Prop := ∀ x ∈ xs, ∀ k, parent x = some k → ∃ y ∈ xs, key y = k

/-- The selected elements and those that hang on nothing else, directly or through others. -/
inductive Doomed (selected : α → Prop) (xs : List α) : α → Prop
  | named {x} (member : x ∈ xs) (by_name : selected x) : Doomed selected xs x
  | orphan {x k} (member : x ∈ xs) (hangs : parent x = some k)
    (holders : ∀ y ∈ xs, key y = k → Doomed selected xs y) : Doomed selected xs x

/-- What goes without being selected takes no innocent element of its key along. -/
def Separate (selected : α → Prop) (xs : List α) : Prop :=
  ∀ x ∈ xs, ∀ y ∈ xs, key x = key y → ¬ selected x → Doomed key parent selected xs x → Doomed key parent selected xs y

variable {key parent} {xs : List α}

theorem isOrphan_iff {x : α} : isOrphan key parent xs x ↔ ∃ k, parent x = some k ∧ ∀ y ∈ xs, key y ≠ k := by
  unfold isOrphan
  cases parent x <;> simp

theorem closed_iff : Closed key parent xs ↔ ∀ x ∈ xs, ¬ isOrphan key parent xs x := by
  refine forall₂_congr fun x _ => ?_
  rw [isOrphan_iff]
  push Not
  rfl

theorem length_filter_lt {p : α → Bool} {x : α} (member : x ∈ xs) (dropped : p x = false) :
    (xs.filter p).length < xs.length := by
  have le := List.length_filter_le p xs
  have ne : (xs.filter p).length ≠ xs.length := by
    rw [ne_eq, List.length_filter_eq_length_iff]
    intro all
    simp [all x member] at dropped
  omega

theorem collapse_sublist (fuel : Nat) (xs : List α) : (collapse key parent fuel xs).Sublist xs := by
  induction fuel generalizing xs with
  | zero => exact List.Sublist.refl _
  | succ fuel ih =>
    unfold collapse
    split
    · exact List.Sublist.refl _
    · exact (ih _).trans List.filter_sublist

theorem collapse_eq_filter (fuel : Nat) (xs : List α) :
    ∃ stays : κ → Bool, collapse key parent fuel xs = xs.filter fun x => stays (key x) := by
  induction fuel generalizing xs with
  | zero => exact ⟨fun _ => true, by simp [collapse]⟩
  | succ fuel ih =>
    unfold collapse
    split
    · exact ⟨fun _ => true, by simp⟩
    · rename_i x found
      obtain ⟨stays, left⟩ := ih (xs.filter (key · ≠ key x))
      exact ⟨fun k => stays k && decide (k ≠ key x), left.trans List.filter_filter⟩

theorem collapse_closed {fuel : Nat} (enough : xs.length ≤ fuel) : Closed key parent (collapse key parent fuel xs) := by
  induction fuel generalizing xs with
  | zero =>
    have none := List.length_eq_zero_iff.mp (Nat.le_zero.mp enough)
    subst none
    intro x member
    cases member
  | succ fuel ih =>
    unfold collapse
    cases found : xs.find? (isOrphan key parent xs) with
    | none =>
      rw [List.find?_eq_none] at found
      exact closed_iff.mpr found
    | some x =>
      refine ih ?_
      have fewer := length_filter_lt (p := fun y => key y ≠ key x) (List.mem_of_find?_eq_some found) (by simp)
      omega

theorem collapse_of_closed (fuel : Nat) (closed : Closed key parent xs) : collapse key parent fuel xs = xs := by
  cases fuel with
  | zero => rfl
  | succ fuel =>
    have none : xs.find? (isOrphan key parent xs) = none := List.find?_eq_none.mpr (closed_iff.mp closed)
    simp [collapse, none]

theorem collapse_map {f : α → α} (keys : ∀ x, key (f x) = key x) (parents : ∀ x, parent (f x) = parent x) (fuel : Nat)
    (xs : List α) : collapse key parent fuel (xs.map f) = (collapse key parent fuel xs).map f := by
  induction fuel generalizing xs with
  | zero => rfl
  | succ fuel ih =>
    have same : (isOrphan key parent (xs.map f)) ∘ f = isOrphan key parent xs := by
      funext x
      simp [isOrphan, parents, List.any_map, Function.comp_def, keys]
    unfold collapse
    rw [List.find?_map, same]
    cases xs.find? (isOrphan key parent xs) with
    | none => rfl
    | some x =>
      have filtered : (xs.map f).filter (key · ≠ key (f x)) = (xs.filter (key · ≠ key x)).map f := by
        rw [List.filter_map]
        simp [Function.comp_def, keys]
      simp only [Option.map_some]
      rw [filtered, ih]

section

variable {selected : α → Prop}

omit [DecidableEq κ] in
theorem Doomed.not_kept {keep : α → Bool} (named : ∀ x ∈ xs, selected x → keep x = false)
    (closed : Closed key parent (xs.filter keep)) {x : α} (doomed : Doomed key parent selected xs x) : keep x = false := by
  induction doomed with
  | named member by_name => exact named _ member by_name
  | @orphan x k member hangs holders ih =>
    by_contra kept
    obtain ⟨y, holds, same⟩ := closed x (List.mem_filter.mpr ⟨member, by simpa using kept⟩) k hangs
    rw [List.mem_filter] at holds
    have := ih y holds.1 same
    rw [this] at holds
    exact Bool.false_ne_true holds.2

open scoped Classical in
theorem collapse_filter (separate : Separate key parent selected xs) {fuel : Nat} {keep : α → Bool}
    (enough : (xs.filter keep).length ≤ fuel) (named : ∀ x ∈ xs, selected x → keep x = false)
    (dropped : ∀ x ∈ xs, keep x = false → Doomed key parent selected xs x) :
    collapse key parent fuel (xs.filter keep) = xs.filter (fun x => ¬ Doomed key parent selected xs x) := by
  -- by induction on the fuel: nothing but doomed elements is dropped, and the end is closed
  induction fuel generalizing keep with
  | zero =>
    have none : xs.filter keep = [] := List.length_eq_zero_iff.mp (Nat.le_zero.mp enough)
    rw [collapse, none, eq_comm, List.filter_eq_nil_iff]
    intro x member
    have gone : keep x = false := by
      rw [List.filter_eq_nil_iff] at none
      simpa using none x member
    simpa using dropped x member gone
  | succ fuel ih =>
    unfold collapse
    cases found : (xs.filter keep).find? (isOrphan key parent (xs.filter keep)) with
    | none =>
      have closed : Closed key parent (xs.filter keep) := closed_iff.mpr (List.find?_eq_none.mp found)
      refine List.filter_congr fun x member => ?_
      by_cases kept : keep x = true
      · have safe : ¬ Doomed key parent selected xs x := fun doomed => by
          rw [doomed.not_kept named closed] at kept
          cases kept
        simp [kept, safe]
      · simp [kept, dropped x member (by simpa using kept)]
    | some x =>
      have orphan := List.find?_some found
      obtain ⟨member, kept⟩ := List.mem_filter.mp (List.mem_of_find?_eq_some found)
      obtain ⟨k, hangs, unheld⟩ := isOrphan_iff.mp orphan
      have doomed : Doomed key parent selected xs x := by
        refine .orphan member hangs fun y inside same => dropped y inside ?_
        by_contra holds
        exact unheld y (List.mem_filter.mpr ⟨inside, by simpa using holds⟩) same
      have unnamed : ¬ selected x := fun by_name => by
        rw [named x member by_name] at kept
        cases kept
      have fewer := length_filter_lt (p := fun y => key y ≠ key x) (List.mem_of_find?_eq_some found) (by simp)
      dsimp only
      rw [List.filter_filter] at fewer ⊢
      refine ih (by omega) (fun y inside by_name => by simp [named y inside by_name]) fun y inside gone => ?_
      simp only [Bool.and_eq_false_iff, decide_eq_false_iff_not, not_not] at gone
      rcases gone with same | gone
      · exact separate x member y inside same.symm unnamed doomed
      · exact dropped y inside gone

end

end Cascade
