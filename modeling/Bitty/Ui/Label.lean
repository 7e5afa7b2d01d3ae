import Bitty.Library.Checks
import Bitty.Library.Placing
import Bitty.Ui.Geometry

/-! Labels for hints: single characters first, then pairs, drawn from one pool on each side of the viewport. -/

namespace Bitty.Ui

open Text Checks Placing

def MAX_HINT_TARGETS : Nat := 1024

def MAX_CHARSET_LEN : Nat := 64

inductive LabelError
  | invalidCharset (detail : Text)
  | tooManyTargets (requested capacity : Nat)
  deriving DecidableEq

def validateCharset (chars role : Text) : Except LabelError Unit := do
  refuseIf (chars = []) (.invalidCharset (role ++ " charset is empty".toList))
  refuseIf (MAX_CHARSET_LEN < chars.length)
    (.invalidCharset (role ++ " charset exceeds ".toList ++ number MAX_CHARSET_LEN ++ " chars".toList))
  refuseIf (¬chars.all fun c => c.isLower || c.isDigit) (.invalidCharset (role ++ " charset must be [a-z0-9]".toList))
  distinct id (fun c => .invalidCharset (role ++ " charset has duplicate '".toList ++ [c] ++ "'".toList)) (fun _ => .ok ())
    (fun _ => .ok ()) [] chars

structure LabelPolicy where
  home : List Char
  overflow : List Char
  homeValid : validateCharset home "home".toList = .ok ()
  overflowValid : validateCharset overflow "overflow".toList = .ok ()

theorem validateCharset_ok {chars role : Text} : validateCharset chars role = .ok () ↔
    chars ≠ [] ∧ chars.length ≤ MAX_CHARSET_LEN ∧ (∀ c ∈ chars, (c.isLower || c.isDigit) = true) ∧ chars.Nodup := by
  simp only [validateCharset, seq_ok, refuseIf_ok, distinct_ok, Decidable.not_not, Nat.not_lt, List.all_eq_true, List.map_id]
  constructor
  · rintro ⟨some, short, plain, -, once, -⟩
    exact ⟨some, short, plain, once⟩
  · rintro ⟨some, short, plain, once⟩
    exact ⟨some, short, plain, fun _ _ => ⟨trivial, trivial⟩, once, fun _ _ => List.not_mem_nil⟩

namespace LabelPolicy

def new (home overflow : Text) : Except LabelError LabelPolicy :=
  match homeValid : validateCharset home "home".toList with
  | .error e => .error e
  | .ok () =>
    match overflowValid : validateCharset overflow "overflow".toList with
    | .error e => .error e
    | .ok () => .ok { home, overflow, homeValid, overflowValid }

variable (policy : LabelPolicy)

def poolSplit : Nat := min (max (policy.home.length / 2) 1) policy.home.length

def leftPool : List Char := policy.home.take policy.poolSplit

def rightPool : List Char := if policy.home.length ≤ policy.poolSplit then policy.home else policy.home.drop policy.poolSplit

def pool (left : Bool) : List Char := if left then policy.leftPool else policy.rightPool

end LabelPolicy

def sideCapacity (poolLen overflowLen : Nat) : Nat := poolLen + poolLen * overflowLen

def generable (pool : List Char) (policy : LabelPolicy) : List Text :=
  pool.map (fun c => [c]) ++ pool.flatMap fun first => policy.overflow.map fun second => [first, second]

def sideLabels (pool : List Char) (policy : LabelPolicy) (count : Nat) : Except LabelError (List Text) := do
  let capacity := sideCapacity pool.length policy.overflow.length
  refuseIf (capacity < count) (.tooManyTargets count capacity)
  .ok ((generable pool policy).take count)

def anchorBefore (a b : Point) : Bool := a.y < b.y || (a.y = b.y && a.x ≤ b.x)

def isLeft (viewportWidth : Nat) (anchor : Point) : Bool := anchor.x * 2 < viewportWidth

def sideOrder (anchors : List Point) (viewportWidth : Nat) (left : Bool) : List Nat :=
  ((List.range anchors.length).filter fun i => isLeft viewportWidth (anchors.getD i ⟨0, 0⟩) = left).insertionSort
    fun i j => anchorBefore (anchors.getD i ⟨0, 0⟩) (anchors.getD j ⟨0, 0⟩) = true

namespace LabelPolicy

variable (policy : LabelPolicy)

def capacity : Nat := sideCapacity policy.leftPool.length policy.overflow.length +
  sideCapacity policy.rightPool.length policy.overflow.length

def assign (anchors : List Point) (viewportWidth : Nat) : Except LabelError (List Text) := do
  refuseIf (MAX_HINT_TARGETS < anchors.length) (.tooManyTargets anchors.length policy.capacity)
  let left := sideOrder anchors viewportWidth true
  let right := sideOrder anchors viewportWidth false
  let leftLabels ← sideLabels policy.leftPool policy left.length
  let rightLabels ← sideLabels policy.rightPool policy right.length
  .ok (place (place (List.replicate anchors.length []) (left.zip leftLabels)) (right.zip rightLabels))

structure HintLabels (anchors : List Point) (viewportWidth : Nat) : Prop where
  served : ∀ labels, policy.assign anchors viewportWidth = .ok labels → labels.length = anchors.length ∧
    ∀ left, (sideOrder anchors viewportWidth left).map (labels.getD · []) =
      (generable (policy.pool left) policy).take (sideOrder anchors viewportWidth left).length
  unique : ∀ labels, policy.assign anchors viewportWidth = .ok labels → labels.Nodup
  refuses : (∃ e, policy.assign anchors viewportWidth = .error e) ↔ MAX_HINT_TARGETS < anchors.length ∨
    ∃ left, (generable (policy.pool left) policy).length < (sideOrder anchors viewportWidth left).length
  capacity : policy.capacity = (generable policy.leftPool policy ++ generable policy.rightPool policy).dedup.length

end LabelPolicy

section

variable {policy : LabelPolicy} {pool : List Char}

theorem length_generable : (generable pool policy).length = sideCapacity pool.length policy.overflow.length := by
  simp [generable, sideCapacity, List.length_flatMap]

theorem mem_generable {label : Text} (member : label ∈ generable pool policy) : ∃ c ∈ pool, label.head? = some c := by
  rcases List.mem_append.mp member with single | pair
  · obtain ⟨c, inside, rfl⟩ := List.mem_map.mp single
    exact ⟨c, inside, rfl⟩
  · obtain ⟨first, inside, found⟩ := List.mem_flatMap.mp pair
    obtain ⟨second, -, rfl⟩ := List.mem_map.mp found
    exact ⟨first, inside, rfl⟩

theorem nodup_generable (once : pool.Nodup) : (generable pool policy).Nodup := by
  have overflowOnce := (validateCharset_ok.mp policy.overflowValid).2.2.2
  refine List.Nodup.append ?_ ?_ ?_
  · exact once.map fun c d same => (List.cons.inj same).1
  · refine List.nodup_flatMap.mpr ⟨fun first _ => ?_, ?_⟩
    · exact overflowOnce.map fun c d same => (List.cons.inj (List.cons.inj same).2).1
    · refine once.imp fun {c d} other => ?_
      intro label inC inD
      obtain ⟨second, -, rfl⟩ := List.mem_map.mp inC
      obtain ⟨second', -, same⟩ := List.mem_map.mp inD
      exact other (List.cons.inj same).1.symm
  · intro label single pair
    obtain ⟨c, -, rfl⟩ := List.mem_map.mp single
    obtain ⟨first, -, found⟩ := List.mem_flatMap.mp pair
    obtain ⟨second, -, same⟩ := List.mem_map.mp found
    exact absurd (List.cons.inj same).2 (List.cons_ne_nil _ _)

theorem homeOnce (policy : LabelPolicy) : policy.home.Nodup := (validateCharset_ok.mp policy.homeValid).2.2.2

theorem home_pos (policy : LabelPolicy) : 0 < policy.home.length :=
  List.length_pos_iff.mpr (validateCharset_ok.mp policy.homeValid).1

theorem nodup_pool (left : Bool) : (policy.pool left).Nodup := by
  unfold LabelPolicy.pool LabelPolicy.leftPool LabelPolicy.rightPool
  split_ifs
  · exact (homeOnce policy).sublist (List.take_sublist _ _)
  · exact homeOnce policy
  · exact (homeOnce policy).sublist (List.drop_sublist _ _)

theorem disjoint_pools (two : 2 ≤ policy.home.length) : policy.leftPool.Disjoint policy.rightPool := by
  have inside : policy.poolSplit < policy.home.length := by
    unfold LabelPolicy.poolSplit
    omega
  unfold LabelPolicy.leftPool LabelPolicy.rightPool
  rw [if_neg (by omega)]
  exact List.disjoint_take_drop (homeOnce policy) le_rfl

theorem pools_of_one (one : policy.home.length = 1) : policy.leftPool = policy.home ∧ policy.rightPool = policy.home := by
  have whole : policy.poolSplit = 1 := by
    unfold LabelPolicy.poolSplit
    omega
  unfold LabelPolicy.leftPool LabelPolicy.rightPool
  rw [whole, if_pos one.le]
  exact ⟨List.take_of_length_le one.le, rfl⟩

theorem disjoint_generable (two : 2 ≤ policy.home.length) :
    (generable policy.leftPool policy).Disjoint (generable policy.rightPool policy) := by
  intro label left right
  obtain ⟨c, inLeft, first⟩ := mem_generable left
  obtain ⟨d, inRight, first'⟩ := mem_generable right
  obtain rfl : c = d := Option.some.inj (first.symm.trans first')
  exact disjoint_pools two inLeft inRight

variable {anchors : List Point} {viewportWidth : Nat}

theorem sideOrder_perm (anchors : List Point) (viewportWidth : Nat) :
    (sideOrder anchors viewportWidth true ++ sideOrder anchors viewportWidth false).Perm (List.range anchors.length) := by
  have left := List.perm_insertionSort (fun i j => anchorBefore (anchors.getD i ⟨0, 0⟩) (anchors.getD j ⟨0, 0⟩) = true)
    ((List.range anchors.length).filter fun i => isLeft viewportWidth (anchors.getD i ⟨0, 0⟩) = true)
  have right := List.perm_insertionSort (fun i j => anchorBefore (anchors.getD i ⟨0, 0⟩) (anchors.getD j ⟨0, 0⟩) = true)
    ((List.range anchors.length).filter fun i => isLeft viewportWidth (anchors.getD i ⟨0, 0⟩) = false)
  refine (left.append right).trans ?_
  have parts := List.filter_append_perm (fun i => decide (isLeft viewportWidth (anchors.getD i ⟨0, 0⟩) = true))
    (List.range anchors.length)
  simpa using parts

theorem sideLabels_ok {count : Nat} {labels : List Text} : sideLabels pool policy count = .ok labels ↔
    count ≤ (generable pool policy).length ∧ labels = (generable pool policy).take count := by
  rw [sideLabels, seq_ok, refuseIf_ok, Nat.not_lt, length_generable, Except.ok.injEq, eq_comm (a := labels)]

theorem assign_ok {labels : List Text} : policy.assign anchors viewportWidth = .ok labels ↔
    anchors.length ≤ MAX_HINT_TARGETS ∧
    (∀ left, (sideOrder anchors viewportWidth left).length ≤ (generable (policy.pool left) policy).length) ∧
    labels = place (List.replicate anchors.length [])
      ((sideOrder anchors viewportWidth true).zip
          ((generable policy.leftPool policy).take (sideOrder anchors viewportWidth true).length) ++
        (sideOrder anchors viewportWidth false).zip
          ((generable policy.rightPool policy).take (sideOrder anchors viewportWidth false).length)) := by
  rw [LabelPolicy.assign, seq_ok, refuseIf_ok, Nat.not_lt]
  simp only [bind_ok_iff, sideLabels_ok, Except.ok.injEq, place_append]
  constructor
  · rintro ⟨few, _, ⟨left, rfl⟩, _, ⟨right, rfl⟩, rfl⟩
    refine ⟨few, fun side => ?_, rfl⟩
    cases side with
    | false => exact right
    | true => exact left
  · rintro ⟨few, enough, rfl⟩
    exact ⟨few, _, ⟨enough true, rfl⟩, _, ⟨enough false, rfl⟩, rfl⟩

theorem assign_spec {labels : List Text} (assigned : policy.assign anchors viewportWidth = .ok labels) :
    labels.length = anchors.length ∧
    (∀ left, (sideOrder anchors viewportWidth left).map (labels.getD · []) =
      (generable (policy.pool left) policy).take (sideOrder anchors viewportWidth left).length) ∧
    labels.Perm ((generable policy.leftPool policy).take (sideOrder anchors viewportWidth true).length ++
      (generable policy.rightPool policy).take (sideOrder anchors viewportWidth false).length) := by
  obtain ⟨-, enough, same⟩ := assign_ok.mp assigned
  have lefts := (List.length_take_of_le (enough true)).symm
  have rights := (List.length_take_of_le (enough false)).symm
  rw [LabelPolicy.pool, if_pos rfl] at lefts
  rw [LabelPolicy.pool, if_neg Bool.false_ne_true] at rights
  have firsts := List.map_fst_zip lefts.le
  have firsts' := List.map_fst_zip rights.le
  have seconds := List.map_snd_zip lefts.ge
  have seconds' := List.map_snd_zip rights.ge
  generalize pairs : (sideOrder anchors viewportWidth true).zip
    ((generable policy.leftPool policy).take (sideOrder anchors viewportWidth true).length) = left at *
  generalize pairs' : (sideOrder anchors viewportWidth false).zip
    ((generable policy.rightPool policy).take (sideOrder anchors viewportWidth false).length) = right at *
  have every : ((left ++ right).map Prod.fst).Perm (List.range (List.replicate anchors.length ([] : Text)).length) := by
    rw [List.map_append, firsts, firsts', List.length_replicate]
    exact sideOrder_perm anchors viewportWidth
  have once : ((left ++ right).map Prod.fst).Nodup := every.nodup_iff.mpr List.nodup_range
  -- What is put at an index is read there.
  have read : ∀ pair ∈ left ++ right, labels.getD pair.1 [] = pair.2 := by
    intro pair member
    have inside := List.mem_range.mp (every.mem_iff.mp (List.mem_map_of_mem member))
    rw [same, List.getD_eq_getElem?_getD, getElem?_place once member inside, Option.getD_some]
  refine ⟨?_, fun side => ?_, ?_⟩
  · rw [same, length_place, List.length_replicate]
  · cases side with
    | true =>
      refine (congrArg (List.map (labels.getD · [])) firsts.symm).trans (Eq.trans ?_ seconds)
      rw [List.map_map]
      exact List.map_congr_left fun pair member => read pair (List.mem_append_left _ member)
    | false =>
      refine (congrArg (List.map (labels.getD · [])) firsts'.symm).trans (Eq.trans ?_ seconds')
      rw [List.map_map]
      exact List.map_congr_left fun pair member => read pair (List.mem_append_right _ member)
  · rw [same, ← seconds, ← seconds', ← List.map_append]
    exact place_perm every

/-- A policy of two characters or more gives every anchor a label of its own, and knows how many it can give; with one
character both sides draw the same labels. -/
theorem LabelPolicy.hintLabels_iff (policy : LabelPolicy) (anchors : List Point) (viewportWidth : Nat) :
    policy.HintLabels anchors viewportWidth ↔ 2 ≤ policy.home.length := by
  constructor
  · intro labels
    by_contra few
    have one : policy.home.length = 1 := by
      have some := home_pos policy
      omega
    obtain ⟨left, right⟩ := pools_of_one one
    have once : (generable policy.home policy).Nodup := nodup_generable (homeOnce policy)
    have twice := labels.capacity
    rw [LabelPolicy.capacity, left, right, (List.Subset.refl _).dedup_append_right, once.dedup, length_generable, one,
      sideCapacity] at twice
    omega
  · intro two
    have apart : (generable policy.leftPool policy ++ generable policy.rightPool policy).Nodup :=
      (nodup_generable (nodup_pool true)).append (nodup_generable (nodup_pool false)) (disjoint_generable two)
    refine ⟨fun labels assigned => ?_, fun labels assigned => ?_, ?_, ?_⟩
    · obtain ⟨length, served, -⟩ := assign_spec assigned
      exact ⟨length, served⟩
    · obtain ⟨-, -, perm⟩ := assign_spec assigned
      exact perm.nodup_iff.mpr (apart.sublist ((List.take_sublist _ _).append (List.take_sublist _ _)))
    · constructor
      · rintro ⟨e, refused⟩
        by_contra fits
        rw [not_or, Nat.not_lt, not_exists] at fits
        have assigned := assign_ok.mpr ⟨fits.1, fun left => Nat.le_of_not_lt (fits.2 left), rfl⟩
        rw [refused] at assigned
        cases assigned
      · intro refused
        cases assigned : policy.assign anchors viewportWidth with
        | error e => exact ⟨e, rfl⟩
        | ok labels =>
          obtain ⟨few, enough, -⟩ := assign_ok.mp assigned
          rcases refused with many | ⟨left, many⟩
          · exact absurd few (Nat.not_le_of_lt many)
          · exact absurd (enough left) (Nat.not_le_of_lt many)
    · rw [apart.dedup, List.length_append, length_generable, length_generable, LabelPolicy.capacity]

def oneLetter : LabelPolicy := ⟨['a'], ['b'], by decide, by decide⟩

theorem LabelPolicy.hintLabels_one : oneLetter.assign [⟨1, 0⟩, ⟨70, 0⟩] 80 = .ok [['a'], ['a']] ∧
    ¬oneLetter.HintLabels [⟨1, 0⟩, ⟨70, 0⟩] 80 := by
  have assigned : oneLetter.assign [⟨1, 0⟩, ⟨70, 0⟩] 80 = .ok [['a'], ['a']] := by decide
  exact ⟨assigned, fun labels => absurd (labels.unique _ assigned) (by decide)⟩

end

end Bitty.Ui
