import Bitty.Term.Screen.Grid

/-! Row edits as motions: where each column goes, and which cells survive the way. -/

namespace Bitty.Screen

open Sweep

/-- Every half of a wide pair stands beside its other half. -/
structure WidePairs (cells : List Cell) : Prop where
  spacer : ∀ i, (cells.getD i outside).spacer = true → 0 < i ∧ (cells.getD (i - 1) outside).Lead
  lead : ∀ i, (cells.getD i outside).Lead → (cells.getD (i + 1) outside).spacer = true

variable {cells : List Cell}

theorem getD_of_le {i : Nat} (past : cells.length ≤ i) : cells.getD i outside = outside := by
  simp [List.getD_eq_getElem?_getD, past]

theorem not_lead_outside : ¬outside.Lead := Cell.not_lead_erased

theorem WidePairs.lead_inside (pairs : WidePairs cells) {i : Nat} (lead : (cells.getD i outside).Lead) :
    i + 1 < cells.length := by
  refine Nat.lt_of_not_le fun past => ?_
  have spacer := pairs.lead i lead
  rw [getD_of_le past] at spacer
  exact absurd spacer Bool.false_ne_true

structure Motion where
  dest : Nat → Option Nat
  injective : ∀ {i j k}, dest i = some k → dest j = some k → i = j

theorem widePairs_iff : WidePairs cells ↔ ∀ i < cells.length,
    ((cells.getD i outside).spacer = true → 0 < i ∧ (cells.getD (i - 1) outside).Lead) ∧
    ((cells.getD i outside).Lead → (cells.getD (i + 1) outside).spacer = true) := by
  refine ⟨fun pairs i _ => ⟨pairs.spacer i, pairs.lead i⟩, fun local_ => ⟨fun i spacer => ?_, fun i lead => ?_⟩⟩
  · by_cases inside : i < cells.length
    · exact (local_ i inside).1 spacer
    · rw [getD_of_le (Nat.not_lt.mp inside)] at spacer
      exact absurd spacer Bool.false_ne_true
  · by_cases inside : i < cells.length
    · exact (local_ i inside).2 lead
    · rw [getD_of_le (Nat.not_lt.mp inside)] at lead
      exact absurd lead not_lead_outside

instance (cells : List Cell) : Decidable (WidePairs cells) := decidable_of_iff _ widePairs_iff.symm

namespace Motion

variable (move : Motion) (before : List Cell)

/-- A narrow cell, or a half of a pair whose halves go to neighbouring columns. -/
def Intact (i : Nat) : Prop :=
  (before.getD i outside).Narrow ∨
  ((before.getD i outside).Lead ∧ ∃ k, move.dest i = some k ∧ move.dest (i + 1) = some (k + 1)) ∨
  ((before.getD i outside).spacer = true ∧ 0 < i ∧ ∃ k, move.dest (i - 1) = some k ∧ move.dest i = some (k + 1))

/-- Intact cells arrive unchanged; every other column is erased. -/
structure Moved (style : Style) (after : List Cell) : Prop where
  length : after.length = before.length
  kept : ∀ {i k}, i < before.length → move.Intact before i → move.dest i = some k → after.getD k outside = before.getD i outside
  erased : ∀ {k}, k < before.length → (¬∃ i < before.length, move.Intact before i ∧ move.dest i = some k) →
    after.getD k outside = Cell.erased style

variable {move before} {style : Style} {after : List Cell}

theorem Moved.source (moved : move.Moved before style after) {k : Nat} (visible : ¬(after.getD k outside).Narrow) :
    ∃ i < before.length, move.Intact before i ∧ move.dest i = some k ∧ after.getD k outside = before.getD i outside := by
  have inside : k < before.length := by
    refine Nat.lt_of_not_le fun past => visible ?_
    rw [getD_of_le (moved.length ▸ past)]
    exact Cell.narrow_erased
  by_cases found : ∃ i < before.length, move.Intact before i ∧ move.dest i = some k
  · obtain ⟨i, bound, intact, goes⟩ := found
    exact ⟨i, bound, intact, goes, moved.kept bound intact goes⟩
  · rw [moved.erased inside found] at visible
    exact absurd Cell.narrow_erased visible

theorem Moved.widePairs (moved : move.Moved before style after) (pairs : WidePairs before) : WidePairs after := by
  constructor
  · intro k spacer
    obtain ⟨i, bound, intact, goes, same⟩ := moved.source (k := k) fun narrow => absurd spacer (Bool.eq_false_iff.mp narrow.2)
    rw [same] at spacer
    have lead := (pairs.spacer i spacer).2
    rcases intact with narrow | ⟨isLead, _⟩ | ⟨_, positive, j, left, right⟩
    · exact absurd spacer (Bool.eq_false_iff.mp narrow.2)
    · exact absurd isLead (Cell.not_lead_of_spacer spacer)
    · have here : j + 1 = k := Option.some.inj (right.symm.trans goes)
      have next : i - 1 + 1 = i := by omega
      have leadIntact : move.Intact before (i - 1) := .inr (.inl ⟨lead, j, left, by rw [next]; exact right⟩)
      refine ⟨by omega, ?_⟩
      rw [show k - 1 = j by omega, moved.kept (by omega) leadIntact left]
      exact lead
  · intro k lead
    obtain ⟨i, bound, intact, goes, same⟩ := moved.source (k := k) fun narrow => narrow.1 lead
    rw [same] at lead
    have spacer := pairs.lead i lead
    rcases intact with narrow | ⟨_, j, left, right⟩ | ⟨isSpacer, _⟩
    · exact absurd lead narrow.1
    · have here : j = k := Option.some.inj (left.symm.trans goes)
      have spacerIntact : move.Intact before (i + 1) := .inr (.inr ⟨spacer, Nat.succ_pos i, j, left, right⟩)
      rw [← here, moved.kept (pairs.lead_inside lead) spacerIntact right]
      exact spacer
    · exact absurd lead (Cell.not_lead_of_spacer isSpacer)

/-- Columns before `col` stay; the others go right by `n`, up to the last. -/
def insert (last col n : Nat) : Motion where
  dest i := if i < col then some i else if i + n ≤ last then some (i + n) else none
  injective {i j k} first second := by
    split at first <;> split at second <;> (try split at first) <;> (try split at second) <;>
      simp only [Option.some.injEq, reduceCtorEq] at first second <;> omega

/-- Columns before `col` stay, `n` columns go nowhere, and the others go left by `n`. -/
def delete (col n : Nat) : Motion where
  dest i := if i < col then some i else if i < col + n then none else some (i - n)
  injective {i j k} first second := by
    split at first <;> split at second <;> (try split at first) <;> (try split at second) <;>
      simp only [Option.some.injEq, reduceCtorEq] at first second <;> omega

variable {last col n i k : Nat}

theorem dest_insert : (insert last col n).dest i = some k ↔ (i < col ∧ k = i) ∨ (col ≤ i ∧ i + n ≤ last ∧ k = i + n) := by
  simp only [insert]
  split
  · simp only [Option.some.injEq]
    omega
  · split
    · simp only [Option.some.injEq]
      omega
    · simp only [reduceCtorEq, false_iff]
      omega

theorem dest_delete : (delete col n).dest i = some k ↔ (i < col ∧ k = i) ∨ (col + n ≤ i ∧ i = k + n) := by
  simp only [delete]
  split
  · simp only [Option.some.injEq]
    omega
  · split
    · simp only [reduceCtorEq, false_iff]
      omega
    · simp only [Option.some.injEq]
      omega

end Motion

namespace Row

variable (row : Row) (style : Style)

variable {i : Nat}

theorem get_of_le (past : row.cells.length ≤ i) : row.get i = outside := getD_of_le past

theorem spacer_inside (spacer : (row.get i).spacer = true) : i < row.cells.length := by
  refine Nat.lt_of_not_le fun past => ?_
  rw [row.get_of_le past] at spacer
  exact absurd spacer Bool.false_ne_true

@[simp] theorem length_set (col : Nat) (cell : Cell) : (row.set col cell).cells.length = row.cells.length := List.length_set

theorem get_set (col : Nat) (cell : Cell) (k : Nat) :
    (row.set col cell).get k = if col = k ∧ col < row.cells.length then cell else row.get k := getD_set ..

@[simp] theorem length_breakPair (col : Nat) : (row.breakPair style col).cells.length = row.cells.length := by simp [breakPair]

theorem get_breakPair {col : Nat} (inside : col + 1 < row.cells.length) (k : Nat) :
    (row.breakPair style col).get k = if k = col ∨ k = col + 1 then Cell.erased style else row.get k := by
  simp only [breakPair, get_set, length_set, inside, and_true, show col < row.cells.length by omega]
  by_cases second : col + 1 = k
  · rw [if_pos second, if_pos (.inr second.symm)]
  · rw [if_neg second]
    by_cases first : col = k
    · rw [if_pos first, if_pos (.inl first.symm)]
    · rw [if_neg first, if_neg (by omega)]

@[simp] theorem length_cutBefore (col : Nat) : (row.cutBefore style col).cells.length = row.cells.length := by
  unfold cutBefore
  split
  · exact row.length_breakPair style _
  · rfl

theorem get_cutBefore (col k : Nat) :
    (row.cutBefore style col).get k =
      if (0 < col ∧ (row.get col).spacer = true) ∧ (k + 1 = col ∨ k = col) then Cell.erased style else row.get k := by
  unfold cutBefore
  by_cases cut : 0 < col ∧ (row.get col).spacer = true
  · have inside := row.spacer_inside cut.2
    rw [if_pos cut, row.get_breakPair style (by omega)]
    by_cases here : k + 1 = col ∨ k = col
    · rw [if_pos (by omega), if_pos ⟨cut, here⟩]
    · rw [if_neg (by omega), if_neg (fun both => here both.2)]
  · rw [if_neg cut, if_neg (fun both => cut both.1)]

@[simp] theorem length_fill (lo count : Nat) : (row.fill style lo count).cells.length = row.cells.length := length_sweep

theorem get_fill (lo count k : Nat) :
    (row.fill style lo count).get k = if (lo ≤ k ∧ k < lo + count) ∧ k < row.cells.length then Cell.erased style else row.get k := by
  have loop := @getD_sweep _ outside (Cell.erased style) _ _ row.cells
    (unread_none (List.nodup_range' (s := lo) (n := count))) k
  simp only [List.mem_range'_1] at loop
  exact loop

@[simp] theorem length_insertCut (last col n : Nat) : (row.insertCut style last col n).cells.length = row.cells.length := by
  simp only [insertCut]
  split
  · rw [length_breakPair, length_cutBefore]
  · exact row.length_cutBefore style _

@[simp] theorem length_deleteCut (last col n : Nat) : (row.deleteCut style last col n).cells.length = row.cells.length := by
  simp only [deleteCut]
  split
  · rw [length_cutBefore, length_cutBefore]
  · exact row.length_cutBefore style _

@[simp] theorem length_insertBlanks (col n : Nat) : (row.insertBlanks style col n).cells.length = row.cells.length := by
  simp only [insertBlanks, length_fill, length_sweep, length_insertCut]

@[simp] theorem length_deleteChars (col n : Nat) : (row.deleteChars style col n).cells.length = row.cells.length := by
  simp only [deleteChars, length_sweep, length_deleteCut]

variable {row style} {last col n k : Nat}

def InsertTorn (row : Row) (last col n i : Nat) : Prop :=
  ((0 < col ∧ (row.get col).spacer = true) ∧ (i + 1 = col ∨ i = col)) ∨
  ((n ≤ last - col ∧ (row.get (last - n)).Lead) ∧ (i = last - n ∨ i = last - n + 1))

def DeleteTorn (row : Row) (last col n i : Nat) : Prop :=
  ((0 < col ∧ (row.get col).spacer = true) ∧ (i + 1 = col ∨ i = col)) ∨
  ((col + n ≤ last ∧ (row.get (col + n)).spacer = true) ∧ (i + 1 = col + n ∨ i = col + n))

theorem lead_cutBefore (lead : ((row.cutBefore style col).get i).Lead) : (row.get i).Lead := by
  rw [get_cutBefore] at lead
  split at lead
  · exact absurd lead Cell.not_lead_erased
  · exact lead

theorem spacer_cutBefore (spacer : ((row.cutBefore style col).get i).spacer = true) : (row.get i).spacer = true := by
  rw [get_cutBefore] at spacer
  split at spacer
  · exact absurd spacer Bool.false_ne_true
  · exact spacer

theorem get_insertCut (size : row.cells.length = last + 1) (positive : 0 < n) (i : Nat) :
    (InsertTorn row last col n i → (row.insertCut style last col n).get i = Cell.erased style) ∧
    (¬InsertTorn row last col n i → (row.insertCut style last col n).get i = row.get i) := by
  simp only [insertCut]
  split
  next margin =>
    have lead := lead_cutBefore margin.2
    rw [get_breakPair _ _ (by rw [length_cutBefore]; omega), get_cutBefore]
    constructor
    · rintro (start | ⟨_, here⟩)
      · rw [if_pos start, ite_self]
      · rw [if_pos here]
    · intro whole
      rw [if_neg fun here => whole (.inr ⟨⟨margin.1, lead⟩, here⟩), if_neg fun start => whole (.inl start)]
  next whole =>
    rw [get_cutBefore]
    constructor
    · rintro (start | ⟨⟨room, lead⟩, here⟩)
      · rw [if_pos start]
      · refine absurd ⟨room, ?_⟩ whole
        rw [get_cutBefore, if_neg]
        · exact lead
        · rintro ⟨⟨_, spacer⟩, before⟩
          have same : last - n = col := by omega
          rw [same] at lead
          exact Cell.not_lead_of_spacer spacer lead
    · intro whole
      exact if_neg fun start => whole (.inl start)

theorem get_deleteCut (positive : 0 < n) (i : Nat) :
    (DeleteTorn row last col n i → (row.deleteCut style last col n).get i = Cell.erased style) ∧
    (¬DeleteTorn row last col n i → (row.deleteCut style last col n).get i = row.get i) := by
  simp only [deleteCut]
  split
  next room =>
    rw [get_cutBefore]
    constructor
    · rintro (start | ⟨⟨_, spacer⟩, here⟩)
      · rw [row.get_cutBefore style col i, if_pos start, ite_self]
      · have kept : ((row.cutBefore style col).get (col + n)).spacer = true := by
          rw [get_cutBefore, if_neg (by omega)]
          exact spacer
        exact if_pos ⟨⟨by omega, kept⟩, here⟩
    · intro whole
      have unmoved : ¬((0 < col + n ∧ ((row.cutBefore style col).get (col + n)).spacer = true) ∧
          (i + 1 = col + n ∨ i = col + n)) := by
        rintro ⟨⟨_, spacer⟩, here⟩
        exact whole (.inr ⟨⟨room, spacer_cutBefore spacer⟩, here⟩)
      rw [if_neg unmoved, get_cutBefore, if_neg fun start => whole (.inl start)]
  next past =>
    rw [get_cutBefore]
    constructor
    · rintro (start | ⟨⟨room, _⟩, _⟩)
      · rw [if_pos start]
      · exact absurd room past
    · intro whole
      exact if_neg fun start => whole (.inl start)

theorem get_insertBlanks (size : row.cells.length = last + 1) (bound : k ≤ last) :
    (row.insertBlanks style col n).get k =
      if k < min col last then (row.insertCut style last (min col last) (max n 1)).get k
      else if k < min col last + max n 1 then Cell.erased style
      else (row.insertCut style last (min col last) (max n 1)).get (k - max n 1) := by
  have loop := @getD_sweep _ outside (Cell.erased style) _ _ (row.insertCut style last (min col last) (max n 1)).cells
    (@unread_back (max n 1) (min col last + max n 1) (last + 1 - (min col last + max n 1)) (by omega)) k
  simp only [List.mem_reverse, List.mem_range'_1, length_insertCut, size] at loop
  simp only [insertBlanks, get_fill, length_sweep, length_insertCut, size, Nat.add_sub_cancel]
  by_cases stays : k < min col last
  · rw [if_pos stays, if_neg (by omega)]
    exact loop.trans (if_neg (by omega))
  · rw [if_neg stays]
    by_cases vacated : k < min col last + max n 1
    · rw [if_pos vacated, if_pos (by omega)]
    · rw [if_neg vacated, if_neg (by omega)]
      exact loop.trans (if_pos (by omega))

theorem get_deleteChars (size : row.cells.length = last + 1) (bound : k ≤ last) :
    (row.deleteChars style col n).get k =
      if k < min col last then (row.deleteCut style last (min col last) (max n 1)).get k
      else if k + max n 1 ≤ last then (row.deleteCut style last (min col last) (max n 1)).get (k + max n 1)
      else Cell.erased style := by
  have whole : row.cells.length - 1 = last := by omega
  have loop := @getD_sweep _ outside (Cell.erased style) _ _ (row.deleteCut style last (min col last) (max n 1)).cells
    (@unread_ahead (max n 1) (min col last) (last + 1 - min col last) last (by omega)) k
  simp only [List.mem_range'_1, length_deleteCut, size] at loop
  simp only [deleteChars, whole]
  by_cases stays : k < min col last
  · rw [if_pos stays]
    exact loop.trans (if_neg (by omega))
  · rw [if_neg stays]
    refine (loop.trans (if_pos (by omega))).trans ?_
    simp only [written]
    split <;> rfl

theorem torn_of_not_intact (pairs : WidePairs row.cells) {move : Motion} (torn : ¬move.Intact row.cells i) :
    ((row.get i).Lead ∧ (row.get (i + 1)).spacer = true ∧ ¬∃ k, move.dest i = some k ∧ move.dest (i + 1) = some (k + 1)) ∨
    ((row.get i).spacer = true ∧ 0 < i ∧ (row.get (i - 1)).Lead ∧
      ¬∃ k, move.dest (i - 1) = some k ∧ move.dest i = some (k + 1)) := by
  rcases (row.get i).narrow_or with narrow | lead | spacer
  · exact absurd (.inl narrow) torn
  · exact .inl ⟨lead, pairs.lead i lead, fun together => torn (.inr (.inl ⟨lead, together⟩))⟩
  · have before := pairs.spacer i spacer
    exact .inr ⟨spacer, before.1, before.2, fun together => torn (.inr (.inr ⟨spacer, before.1, together⟩))⟩

theorem together_of_intact {move : Motion} (intact : move.Intact row.cells i) :
    ((row.get i).Lead → ∃ k, move.dest i = some k ∧ move.dest (i + 1) = some (k + 1)) ∧
    ((row.get i).spacer = true → 0 < i ∧ ∃ k, move.dest (i - 1) = some k ∧ move.dest i = some (k + 1)) := by
  rcases intact with narrow | ⟨lead, together⟩ | ⟨spacer, positive, together⟩
  · exact ⟨fun lead => absurd lead narrow.1, fun spacer => absurd spacer (Bool.eq_false_iff.mp narrow.2)⟩
  · exact ⟨fun _ => together, fun spacer => absurd lead (Cell.not_lead_of_spacer spacer)⟩
  · exact ⟨fun lead => absurd lead (Cell.not_lead_of_spacer spacer), fun _ => ⟨positive, together⟩⟩

theorem insert_intact_iff (pairs : WidePairs row.cells) (positive : 0 < n)
    (goes : (Motion.insert last col n).dest i = some k) :
    (Motion.insert last col n).Intact row.cells i ↔ ¬InsertTorn row last col n i := by
  rw [Motion.dest_insert] at goes
  constructor
  · intro intact torn
    obtain ⟨ofLead, ofSpacer⟩ := together_of_intact intact
    simp only [Motion.dest_insert] at ofLead ofSpacer
    rcases torn with ⟨⟨inner, spacer⟩, before | here⟩ | ⟨⟨room, lead⟩, here | after⟩
    · have lead : (row.get (col - 1)).Lead := (pairs.spacer col spacer).2
      obtain ⟨j, first, second⟩ := ofLead (by rwa [show i = col - 1 by omega])
      omega
    · obtain ⟨_, j, first, second⟩ := ofSpacer (here ▸ spacer)
      omega
    · obtain ⟨j, first, second⟩ := ofLead (here ▸ lead)
      omega
    · omega
  · intro whole
    by_contra torn
    have apart := torn_of_not_intact pairs torn
    simp only [Motion.dest_insert, not_exists] at apart
    rcases apart with ⟨lead, spacer, apart⟩ | ⟨spacer, inner, lead, apart⟩
    · have split := apart k
      by_cases stays : i < col
      · have edge : i + 1 = col := by omega
        exact whole (.inl ⟨⟨by omega, edge ▸ spacer⟩, .inl edge⟩)
      · have edge : i = last - n := by omega
        exact whole (.inr ⟨⟨by omega, edge ▸ lead⟩, .inl edge⟩)
    · have split := apart (k - 1)
      have edge : i = col := by omega
      exact whole (.inl ⟨⟨by omega, edge ▸ spacer⟩, .inr edge⟩)

theorem delete_intact_iff (pairs : WidePairs row.cells) (size : row.cells.length = last + 1) (positive : 0 < n)
    (goes : (Motion.delete col n).dest i = some k) :
    (Motion.delete col n).Intact row.cells i ↔ ¬DeleteTorn row last col n i := by
  rw [Motion.dest_delete] at goes
  constructor
  · intro intact torn
    obtain ⟨ofLead, ofSpacer⟩ := together_of_intact intact
    simp only [Motion.dest_delete] at ofLead ofSpacer
    rcases torn with ⟨⟨inner, spacer⟩, before | here⟩ | ⟨⟨room, spacer⟩, before | here⟩
    · have lead : (row.get (col - 1)).Lead := (pairs.spacer col spacer).2
      obtain ⟨j, first, second⟩ := ofLead (by rwa [show i = col - 1 by omega])
      omega
    · omega
    · omega
    · obtain ⟨_, j, first, second⟩ := ofSpacer (here ▸ spacer)
      omega
  · intro whole
    by_contra torn
    have apart := torn_of_not_intact pairs torn
    simp only [Motion.dest_delete, not_exists] at apart
    rcases apart with ⟨lead, spacer, apart⟩ | ⟨spacer, inner, lead, apart⟩
    · have split := apart k
      have edge : i + 1 = col := by omega
      exact whole (.inl ⟨⟨by omega, edge ▸ spacer⟩, .inl edge⟩)
    · have split := apart (k - 1)
      have edge : i = col + n := by omega
      have room := row.spacer_inside spacer
      exact whole (.inr ⟨⟨by omega, edge ▸ spacer⟩, .inr edge⟩)

theorem insertBlanks_moved (pairs : WidePairs row.cells) (size : row.cells.length = last + 1) :
    (Motion.insert last (min col last) (max n 1)).Moved row.cells style (row.insertBlanks style col n).cells := by
  have positive : 0 < max n 1 := by omega
  refine ⟨row.length_insertBlanks style col n, fun {i k} bound intact goes => ?_, fun {k} bound missing => ?_⟩
  · have whole := (insert_intact_iff pairs positive goes).mp intact
    have kept := (@get_insertCut row style last _ _ size positive i).2 whole
    rw [Motion.dest_insert] at goes
    have at_ := @get_insertBlanks row style last col n k size (by omega)
    rcases goes with ⟨stays, rfl⟩ | ⟨shifts, room, rfl⟩
    · rw [if_pos stays, kept] at at_
      exact at_
    · rw [if_neg (by omega), if_neg (by omega), Nat.add_sub_cancel, kept] at at_
      exact at_
  · have lost {i : Nat} (inside : i ≤ last) (goes : (Motion.insert last (min col last) (max n 1)).dest i = some k) :
        (row.insertCut style last (min col last) (max n 1)).get i = Cell.erased style := by
      refine (get_insertCut size positive i).1 (by_contra fun whole => missing ⟨i, by omega, ?_, goes⟩)
      exact (insert_intact_iff pairs positive goes).mpr whole
    refine (get_insertBlanks size (by omega)).trans ?_
    split
    next stays => exact lost (by omega) (Motion.dest_insert.mpr (by omega))
    next =>
      split
      next => rfl
      next => exact lost (by omega) (Motion.dest_insert.mpr (by omega))

theorem deleteChars_moved (pairs : WidePairs row.cells) (size : row.cells.length = last + 1) :
    (Motion.delete (min col last) (max n 1)).Moved row.cells style (row.deleteChars style col n).cells := by
  have positive : 0 < max n 1 := by omega
  refine ⟨row.length_deleteChars style col n, fun {i k} bound intact goes => ?_, fun {k} bound missing => ?_⟩
  · have whole := (delete_intact_iff pairs size positive goes).mp intact
    have kept := (@get_deleteCut row style last _ _ positive i).2 whole
    rw [Motion.dest_delete] at goes
    have at_ := @get_deleteChars row style last col n k size (by omega)
    rcases goes with ⟨stays, rfl⟩ | ⟨shifts, rfl⟩
    · rw [if_pos stays, kept] at at_
      exact at_
    · rw [if_neg (by omega), if_pos (by omega), kept] at at_
      exact at_
  · have lost {i : Nat} (inside : i ≤ last) (goes : (Motion.delete (min col last) (max n 1)).dest i = some k) :
        (row.deleteCut style last (min col last) (max n 1)).get i = Cell.erased style := by
      refine (get_deleteCut positive i).1 (by_contra fun whole => missing ⟨i, by omega, ?_, goes⟩)
      exact (delete_intact_iff pairs size positive goes).mpr whole
    refine (get_deleteChars size (by omega)).trans ?_
    split
    next stays => exact lost (by omega) (Motion.dest_delete.mpr (by omega))
    next =>
      split
      next => exact lost (by omega) (Motion.dest_delete.mpr (by omega))
      next => rfl

/-- Both edits move the cells that their boundaries leave whole, erase the others, and need no repair. -/
theorem edits_move (pairs : WidePairs row.cells) (filled : row.cells ≠ []) :
    ((Motion.insert (row.cells.length - 1) (min col (row.cells.length - 1)) (max n 1)).Moved row.cells style
        (row.insertBlanks style col n).cells ∧ WidePairs (row.insertBlanks style col n).cells) ∧
    (Motion.delete (min col (row.cells.length - 1)) (max n 1)).Moved row.cells style (row.deleteChars style col n).cells ∧
      WidePairs (row.deleteChars style col n).cells := by
  have positive := List.length_pos_of_ne_nil filled
  have size : row.cells.length = row.cells.length - 1 + 1 := by omega
  have inserted := @insertBlanks_moved row style _ col n pairs size
  have deleted := @deleteChars_moved row style _ col n pairs size
  exact ⟨⟨inserted, inserted.widePairs pairs⟩, deleted, deleted.widePairs pairs⟩

theorem edits_move_pair :
    let lead : Cell := { Cell.erased {} with glyph := Char.ofNat 0x4E2D, width := 2, padding := false }
    let row : Row := ⟨[lead, Cell.wideSpacer {}, { Cell.erased {} with glyph := 'a' }, Cell.erased {}], false⟩
    (Motion.insert 3 0 1).Moved row.cells {} (row.insertBlanks {} 0 1).cells ∧ WidePairs (row.insertBlanks {} 0 1).cells ∧
      (Motion.delete 0 1).Moved row.cells {} (row.deleteChars {} 0 1).cells ∧ WidePairs (row.deleteChars {} 0 1).cells := by
  intro lead row
  have moved := @edits_move row {} 0 1 (by decide) (by decide)
  exact ⟨moved.1.1, moved.1.2, moved.2.1, moved.2.2⟩

end Row

end Bitty.Screen
