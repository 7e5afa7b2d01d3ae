import Bitty.Term.Screen.Motion
import Bitty.Term.Screen.Preserve

/-! The repair pass, and the rows whose wide pairs are whole. -/

namespace Bitty.Screen

open Sweep

def Torn (prev cell next : Cell) : Prop := (cell.spacer = true ∧ ¬prev.Lead) ∨ (cell.Lead ∧ next.spacer = false)

instance (prev cell next : Cell) : Decidable (Torn prev cell next) := inferInstanceAs (Decidable (_ ∨ _))

variable {style : Style} {prev cell next : Cell}

theorem Torn.of_same {prev' : Cell} (same : cell.spacer = true → (prev.Lead ↔ prev'.Lead)) :
    Torn prev cell next ↔ Torn prev' cell next := by
  unfold Torn
  by_cases spacer : cell.spacer = true
  · rw [same spacer]
  · exact ⟨fun torn => .inr (torn.resolve_left fun both => spacer both.1), fun torn =>
      .inr (torn.resolve_left fun both => spacer both.1)⟩

theorem torn_cons {prev' : Cell} {rest : List Cell} (same : next.spacer = true → (prev.Lead ↔ prev'.Lead)) (k : Nat) :
    Torn ((prev :: next :: rest).getD k outside) ((next :: rest).getD k outside) ((next :: rest).getD (k + 1) outside) ↔
      Torn ((prev' :: next :: rest).getD k outside) ((next :: rest).getD k outside)
        ((next :: rest).getD (k + 1) outside) := by
  cases k with
  | zero => exact Torn.of_same same
  | succ k => exact Iff.rfl

theorem not_torn_outside (prev next : Cell) : ¬Torn prev outside next := by
  rintro (spacer | lead)
  · exact absurd spacer.1 Bool.false_ne_true
  · exact not_lead_outside lead.1

theorem getD_singleton_succ (x prev cell : Cell) (k : Nat) : [x].getD (k + 1) outside =
    if Torn ((prev :: [cell]).getD (k + 1) outside) ([cell].getD (k + 1) outside) ([cell].getD (k + 2) outside)
    then Cell.erased style else [cell].getD (k + 1) outside := (if_neg (not_torn_outside _ _)).symm

theorem getD_repairCells (prev : Cell) (cells : List Cell) (k : Nat) : (Row.repairCells style prev cells).getD k outside =
    if Torn ((prev :: cells).getD k outside) (cells.getD k outside) (cells.getD (k + 1) outside) then Cell.erased style
    else cells.getD k outside := by
  induction prev, cells using Row.repairCells.induct style generalizing k with
  | case1 prev => exact (if_neg (not_torn_outside _ _)).symm
  | case2 prev cell torn =>
    rw [Row.repairCells, if_pos torn]
    cases k with
    | zero => exact (if_pos (torn.imp_right fun lead => ⟨lead, rfl⟩)).symm
    | succ k => exact getD_singleton_succ _ prev cell k
  | case3 prev cell whole =>
    rw [Row.repairCells, if_neg whole]
    cases k with
    | zero => exact (if_neg fun torn => whole (torn.imp_right fun lead => lead.1)).symm
    | succ k => exact getD_singleton_succ _ prev cell k
  | case4 prev cell next rest spacer lead ih =>
    rw [Row.repairCells, if_pos spacer, if_pos lead]
    cases k with
    | zero =>
      refine (if_neg ?_).symm
      rintro (torn | torn)
      · exact torn.2 lead
      · exact Cell.not_lead_of_spacer spacer torn.1
    | succ k => exact ih k
  | case5 prev cell next rest spacer alone ih =>
    rw [Row.repairCells, if_pos spacer, if_neg alone]
    cases k with
    | zero => exact (if_pos (.inl ⟨spacer, alone⟩)).symm
    | succ k =>
      have same := @torn_cons (Cell.erased style) next cell rest
        (fun _ => iff_of_false Cell.not_lead_erased (Cell.not_lead_of_spacer spacer)) k
      exact (ih k).trans (if_congr same rfl rfl)
  | case6 prev cell next rest plain wide follows ih =>
    rw [Row.repairCells, if_neg plain, if_pos wide, if_pos follows]
    cases k with
    | zero =>
      refine (if_neg ?_).symm
      rintro (torn | torn)
      · exact plain torn.1
      · exact Bool.eq_false_iff.mp torn.2 follows
    | succ k =>
      cases k with
      | zero =>
        refine (if_neg ?_).symm
        rintro (torn | torn)
        · exact torn.2 ⟨wide, Bool.eq_false_iff.mpr plain⟩
        · exact Cell.not_lead_of_spacer follows torn.1
      | succ k => exact ih k
  | case7 prev cell next rest plain wide alone ih =>
    rw [Row.repairCells, if_neg plain, if_pos wide, if_neg alone]
    cases k with
    | zero => exact (if_pos (.inr ⟨⟨wide, Bool.eq_false_iff.mpr plain⟩, Bool.eq_false_iff.mpr alone⟩)).symm
    | succ k =>
      have same := @torn_cons (Cell.erased style) next cell rest
        (fun follows => absurd follows alone) k
      exact (ih k).trans (if_congr same rfl rfl)
  | case8 prev cell next rest plain narrow ih =>
    rw [Row.repairCells, if_neg plain, if_neg narrow]
    cases k with
    | zero =>
      refine (if_neg ?_).symm
      rintro (torn | torn)
      · exact plain torn.1
      · exact narrow torn.1.1
    | succ k => exact ih k

namespace Row

variable (row : Row)

def TornAt (k : Nat) : Prop :=
  ((row.get k).spacer = true ∧ ¬(0 < k ∧ (row.get (k - 1)).Lead)) ∨ ((row.get k).Lead ∧ (row.get (k + 1)).spacer = false)

instance (k : Nat) : Decidable (row.TornAt k) := inferInstanceAs (Decidable (_ ∨ _))

theorem get_repair (k : Nat) : (row.repair style).get k = if row.TornAt k then Cell.erased style else row.get k := by
  refine (getD_repairCells outside row.cells k).trans (if_congr ?_ rfl rfl)
  unfold Torn TornAt
  cases k with
  | zero =>
    have first : ¬((outside :: row.cells).getD 0 outside).Lead := not_lead_outside
    simp only [first, Nat.lt_irrefl, false_and]
    exact Iff.rfl
  | succ k =>
    simp only [Nat.succ_pos, true_and]
    exact Iff.rfl

theorem length_repairCells (prev : Cell) (cells : List Cell) : (repairCells style prev cells).length = cells.length := by
  fun_induction repairCells style prev cells <;> simp_all

@[simp] theorem length_repair : (row.repair style).cells.length = row.cells.length := length_repairCells _ _

theorem ext {row row' : Row} (size : row.cells.length = row'.cells.length) (same : ∀ k < row.cells.length, row.get k = row'.get k)
    (wrapped : row.wrapped = row'.wrapped) : row = row' := by
  obtain ⟨cells, flag⟩ := row
  obtain ⟨cells', flag'⟩ := row'
  obtain rfl : cells = cells' := ext_getD outside size same
  obtain rfl : flag = flag' := wrapped
  rfl

variable {row}

theorem not_tornAt (pairs : WidePairs row.cells) (k : Nat) : ¬row.TornAt k := by
  rintro (⟨spacer, alone⟩ | ⟨lead, alone⟩)
  · exact alone (pairs.spacer k spacer)
  · exact absurd (pairs.lead k lead) (Bool.eq_false_iff.mp alone)

theorem repair_eq (pairs : WidePairs row.cells) : row.repair style = row := by
  refine ext row.length_repair (fun k _ => ?_) rfl
  rw [get_repair, if_neg (not_tornAt pairs k)]

theorem widePairs_repair : WidePairs (row.repair style).cells := by
  have intact {k : Nat} (visible : ¬((row.repair style).get k).Narrow) :
      (row.repair style).get k = row.get k ∧ ¬row.TornAt k := by
    by_cases torn : row.TornAt k
    · rw [get_repair, if_pos torn] at visible
      exact absurd Cell.narrow_erased visible
    · exact ⟨by rw [get_repair, if_neg torn], torn⟩
  constructor
  · intro k spacer
    obtain ⟨same, whole⟩ := intact (k := k) fun narrow => absurd spacer (Bool.eq_false_iff.mp narrow.2)
    have isSpacer : (row.get k).spacer = true := same ▸ spacer
    have before : 0 < k ∧ (row.get (k - 1)).Lead := by_contra fun alone => whole (.inl ⟨isSpacer, alone⟩)
    refine ⟨before.1, ?_⟩
    change ((row.repair style).get (k - 1)).Lead
    rw [get_repair, if_neg]
    · exact before.2
    · rintro (⟨both, _⟩ | ⟨_, alone⟩)
      · exact Cell.not_lead_of_spacer both before.2
      · rw [Nat.sub_add_cancel before.1, isSpacer] at alone
        cases alone
  · intro k lead
    obtain ⟨same, whole⟩ := intact (k := k) fun narrow => narrow.1 lead
    have isLead : (row.get k).Lead := same ▸ lead
    have after : (row.get (k + 1)).spacer = true := by
      rw [← Bool.not_eq_false]
      exact fun alone => whole (.inr ⟨isLead, alone⟩)
    change ((row.repair style).get (k + 1)).spacer = true
    rw [get_repair, if_neg]
    · exact after
    · rintro (⟨_, alone⟩ | ⟨both, _⟩)
      · exact alone ⟨Nat.succ_pos k, isLead⟩
      · exact Cell.not_lead_of_spacer after both

theorem spacer_get (pairs : WidePairs row.cells) {k : Nat} (spacer : (row.get k).spacer = true) :
    0 < k ∧ (row.get (k - 1)).Lead := pairs.spacer k spacer

theorem lead_get (pairs : WidePairs row.cells) {k : Nat} (lead : (row.get k).Lead) : (row.get (k + 1)).spacer = true :=
  pairs.lead k lead

theorem WidePairs.congr {row' : Row} (pairs : WidePairs row.cells)
    (same : ∀ k, (row'.get k).spacer = (row.get k).spacer ∧ ((row'.get k).Lead ↔ (row.get k).Lead)) : WidePairs row'.cells := by
  constructor
  · intro k spacer
    have before := spacer_get pairs ((same k).1.symm.trans spacer)
    exact ⟨before.1, (same (k - 1)).2.mpr before.2⟩
  · intro k lead
    exact (same (k + 1)).1.trans (lead_get pairs ((same k).2.mp lead))

theorem widePairs_fill (pairs : WidePairs row.cells) {lo count : Nat} (left : (row.get lo).spacer = true → lo = 0)
    (right : (row.get (lo + count)).spacer = true → count = 0) : WidePairs (row.fill style lo count).cells := by
  have kept {k : Nat} (visible : ¬((row.fill style lo count).get k).Narrow) :
      ¬(lo ≤ k ∧ k < lo + count) ∧ (row.fill style lo count).get k = row.get k := by
    rw [get_fill] at visible ⊢
    by_cases inside : (lo ≤ k ∧ k < lo + count) ∧ k < row.cells.length
    · rw [if_pos inside] at visible
      exact absurd Cell.narrow_erased visible
    · rw [if_neg inside] at visible ⊢
      refine ⟨fun range => inside ⟨range, Nat.lt_of_not_le fun past => visible ?_⟩, rfl⟩
      rw [row.get_of_le past]
      exact Cell.narrow_erased
  have same {k : Nat} (outside_ : ¬(lo ≤ k ∧ k < lo + count)) : (row.fill style lo count).get k = row.get k := by
    rw [get_fill, if_neg fun inside => outside_ inside.1]
  constructor
  · intro k spacer
    obtain ⟨beyond, here⟩ := kept (k := k) fun narrow => absurd spacer (Bool.eq_false_iff.mp narrow.2)
    have isSpacer : (row.get k).spacer = true := here ▸ spacer
    have before := spacer_get pairs isSpacer
    refine ⟨before.1, ?_⟩
    change ((row.fill style lo count).get (k - 1)).Lead
    rw [same]
    · exact before.2
    · intro inside
      have edge : k = lo + count := by omega
      have empty := right (edge ▸ isSpacer)
      omega
  · intro k lead
    obtain ⟨beyond, here⟩ := kept (k := k) fun narrow => narrow.1 lead
    have after := lead_get pairs (k := k) (here ▸ lead)
    change ((row.fill style lo count).get (k + 1)).spacer = true
    rw [same]
    · exact after
    · intro inside
      have edge : k + 1 = lo := by omega
      have first := left (edge ▸ after)
      omega

@[simp] theorem length_eraseRange (start stop : Nat) : (row.eraseRange style start stop).cells.length = row.cells.length := by
  unfold eraseRange
  dsimp only
  split
  · rfl
  · exact row.length_fill style _ _

theorem widePairs_eraseRange (pairs : WidePairs row.cells) (start stop : Nat) : WidePairs (row.eraseRange style start stop).cells := by
  unfold eraseRange
  dsimp only
  generalize min start (row.cells.length - 1) = lo
  generalize stopped : min stop (row.cells.length - 1) = hi
  split
  next => exact pairs
  next range =>
    refine widePairs_fill pairs (fun spacer => ?_) fun spacer => ?_
    · by_cases straddles : 0 < lo ∧ (row.get lo).spacer = true
      · rw [if_pos straddles] at spacer
        exact absurd (spacer_get pairs straddles.2).2 (Cell.not_lead_of_spacer spacer)
      · rw [if_neg straddles] at spacer ⊢
        by_contra positive
        exact straddles ⟨Nat.pos_of_ne_zero positive, spacer⟩
    · -- the range ends at a cell whose spacer would have been taken with it
      exfalso
      generalize left : (if 0 < lo ∧ (row.get lo).spacer = true then lo - 1 else lo) = lo' at spacer
      have le : lo' ≤ lo := by
        rw [← left]
        split <;> omega
      split at spacer
      next wide =>
        rw [show lo' + (hi + 1 + 1 - lo') = hi + 2 by omega] at spacer
        exact Cell.not_lead_of_spacer wide.2.2 (spacer_get pairs spacer).2
      next narrow =>
        rw [show lo' + (hi + 1 - lo') = hi + 1 by omega] at spacer
        have bound := row.spacer_inside spacer
        exact narrow ⟨(spacer_get pairs spacer).2.1, by omega, spacer⟩

theorem widePairs_empty {cells : List Cell} (empty : cells.length = 0) : WidePairs cells :=
  widePairs_iff.mpr fun i inside => by omega

theorem widePairs_insertBlanks (pairs : WidePairs row.cells) (col n : Nat) : WidePairs (row.insertBlanks style col n).cells := by
  by_cases empty : row.cells = []
  · exact widePairs_empty (by rw [length_insertBlanks, empty]; rfl)
  · exact (edits_move pairs empty).1.2

theorem widePairs_deleteChars (pairs : WidePairs row.cells) (col n : Nat) : WidePairs (row.deleteChars style col n).cells := by
  by_cases empty : row.cells = []
  · exact widePairs_empty (by rw [length_deleteChars, empty]; rfl)
  · exact (edits_move pairs empty).2.2

@[simp] theorem length_put (col w : Nat) (cell : Cell) : (row.put col w cell).cells.length = row.cells.length := by
  unfold put
  dsimp only
  split
  · rw [length_set, length_set]
  · rw [length_set]

@[simp] theorem length_uncover (col w : Nat) : (row.uncover style col w).cells.length = row.cells.length := by
  unfold uncover
  dsimp only
  split <;> split <;> split <;> simp only [length_set]

@[simp] theorem length_write (col w : Nat) (insert : Bool) (cell : Cell) :
    (row.write style col w insert cell).cells.length = row.cells.length := by
  unfold write
  dsimp only
  split <;> simp only [length_repair, length_put, length_insertBlanks, length_uncover]

@[simp] theorem length_widen (col : Nat) (insert : Bool) (cell : Cell) :
    (row.widen style col insert cell).cells.length = row.cells.length := by
  unfold widen
  dsimp only
  split
  · rw [length_put, length_insertBlanks]
  · split
    · rw [length_put, length_set]
    · rw [length_put]

theorem get_put_wide {col : Nat} {cell : Cell} (inside : col + 1 < row.cells.length) (k : Nat) :
    (row.put col 2 cell).get k = if k = col then cell else if k = col + 1 then Cell.wideSpacer cell.style else row.get k := by
  simp only [put, if_true, get_set, length_set, inside, and_true, show col < row.cells.length by omega, eq_comm (b := k)]
  split
  next second => rw [if_neg (by omega)]
  next => rfl

theorem widePairs_put {col : Nat} {cell : Cell} (inside : col + 1 < row.cells.length) (lead : cell.Lead)
    (spacers : ∀ k, k ≠ col → k ≠ col + 1 → (row.get k).spacer = true →
      0 < k ∧ (row.get (k - 1)).Lead ∧ k - 1 ≠ col ∧ k - 1 ≠ col + 1)
    (leads : ∀ k, k ≠ col → k ≠ col + 1 → (row.get k).Lead → (row.get (k + 1)).spacer = true ∧ k + 1 ≠ col) :
    WidePairs (row.put col 2 cell).cells := by
  constructor
  · intro k spacer
    change ((row.put col 2 cell).get k).spacer = true at spacer
    change 0 < k ∧ ((row.put col 2 cell).get (k - 1)).Lead
    rw [get_put_wide inside] at spacer ⊢
    by_cases first : k = col
    · rw [if_pos first, lead.2] at spacer
      cases spacer
    · by_cases second : k = col + 1
      · rw [if_pos (by omega)]
        exact ⟨by omega, lead⟩
      · rw [if_neg first, if_neg second] at spacer
        obtain ⟨positive, before, notFirst, notSecond⟩ := spacers k first second spacer
        rw [if_neg notFirst, if_neg notSecond]
        exact ⟨positive, before⟩
  · intro k isLead
    change ((row.put col 2 cell).get k).Lead at isLead
    change ((row.put col 2 cell).get (k + 1)).spacer = true
    rw [get_put_wide inside] at isLead ⊢
    by_cases first : k = col
    · rw [if_neg (by omega), if_pos (by omega)]
      rfl
    · by_cases second : k = col + 1
      · rw [if_neg first, if_pos second] at isLead
        exact absurd isLead (Cell.not_lead_of_spacer rfl)
      · rw [if_neg first, if_neg second] at isLead
        obtain ⟨after, notFirst⟩ := leads k first second isLead
        rw [if_neg notFirst, if_neg (by omega)]
        exact after

end Row

end Bitty.Screen
