import Bitty.Library.Runs
import Bitty.Term.Screen.KittyUnicode
import Bitty.Term.Screen.Links

/-! The two decoders of placeholder runs: when the search around a cell finds the run of the row. -/

namespace Bitty.Screen

open Bitty.Vt

namespace Cell

variable (cell : Cell)

def kittyLow : Nat := colorIdFragment cell.style.foreground % 2 ^ 24

def kittyPlacement : Option Nat := kittyPlacementId cell.style.underlineColor

def kittyMarks : Option Nat × Option Nat × Option Nat := decodeMarks cell.zerowidth.chars

/-- The tile that stands some columns after a cell that is decoded on its own. -/
def kittyTile (distance : Nat) : KittyUnicodeId where
  imageId := cell.kittyLow + cell.kittyMarks.2.2.getD 0 * 2 ^ 24
  placementId := cell.kittyPlacement
  row := cell.kittyMarks.1.getD 0
  col := min 255 (cell.kittyMarks.2.1.getD 0 + distance)

/-- A placeholder of the same colors whose marks name nothing but the tile that stands there, or the column before it. -/
def Predicts (later : Cell) (distance : Nat) : Prop :=
  isKittyPlaceholder cell.glyph = true ∧ isKittyPlaceholder later.glyph = true ∧ later.kittyLow = cell.kittyLow ∧
  later.kittyPlacement = cell.kittyPlacement ∧
  (∀ row ∈ later.kittyMarks.1, row = (cell.kittyTile distance).row) ∧
  (∀ col ∈ later.kittyMarks.2.1, col = (cell.kittyTile distance).col ∨ col = (cell.kittyTile (distance - 1)).col) ∧
  ∀ high ∈ later.kittyMarks.2.2, high = cell.kittyMarks.2.2.getD 0

instance (later : Cell) (distance : Nat) : Decidable (cell.Predicts later distance) := by
  unfold Predicts
  infer_instance

end Cell

theorem diacriticIndex_lt {mark : Char} {index : Nat} (found : diacriticIndex mark = some index) : index < 256 := by
  obtain ⟨_, small⟩ := Option.filter_eq_some_iff.mp found
  exact of_decide_eq_true small

theorem marks_lt {marks : List Char} {i index : Nat} (found : marks[i]?.bind diacriticIndex = some index) : index < 256 := by
  obtain ⟨mark, _, here⟩ := Option.bind_eq_some_iff.mp found
  exact diacriticIndex_lt here

theorem decodeMarks_lt {marks : List Char} :
    (decodeMarks marks).1.getD 0 < 256 ∧ (decodeMarks marks).2.1.getD 0 < 256 ∧ (decodeMarks marks).2.2.getD 0 < 256 := by
  have small (i : Nat) : (marks[i]?.bind diacriticIndex).getD 0 < 256 := by
    cases found : marks[i]?.bind diacriticIndex with
    | none => exact Nat.succ_pos 255
    | some index => exact marks_lt found
  exact ⟨small 0, small 1, small 2⟩

theorem decodeCellWithPrev_none (cell : Cell) :
    decodeCellWithPrev cell.style.foreground cell.style.underlineColor cell.zerowidth.chars none = cell.kittyTile 0 := by
  have small := (@decodeMarks_lt cell.zerowidth.chars).2.1
  simp only [decodeCellWithPrev, Cell.kittyTile, Cell.kittyLow, Cell.kittyPlacement, Cell.kittyMarks, Option.filter_none,
    Option.map_none, Option.or_none, Option.isSome_none, Bool.false_eq_true, and_false, if_false, Option.bind_none, Nat.add_zero,
    KittyUnicodeId.mk.injEq, true_and]
  exact (Nat.min_eq_right (Nat.le_of_lt_succ small)).symm

namespace KittyRunBuilder

def Reached (builder : KittyRunBuilder) (first : Cell) (distance : Nat) : Prop :=
  builder.broken = false ∧ ∃ cell, builder.prev = some (cell, first.kittyLow, first.kittyPlacement) ∧ cell.id = first.kittyTile distance

theorem push_fresh {cell : Cell} (placeholder : isKittyPlaceholder cell.glyph = true) (row col : Nat) :
    ∃ builder : KittyRunBuilder, builder.Reached cell 0 ∧
      push {} row col (isKittyPlaceholder cell.glyph) cell.style.foreground cell.style.underlineColor cell.zerowidth.chars =
        (some ⟨row, col, cell.kittyTile 0⟩, builder) := by
  have alone := decodeCellWithPrev_none cell
  refine ⟨{ prev := some (⟨row, col, cell.kittyTile 0⟩, cell.kittyLow, cell.kittyPlacement) }, ⟨rfl, _, rfl, rfl⟩, ?_⟩
  unfold push
  rw [placeholder, if_neg (by decide)]
  simp only [Option.map_none, alone]
  rfl

theorem decodeCellWithPrev_some {first later : Cell} {distance : Nat} (low : later.kittyLow = first.kittyLow)
    (placement : later.kittyPlacement = first.kittyPlacement) {cell : KittyUnicodeCell} (tile : cell.id = first.kittyTile distance) :
    decodeCellWithPrev later.style.foreground later.style.underlineColor later.zerowidth.chars
      (some (first.kittyLow, first.kittyPlacement, cell.id.row, cell.id.col, highOf cell)) =
      { imageId := first.kittyLow + later.kittyMarks.2.2.getD (first.kittyMarks.2.2.getD 0) * 2 ^ 24
        placementId := first.kittyPlacement
        row := later.kittyMarks.1.getD (first.kittyTile distance).row
        col := if later.zerowidth.chars.isEmpty then min 255 (later.kittyMarks.2.1.getD (first.kittyTile distance).col + 1)
          else later.kittyMarks.2.1.getD (first.kittyTile distance).col } := by
  have small : first.kittyLow < 2 ^ 24 := Nat.mod_lt _ (by decide)
  have high : (highOf cell).getD 0 = first.kittyMarks.2.2.getD 0 := by
    have byte : cell.id.imageId / 2 ^ 24 = first.kittyMarks.2.2.getD 0 := by
      rw [tile]
      dsimp only [Cell.kittyTile]
      omega
    unfold highOf
    dsimp only
    rw [byte]
    split
    next zero => exact zero.symm
    next => rfl
  have same : (first.kittyLow == colorIdFragment later.style.foreground % 2 ^ 24 &&
      first.kittyPlacement == kittyPlacementId later.style.underlineColor) = true := by
    rw [← low, ← placement]
    simp [Cell.kittyLow, Cell.kittyPlacement]
  have inherited (mark : Option Nat) : (mark.or (highOf cell)).getD 0 = mark.getD (first.kittyMarks.2.2.getD 0) := by
    cases mark with
    | none => exact high
    | some value => rfl
  have orElse (mark : Option Nat) (value : Nat) : (mark.or (some value)).getD 0 = mark.getD value := by
    cases mark with
    | none => rfl
    | some other => rfl
  unfold decodeCellWithPrev
  simp only [Option.filter_some, same, if_true, Option.map_some, Option.bind_some, Option.isSome_some, and_true, orElse, inherited,
    tile]
  have low' : colorIdFragment later.style.foreground % 2 ^ 24 = first.kittyLow := low
  have placement' : kittyPlacementId later.style.underlineColor = first.kittyPlacement := placement
  rw [low', placement']
  rfl

theorem kittyTile_col_succ (first : Cell) (distance : Nat) :
    (first.kittyTile (distance + 1)).col = min 255 ((first.kittyTile distance).col + 1) := by
  dsimp only [Cell.kittyTile]
  omega

theorem kittyTile_succ (first : Cell) (distance : Nat) :
    first.kittyTile (distance + 1) = { first.kittyTile distance with col := min 255 ((first.kittyTile distance).col + 1) } := by
  rw [← kittyTile_col_succ]
  rfl

theorem col_eq_none {cell : Cell} (bare : cell.zerowidth.chars.isEmpty = true) : cell.kittyMarks.2.1 = none := by
  unfold Cell.kittyMarks
  rw [List.isEmpty_iff.mp bare]
  rfl

theorem getD_eq_iff (mark : Option Nat) (value : Nat) : mark.getD value = value ↔ ∀ named ∈ mark, named = value := by
  cases mark with
  | none => simp
  | some named => simp

/-- Whether a cell of the same colors is accepted depends on its marks. -/
theorem accepts_iff {first later : Cell} {distance : Nat} (placeholder : isKittyPlaceholder first.glyph = true)
    (alike : isKittyPlaceholder later.glyph = true) (low : later.kittyLow = first.kittyLow)
    (placement : later.kittyPlacement = first.kittyPlacement) {cell : KittyUnicodeCell} (tile : cell.id = first.kittyTile distance)
    {id : KittyUnicodeId} (decoded : id = decodeCellWithPrev later.style.foreground later.style.underlineColor
      later.zerowidth.chars (some (first.kittyLow, first.kittyPlacement, cell.id.row, cell.id.col, highOf cell))) :
    ((cell.id.imageId = id.imageId ∧ cell.id.placementId = id.placementId ∧ cell.id.row = id.row ∧
      id.col = min 255 (cell.id.col + 1)) ∨ cell.id = id) ↔ first.Predicts later (distance + 1) := by
  rw [decodeCellWithPrev_some low placement tile] at decoded
  have image : cell.id.imageId = id.imageId ↔ ∀ high ∈ later.kittyMarks.2.2, high = first.kittyMarks.2.2.getD 0 := by
    rw [← getD_eq_iff, tile, decoded]
    dsimp only [Cell.kittyTile]
    omega
  have place : cell.id.placementId = id.placementId := by
    rw [tile, decoded]
    rfl
  have line : cell.id.row = id.row ↔ ∀ row ∈ later.kittyMarks.1, row = (first.kittyTile (distance + 1)).row := by
    rw [kittyTile_succ, ← getD_eq_iff, tile, decoded]
    exact eq_comm
  have column : (id.col = min 255 (cell.id.col + 1) ∨ cell.id.col = id.col) ↔ ∀ col ∈ later.kittyMarks.2.1,
      col = (first.kittyTile (distance + 1)).col ∨ col = (first.kittyTile distance).col := by
    rw [kittyTile_col_succ, tile, decoded]
    dsimp only
    by_cases bare : later.zerowidth.chars.isEmpty = true
    · rw [if_pos bare, col_eq_none bare]
      exact iff_of_true (.inl rfl) nofun
    · rw [if_neg bare]
      cases named : later.kittyMarks.2.1 with
      | none => exact iff_of_true (.inr rfl) nofun
      | some col => simp [eq_comm]
  have whole : cell.id = id ↔ cell.id.imageId = id.imageId ∧ cell.id.placementId = id.placementId ∧ cell.id.row = id.row ∧
      cell.id.col = id.col := by
    obtain ⟨_, _, _, _⟩ := id
    obtain ⟨_, _, ⟨_, _, _, _⟩⟩ := cell
    simp only [KittyUnicodeId.mk.injEq]
  unfold Cell.Predicts
  rw [whole, Nat.add_sub_cancel, ← line, ← image, ← column]
  simp only [placeholder, alike, low, placement, place, true_and]
  constructor
  · rintro (⟨image, line, column⟩ | ⟨image, line, column⟩)
    · exact ⟨line, .inl column, image⟩
    · exact ⟨line, .inr column, image⟩
  · rintro ⟨line, column | column, image⟩
    · exact .inl ⟨image, line, column⟩
    · exact .inr ⟨image, line, column⟩

theorem decodeCellWithPrev_colors (cell : Cell) (prev : Option KittyUnicodePrev) :
    (decodeCellWithPrev cell.style.foreground cell.style.underlineColor cell.zerowidth.chars prev).imageId % 2 ^ 24 = cell.kittyLow ∧
      (decodeCellWithPrev cell.style.foreground cell.style.underlineColor cell.zerowidth.chars prev).placementId =
        cell.kittyPlacement := by
  refine ⟨?_, rfl⟩
  unfold decodeCellWithPrev
  dsimp only
  rw [Nat.add_mul_mod_self_right, Nat.mod_mod]
  rfl

variable {builder : KittyRunBuilder} {first later : Cell} {distance : Nat} (reached : builder.Reached first distance)
  (placeholder : isKittyPlaceholder first.glyph = true) (row col : Nat)

include reached placeholder

theorem push_next (predicted : first.Predicts later (distance + 1)) : ∃ builder' : KittyRunBuilder,
    builder'.Reached first (distance + 1) ∧ builder.push row col (isKittyPlaceholder later.glyph) later.style.foreground
      later.style.underlineColor later.zerowidth.chars = (some ⟨row, col, first.kittyTile (distance + 1)⟩, builder') := by
  obtain ⟨whole, cell, prev, tile⟩ := reached
  have alike := predicted.2.1
  have low := predicted.2.2.1
  have placement := predicted.2.2.2.1
  refine ⟨{ builder with prev := some (⟨row, col, first.kittyTile (distance + 1)⟩, first.kittyLow, first.kittyPlacement) },
    ⟨whole, _, rfl, rfl⟩, ?_⟩
  have low' : colorIdFragment later.style.foreground % 2 ^ 24 = first.kittyLow := low
  have placement' : kittyPlacementId later.style.underlineColor = first.kittyPlacement := placement
  unfold push
  rw [whole, alike, if_neg (by decide), prev]
  simp only [Option.map_some, low', placement']
  generalize decoded : decodeCellWithPrev later.style.foreground later.style.underlineColor later.zerowidth.chars
    (some (first.kittyLow, first.kittyPlacement, cell.id.row, cell.id.col, highOf cell)) = id
  have accepted := (accepts_iff placeholder alike low placement tile decoded.symm).mpr predicted
  rw [if_neg fun refused => accepted.elim refused.1 refused.2]
  by_cases restated : cell.id = id
  · rw [if_pos restated, ← restated, tile, ← kittyTile_succ]
  · rw [if_neg restated]
    obtain ⟨image, place, line, column⟩ := accepted.resolve_right restated
    have same : id = first.kittyTile (distance + 1) := by
      rw [kittyTile_succ, ← tile]
      obtain ⟨_, _, _, _⟩ := id
      simp only [KittyUnicodeId.mk.injEq]
      exact ⟨image.symm, place.symm, line.symm, column⟩
    rw [same]

theorem push_break (unpredicted : ¬first.Predicts later (distance + 1)) :
    (builder.push row col (isKittyPlaceholder later.glyph) later.style.foreground later.style.underlineColor
      later.zerowidth.chars).1 = none := by
  obtain ⟨whole, cell, prev, tile⟩ := reached
  unfold push
  split
  · rfl
  next open_ =>
    have alike : isKittyPlaceholder later.glyph = true := by
      rw [← Bool.not_eq_false]
      exact fun other => open_ (.inr (by rw [other]; rfl))
    rw [prev]
    dsimp only
    generalize decoded : decodeCellWithPrev later.style.foreground later.style.underlineColor later.zerowidth.chars
      (Option.map _ _) = id
    have refused : ¬(cell.id.imageId = id.imageId ∧ cell.id.placementId = id.placementId ∧ cell.id.row = id.row ∧
        id.col = min 255 (cell.id.col + 1)) ∧ ¬cell.id = id := by
      by_cases colors : later.kittyLow = first.kittyLow ∧ later.kittyPlacement = first.kittyPlacement
      · exact not_or.mp (mt (accepts_iff placeholder alike colors.1 colors.2 tile decoded.symm).mp unpredicted)
      · have own : id.imageId % 2 ^ 24 = later.kittyLow ∧ id.placementId = later.kittyPlacement := by
          rw [← decoded]
          exact decodeCellWithPrev_colors later _
        have small : first.kittyLow < 2 ^ 24 := Nat.mod_lt _ (by decide)
        have differ : ¬(cell.id.imageId = id.imageId ∧ cell.id.placementId = id.placementId) := by
          rintro ⟨image, place⟩
          refine colors ⟨?_, ?_⟩
          · rw [← own.1, ← image, tile]
            dsimp only [Cell.kittyTile]
            omega
          · rw [← own.2, ← place, tile]
            rfl
        exact ⟨fun both => differ ⟨both.1, both.2.1⟩, fun same => differ ⟨congrArg _ same, congrArg _ same⟩⟩
    rw [if_pos refused]

end KittyRunBuilder

namespace State

variable (s : State) (row : Nat)

def KittyJoins (j k : Nat) : Prop := (s.screensActive.get row j).Predicts (s.screensActive.get row k) (k - j)

instance : DecidableRel (s.KittyJoins row) := fun j k => by
  unfold KittyJoins
  infer_instance

def KittyLive (k : Nat) : Prop := isKittyPlaceholder (s.screensActive.get row k).glyph = true

instance : DecidablePred (s.KittyLive row) := fun k => by
  unfold KittyLive
  infer_instance

/-- The cell at a column of the run that starts at column `a`. -/
def kittyCellOf (a k : Nat) : KittyUnicodeCell := ⟨row, k, (s.screensActive.get row a).kittyTile (k - a)⟩

def kittySegment (a b : Nat) : KittyUnicodeRunCells :=
  ((List.range' a (b + 1 - a)).map (s.kittyCellOf row a), runKey (s.kittyCellOf row a a))

variable {s row} {a j k : Nat}

theorem KittyJoins.live (joins : s.KittyJoins row j k) : s.KittyLive row j ∧ s.KittyLive row k := ⟨joins.1, joins.2.1⟩

theorem kittyPush_fresh (live : s.KittyLive row k) : ∃ builder : KittyRunBuilder,
    builder.Reached (s.screensActive.get row k) 0 ∧ s.kittyPush row k {} = (some (s.kittyCellOf row k k), builder) := by
  obtain ⟨builder, reached, pushed⟩ := KittyRunBuilder.push_fresh live row k
  refine ⟨builder, reached, ?_⟩
  rw [kittyCellOf, Nat.sub_self]
  exact pushed

theorem kittyPush_dead {builder : KittyRunBuilder} (dead : ¬s.KittyLive row k) : (s.kittyPush row k builder).1 = none := by
  unfold kittyPush KittyRunBuilder.push
  rw [if_pos]
  exact .inr (by simpa [KittyLive] using dead)

section Reached

variable {builder : KittyRunBuilder} (reached : builder.Reached (s.screensActive.get row a) (k - a)) (live : s.KittyLive row a)
  (le : a ≤ k)

include reached live le

theorem kittyPush_next (joins : s.KittyJoins row a (k + 1)) : ∃ builder' : KittyRunBuilder,
    builder'.Reached (s.screensActive.get row a) (k + 1 - a) ∧
      s.kittyPush row (k + 1) builder = (some (s.kittyCellOf row a (k + 1)), builder') := by
  unfold KittyJoins at joins
  rw [Nat.sub_add_comm le] at joins
  obtain ⟨builder', reached', pushed⟩ := KittyRunBuilder.push_next reached live row (k + 1) joins
  refine ⟨builder', ?_, ?_⟩
  · rw [Nat.sub_add_comm le]
    exact reached'
  · rw [kittyCellOf, Nat.sub_add_comm le]
    exact pushed

theorem kittyPush_break (apart : ¬s.KittyJoins row a (k + 1)) : (s.kittyPush row (k + 1) builder).1 = none := by
  unfold KittyJoins at apart
  rw [Nat.sub_add_comm le] at apart
  exact KittyRunBuilder.push_break reached live row (k + 1) apart

theorem kittyDecode_next (count : Nat) : s.kittyDecode row builder (List.range' (k + 1) count) =
    ((List.range' (k + 1) count).takeWhile fun m => decide (s.KittyJoins row a m)).map (s.kittyCellOf row a) := by
  induction count generalizing k builder with
  | zero => rfl
  | succ count ih =>
    rw [List.range'_succ, kittyDecode]
    by_cases joins : s.KittyJoins row a (k + 1)
    · obtain ⟨builder', reached', pushed⟩ := kittyPush_next reached live le joins
      rw [pushed, List.takeWhile_cons, if_pos (by simpa using joins), List.map_cons]
      exact congrArg _ (ih reached' (Nat.le_succ_of_le le))
    · have broken := kittyPush_break reached live le joins
      rw [List.takeWhile_cons, if_neg (by simpa using joins)]
      split
      next pushed => rw [pushed] at broken; cases broken
      next => rfl

end Reached

theorem kittyDecode_fresh (live : s.KittyLive row a) (count : Nat) : s.kittyDecode row {} (List.range' a (count + 1)) =
    (a :: (List.range' (a + 1) count).takeWhile fun m => decide (s.KittyJoins row a m)).map (s.kittyCellOf row a) := by
  obtain ⟨builder, reached, pushed⟩ := kittyPush_fresh live
  rw [List.range'_succ, kittyDecode, pushed, List.map_cons]
  rw [← Nat.sub_self a] at reached
  exact congrArg _ (kittyDecode_next reached live (Nat.le_refl a) count)

theorem kittyDecode_dead (dead : ¬s.KittyLive row a) (count : Nat) : s.kittyDecode row {} (List.range' a (count + 1)) = [] := by
  have none_ := @kittyPush_dead s row a {} dead
  rw [List.range'_succ, kittyDecode]
  split
  next pushed => rw [pushed] at none_; cases none_
  next => rfl

theorem live_of_spans (spans : Runs.Spans (s.KittyJoins row) a k) (less : a < k) : s.KittyLive row a ∧ s.KittyLive row k :=
  (spans k (Nat.le_refl k) less).live

section TakeWhile

variable {p : Nat → Bool} {lo m count : Nat}

theorem le_length_takeWhile_range' (le : m ≤ count) (all : ∀ i < lo + m, lo ≤ i → p i = true) :
    m ≤ ((List.range' lo count).takeWhile p).length := by
  induction count generalizing lo m with
  | zero => omega
  | succ count ih =>
    cases m with
    | zero => exact Nat.zero_le _
    | succ m =>
      rw [List.range'_succ, List.takeWhile_cons, if_pos (all lo (by omega) (Nat.le_refl lo)), List.length_cons]
      exact Nat.succ_le_succ (ih (by omega) fun i less after => all i (by omega) (by omega))

theorem takeWhile_range'_eq (le : m ≤ count) (all : ∀ i < lo + m, lo ≤ i → p i = true) (stop : m < count → p (lo + m) = false) :
    (List.range' lo count).takeWhile p = List.range' lo m := by
  induction count generalizing lo m with
  | zero =>
    obtain rfl : m = 0 := by omega
    rfl
  | succ count ih =>
    rw [List.range'_succ, List.takeWhile_cons]
    cases m with
    | zero =>
      rw [if_neg (by simpa using stop (Nat.succ_pos count))]
      rfl
    | succ m =>
      rw [if_pos (all lo (by omega) (Nat.le_refl lo)), List.range'_succ]
      refine congrArg _ (ih (by omega) (fun i less after => all i (by omega) (by omega)) fun less => ?_)
      rw [show lo + 1 + m = lo + (m + 1) by omega]
      exact stop (by omega)

theorem length_takeWhile_range'_eq_iff :
    ((List.range' lo count).takeWhile p).length = count ↔ ∀ i < lo + count, lo ≤ i → p i = true := by
  constructor
  · intro whole i less after
    have same : (List.range' lo count).takeWhile p = List.range' lo count :=
      (List.takeWhile_prefix p).eq_of_length (whole.trans List.length_range'.symm)
    exact List.takeWhile_eq_self_iff.mp same i (List.mem_range'_1.mpr ⟨after, less⟩)
  · intro all
    have most := (List.takeWhile_prefix p (l := List.range' lo count)).length_le
    rw [List.length_range'] at most
    exact Nat.le_antisymm most (le_length_takeWhile_range' (Nat.le_refl count) all)

end TakeWhile

theorem kittyRunCovers_iff (less : a < k) (inside : k < s.screensActive.cols) :
    s.kittyRunCovers row a k = true ↔ Runs.Spans (s.KittyJoins row) a k := by
  unfold kittyRunCovers
  dsimp only
  rw [if_neg (by omega), decide_eq_true_iff, show k + 1 - a = k - a + 1 by omega]
  by_cases live : s.KittyLive row a
  · rw [kittyDecode_fresh live, List.length_map, List.length_cons, Nat.succ_inj, length_takeWhile_range'_eq_iff]
    simp only [decide_eq_true_iff]
    constructor
    · exact fun joins m le after => joins m (by omega) after
    · exact fun spans m below after => spans m (by omega) after
  · rw [kittyDecode_dead live]
    exact iff_of_false (Nat.succ_ne_zero _ ∘ Eq.symm) fun spans => live (live_of_spans spans less).1

theorem kittyRunStart_eq (inside : k < s.screensActive.cols) {c : Nat} (le : c ≤ k) :
    s.kittyRunStart row k c = Runs.back (s.KittyJoins row) k c := by
  induction c with
  | zero => rfl
  | succ c ih =>
    unfold kittyRunStart Runs.back
    exact if_congr (kittyRunCovers_iff (by omega) inside) (ih (by omega)) rfl

variable (s row) in
def kittyRunFrom (a : Nat) : KittyUnicodeRunCells :=
  ((a :: (List.range' (a + 1) (s.screensActive.cols - (a + 1))).takeWhile fun m => decide (s.KittyJoins row a m)).map
    (s.kittyCellOf row a), runKey (s.kittyCellOf row a a))

theorem kittyUnicodeRunAt_eq (bound : row < s.screensActive.lines.length) (inside : k < s.screensActive.cols)
    (live : s.KittyLive row k) : s.kittyUnicodeRunAt row k = some (s.kittyRunFrom row (Runs.back (s.KittyJoins row) k k)) := by
  obtain ⟨le, spans, _⟩ := Runs.back_eq_iff.mp (rfl : Runs.back (s.KittyJoins row) k k = _)
  unfold kittyUnicodeRunAt
  dsimp only
  rw [if_neg (by omega), if_neg (by simpa [KittyLive] using live), kittyRunStart_eq inside (Nat.le_refl k)]
  generalize Runs.back (s.KittyJoins row) k k = a at le spans ⊢
  have reach : Runs.Spans (s.KittyJoins row) a k := by
    by_cases less : a < k
    · exact spans a less (Nat.le_refl a)
    · exact fun m small after => by omega
  have start : s.KittyLive row a := by
    by_cases less : a < k
    · exact (live_of_spans reach less).1
    · rwa [show a = k by omega]
  have length : k - a ≤ ((List.range' (a + 1) (s.screensActive.cols - (a + 1))).takeWhile
      fun m => decide (s.KittyJoins row a m)).length :=
    le_length_takeWhile_range' (by omega) fun m small after => decide_eq_true (reach m (by omega) (by omega))
  rw [show s.screensActive.cols - a = s.screensActive.cols - (a + 1) + 1 by omega, kittyDecode_fresh start, List.map_cons]
  dsimp only
  rw [if_neg]
  · rfl
  · rw [List.length_cons, List.length_map]
    omega

theorem kittyRunFrom_eq (le : a ≤ k) (inside : k < s.screensActive.cols) (spans : Runs.Spans (s.KittyJoins row) a k)
    (stop : k + 1 < s.screensActive.cols → ¬s.KittyJoins row a (k + 1)) : s.kittyRunFrom row a = s.kittySegment row a k := by
  unfold kittyRunFrom kittySegment
  rw [takeWhile_range'_eq (m := k - a) (by omega), show k + 1 - a = k - a + 1 by omega, List.range'_succ]
  · exact fun m small after => decide_eq_true (spans m (by omega) (by omega))
  · intro less
    rw [show a + 1 + (k - a) = k + 1 by omega]
    exact decide_eq_false (stop (by omega))

variable (s row) in
def KittyEnds (k : Nat) : Prop :=
  s.KittyLive row k ∧ (k + 1 < s.screensActive.cols → ¬s.KittyJoins row (Runs.start (s.KittyJoins row) k) (k + 1))

instance : DecidablePred (s.KittyEnds row) := fun k => by
  unfold KittyEnds
  infer_instance

variable (s row) in
structure KittyScanned (c : Nat) (loop : List KittyUnicodeRunCells × KittyRunBuilder × List KittyUnicodeCell) : Prop where
  runs : loop.1 = ((List.range c).filter fun k => decide (s.KittyEnds row k)).map fun k =>
    s.kittySegment row (Runs.start (s.KittyJoins row) k) k
  live : s.KittyLive row c → loop.2.2 = (s.kittySegment row (Runs.start (s.KittyJoins row) c) c).1 ∧
    loop.2.1.Reached (s.screensActive.get row (Runs.start (s.KittyJoins row) c)) (c - Runs.start (s.KittyJoins row) c)
  dead : ¬s.KittyLive row c → loop.2.2 = [] ∧ loop.2.1 = {}

theorem start_eq_of_dead (dead : ¬s.KittyLive row k) : Runs.start (s.KittyJoins row) k = k := by
  have le : Runs.start (s.KittyJoins row) k ≤ k := Runs.start_le k
  by_contra other
  exact dead (live_of_spans (Runs.spans_start k) (by omega)).2

theorem start_live (live : s.KittyLive row k) : s.KittyLive row (Runs.start (s.KittyJoins row) k) := by
  have le : Runs.start (s.KittyJoins row) k ≤ k := Runs.start_le k
  by_cases less : Runs.start (s.KittyJoins row) k < k
  · exact (live_of_spans (Runs.spans_start k) less).1
  · rwa [show Runs.start (s.KittyJoins row) k = k by omega]

theorem kittySegment_self (a : Nat) : (s.kittySegment row a a).1 = [s.kittyCellOf row a a] := by
  unfold kittySegment
  rw [show a + 1 - a = 1 by omega]
  rfl

theorem kittySegment_succ (le : a ≤ k) : (s.kittySegment row a (k + 1)).1 = (s.kittySegment row a k).1 ++ [s.kittyCellOf row a (k + 1)] := by
  unfold kittySegment
  dsimp only
  rw [show k + 1 + 1 - a = k + 1 - a + 1 by omega, List.range'_1_concat, List.map_append, show a + (k + 1 - a) = k + 1 by omega]
  rfl

theorem kittyFlush_segment (le : a ≤ k) (runs : List KittyUnicodeRunCells) :
    kittyFlush (s.kittySegment row a k).1 runs = runs ++ [s.kittySegment row a k] := by
  unfold kittySegment
  dsimp only
  rw [show k + 1 - a = k - a + 1 by omega, List.range'_succ]
  rfl

theorem KittyScanned.fresh {runs : List KittyUnicodeRunCells} (head : Runs.start (s.KittyJoins row) k = k)
    (finished : runs = ((List.range k).filter fun k => decide (s.KittyEnds row k)).map fun k =>
      s.kittySegment row (Runs.start (s.KittyJoins row) k) k) :
    (s.KittyLive row k → ∃ builder, s.kittyPush row k {} = (some (s.kittyCellOf row k k), builder) ∧
      KittyScanned s row k (runs, builder, [s.kittyCellOf row k k])) ∧
    (¬s.KittyLive row k → KittyScanned s row k (runs, {}, [])) := by
  refine ⟨fun live => ?_, fun dead => ⟨finished, fun live => absurd live dead, fun _ => ⟨rfl, rfl⟩⟩⟩
  obtain ⟨builder, reached, pushed⟩ := kittyPush_fresh live
  refine ⟨builder, pushed, finished, fun _ => ?_, fun dead => absurd live dead⟩
  rw [head, Nat.sub_self]
  exact ⟨(kittySegment_self k).symm, reached⟩

theorem filter_ends_succ (c : Nat) : ((List.range (c + 1)).filter fun k => decide (s.KittyEnds row k)) =
    ((List.range c).filter fun k => decide (s.KittyEnds row k)) ++ if s.KittyEnds row c then [c] else [] := by
  rw [List.range_succ, List.filter_append, List.filter_singleton]
  by_cases ends : s.KittyEnds row c
  · simp [ends]
  · simp [ends]

/-- One column of the row decoder. -/
theorem KittyScanned.step {c : Nat} {loop : List KittyUnicodeRunCells × KittyRunBuilder × List KittyUnicodeCell}
    (scanned : KittyScanned s row c loop) (inside : c + 1 < s.screensActive.cols) :
    KittyScanned s row (c + 1) (s.kittyRowStep row loop (c + 1)) := by
  obtain ⟨runs, builder, current⟩ := loop
  have le : Runs.start (s.KittyJoins row) c ≤ c := Runs.start_le c
  have finished := scanned.runs
  dsimp only at finished
  by_cases live : s.KittyLive row c
  · obtain ⟨open_, reached⟩ := scanned.live live
    dsimp only at open_ reached
    by_cases joins : s.KittyJoins row (Runs.start (s.KittyJoins row) c) (c + 1)
    · obtain ⟨builder', reached', pushed⟩ := kittyPush_next reached (start_live live) le joins
      have goesOn : ¬s.KittyEnds row c := fun ends => ends.2 inside joins
      have same := Runs.start_succ_of_joins joins
      refine ⟨?_, fun _ => ?_, fun dead => absurd joins.live.2 dead⟩
      · unfold kittyRowStep
        dsimp only
        rw [pushed, filter_ends_succ, if_neg goesOn, List.append_nil]
        exact finished
      · unfold kittyRowStep
        dsimp only
        rw [pushed, same, kittySegment_succ le, open_]
        exact ⟨rfl, reached'⟩
    · have broken := kittyPush_break reached (start_live live) le joins
      have ends : s.KittyEnds row c := ⟨live, fun _ => joins⟩
      have head := Runs.start_succ_of_not_joins joins
      have closed : kittyFlush current runs = ((List.range (c + 1)).filter fun k => decide (s.KittyEnds row k)).map fun k =>
          s.kittySegment row (Runs.start (s.KittyJoins row) k) k := by
        rw [filter_ends_succ, if_pos ends, List.map_append, open_, kittyFlush_segment le, finished]
        rfl
      obtain ⟨starts, rests⟩ := KittyScanned.fresh head closed
      unfold kittyRowStep
      dsimp only
      split
      next pushed => rw [pushed] at broken; cases broken
      next =>
        split
        next next_ =>
          obtain ⟨builder', pushed, scanned'⟩ := starts next_
          rw [pushed]
          exact scanned'
        next next_ => exact rests next_
  · obtain ⟨none_, new⟩ := scanned.dead live
    dsimp only at none_ new
    subst none_ new
    have head : Runs.start (s.KittyJoins row) (c + 1) = c + 1 :=
      Runs.start_succ_of_not_joins fun joins => live (by rw [start_eq_of_dead live] at joins; exact joins.live.1)
    have closed : runs = ((List.range (c + 1)).filter fun k => decide (s.KittyEnds row k)).map fun k =>
        s.kittySegment row (Runs.start (s.KittyJoins row) k) k := by
      rw [filter_ends_succ, if_neg fun ends => live ends.1, List.append_nil]
      exact finished
    obtain ⟨starts, rests⟩ := KittyScanned.fresh head closed
    unfold kittyRowStep
    dsimp only
    by_cases next_ : s.KittyLive row (c + 1)
    · obtain ⟨builder', pushed, scanned'⟩ := starts next_
      rw [pushed]
      exact scanned'
    · have none_ := @kittyPush_dead s row (c + 1) {} next_
      split
      next pushed => rw [pushed] at none_; cases none_
      next =>
        unfold KittyLive at next_
        rw [if_neg next_]
        exact rests next_

theorem KittyScanned.zero : KittyScanned s row 0 (s.kittyRowStep row ([], {}, []) 0) := by
  obtain ⟨starts, rests⟩ := @KittyScanned.fresh s row 0 [] rfl rfl
  unfold kittyRowStep
  dsimp only
  by_cases live : s.KittyLive row 0
  · obtain ⟨builder, pushed, scanned⟩ := starts live
    rw [pushed]
    exact scanned
  · have none_ := @kittyPush_dead s row 0 {} live
    split
    next pushed => rw [pushed] at none_; cases none_
    next =>
      unfold KittyLive at live
      rw [if_neg live]
      exact rests live

theorem KittyScanned.foldl {c : Nat} (inside : c < s.screensActive.cols) :
    KittyScanned s row c ((List.range (c + 1)).foldl (s.kittyRowStep row) ([], {}, [])) := by
  induction c with
  | zero => exact .zero
  | succ c ih =>
    rw [List.range_succ, List.foldl_append]
    exact (ih (by omega)).step inside

theorem kittyUnicodeRunsOnRow_eq (bound : row < s.screensActive.lines.length) : s.kittyUnicodeRunsOnRow row =
    ((List.range s.screensActive.cols).filter fun k => decide (s.KittyEnds row k)).map fun k =>
      s.kittySegment row (Runs.start (s.KittyJoins row) k) k := by
  unfold kittyUnicodeRunsOnRow
  rw [if_neg (by omega)]
  cases size : s.screensActive.cols with
  | zero => rfl
  | succ c =>
    have scanned := @KittyScanned.foldl s row c (by omega)
    obtain ⟨runs, live, dead⟩ := scanned
    generalize (List.range (c + 1)).foldl (s.kittyRowStep row) ([], {}, []) = loop at runs live dead ⊢
    obtain ⟨done, builder, current⟩ := loop
    dsimp only at runs live dead ⊢
    rw [filter_ends_succ]
    by_cases last : s.KittyLive row c
    · have ends : s.KittyEnds row c := ⟨last, fun more => by omega⟩
      rw [if_pos ends, (live last).1, kittyFlush_segment (Runs.start_le c), List.map_append, runs]
      rfl
    · rw [if_neg fun ends => last ends.1, (dead last).1, List.append_nil, ← runs]
      rfl

def kittyRunContains (run : KittyUnicodeRunCells) (col : Nat) : Bool := run.1.any (·.gridCol == col)

theorem kittySegment_contains {b col : Nat} (le : a ≤ b) :
    kittyRunContains (s.kittySegment row a b) col = true ↔ a ≤ col ∧ col ≤ b := by
  unfold kittyRunContains kittySegment
  simp only [List.any_map, List.any_eq_true, List.mem_range'_1, Function.comp_apply, kittyCellOf, beq_iff_eq]
  constructor
  · rintro ⟨k, inside, rfl⟩
    omega
  · exact fun inside => ⟨col, by omega, rfl⟩

theorem exists_kittyEnds {n : Nat} (live : s.KittyLive row k) (size : k + n + 1 = s.screensActive.cols) :
    ∃ b < s.screensActive.cols, k ≤ b ∧ s.KittyEnds row b ∧ Runs.start (s.KittyJoins row) b = Runs.start (s.KittyJoins row) k := by
  induction n generalizing k with
  | zero => exact ⟨k, by omega, Nat.le_refl k, ⟨live, fun more => by omega⟩, rfl⟩
  | succ n ih =>
    by_cases joins : s.KittyJoins row (Runs.start (s.KittyJoins row) k) (k + 1)
    · obtain ⟨b, inside, le, ends, same⟩ := ih joins.live.2 (by omega)
      exact ⟨b, inside, by omega, ends, same.trans (Runs.start_succ_of_joins joins)⟩
    · exact ⟨k, by omega, Nat.le_refl k, ⟨live, fun _ => joins⟩, rfl⟩

theorem find_kittyUnicodeRunsOnRow (bound : row < s.screensActive.lines.length) (inside : k < s.screensActive.cols)
    (live : s.KittyLive row k) : (s.kittyUnicodeRunsOnRow row).find? (kittyRunContains · k) =
      some (s.kittyRunFrom row (Runs.start (s.KittyJoins row) k)) := by
  obtain ⟨b, below, le, ends, same⟩ := exists_kittyEnds (n := s.screensActive.cols - (k + 1)) live (by omega)
  have first : Runs.start (s.KittyJoins row) k ≤ k := Runs.start_le k
  have run : s.kittyRunFrom row (Runs.start (s.KittyJoins row) b) = s.kittySegment row (Runs.start (s.KittyJoins row) b) b :=
    kittyRunFrom_eq (Runs.start_le b) below (Runs.spans_start b) ends.2
  have found : (List.range s.screensActive.cols).find? (fun j => decide (s.KittyEnds row j) &&
      kittyRunContains (s.kittySegment row (Runs.start (s.KittyJoins row) j) j) k) = some b := by
    rw [List.find?_range_eq_some]
    refine ⟨?_, List.mem_range.mpr below, fun j before => ?_⟩
    · rw [Bool.and_eq_true, kittySegment_contains (Runs.start_le b), same]
      exact ⟨decide_eq_true ends, first, le⟩
    · rw [Bool.not_eq_true', Bool.and_eq_false_imp, ← Bool.not_eq_true, kittySegment_contains (Runs.start_le j)]
      rintro other ⟨low, high⟩
      have here : Runs.start (s.KittyJoins row) j = Runs.start (s.KittyJoins row) b :=
        Runs.start_eq_of_mem j (by omega) (by omega)
      have next : Runs.start (s.KittyJoins row) (j + 1) = Runs.start (s.KittyJoins row) b :=
        Runs.start_eq_of_mem (j + 1) (by omega) (by omega)
      have apart := (of_decide_eq_true other).2 (by omega)
      rw [Runs.start_succ_of_not_joins apart] at next
      omega
  rw [kittyUnicodeRunsOnRow_eq bound, List.find?_map, List.find?_filter]
  have found' : (List.range s.screensActive.cols).find? (fun j => decide (decide (s.KittyEnds row j) = true ∧
      ((kittyRunContains · k) ∘ fun j => s.kittySegment row (Runs.start (s.KittyJoins row) j) j) j = true)) = some b := by
    rw [← found]
    congr 1
    funext j
    rw [Bool.decide_and, Bool.decide_eq_true, Bool.decide_eq_true]
    rfl
  rw [found', Option.map_some, ← run, same]

theorem find_kittyUnicodeRunsOnRow_dead (bound : row < s.screensActive.lines.length)
    (dead : ¬(k < s.screensActive.cols ∧ s.KittyLive row k)) : (s.kittyUnicodeRunsOnRow row).find? (kittyRunContains · k) = none := by
  rw [kittyUnicodeRunsOnRow_eq bound, List.find?_eq_none]
  intro run member
  obtain ⟨b, ends, rfl⟩ := List.mem_map.mp member
  obtain ⟨inside, ends⟩ := List.mem_filter.mp ends
  have live := (of_decide_eq_true ends).1
  rw [kittySegment_contains (Runs.start_le b)]
  rintro ⟨low, high⟩
  refine dead ⟨by have bound := List.mem_range.mp inside; omega, ?_⟩
  have same := Runs.start_eq_of_mem k low high
  by_cases less : Runs.start (s.KittyJoins row) b < k
  · rw [← same] at less
    exact (live_of_spans (Runs.spans_start k) less).2
  · rw [← show Runs.start (s.KittyJoins row) b = k by omega]
    exact start_live live

theorem kittyRunFrom_injective {b : Nat} (same : s.kittyRunFrom row a = s.kittyRunFrom row b) : a = b := by
  have heads := congrArg (fun run => run.1.head?.map (·.gridCol)) same
  exact Option.some.inj heads

/-- A column lies in no run of the row exactly when the query finds none. The query finds the run of the row at every
column exactly when what a placeholder predicts does not depend on the cell of its run that is decoded on its own. -/
theorem kitty_runs_agree_iff (s : State) (row : Nat) :
    (∀ col, s.kittyUnicodeRunAt row col = none ↔ ∀ run ∈ s.kittyUnicodeRunsOnRow row, kittyRunContains run col = false) ∧
    ((∀ col, s.kittyUnicodeRunAt row col = (s.kittyUnicodeRunsOnRow row).find? (kittyRunContains · col)) ↔
      (row < s.screensActive.lines.length → Runs.Coherent (s.KittyJoins row) s.screensActive.cols)) := by
  have nowhere (col : Nat) (dead : ¬(row < s.screensActive.lines.length ∧ col < s.screensActive.cols ∧ s.KittyLive row col)) :
      s.kittyUnicodeRunAt row col = none ∧ (s.kittyUnicodeRunsOnRow row).find? (kittyRunContains · col) = none := by
    constructor
    · unfold kittyUnicodeRunAt
      dsimp only
      split
      · rfl
      next inside => exact if_pos (by simpa [KittyLive] using fun live => dead ⟨by omega, by omega, live⟩)
    · by_cases bound : row < s.screensActive.lines.length
      · exact find_kittyUnicodeRunsOnRow_dead bound fun live => dead ⟨bound, live⟩
      · unfold kittyUnicodeRunsOnRow
        rw [if_pos (by omega)]
        rfl
  refine ⟨fun col => ?_, ?_⟩
  · have absent : (∀ run ∈ s.kittyUnicodeRunsOnRow row, kittyRunContains run col = false) ↔
        (s.kittyUnicodeRunsOnRow row).find? (kittyRunContains · col) = none := by
      rw [List.find?_eq_none]
      simp only [Bool.not_eq_true]
    rw [absent]
    by_cases live : row < s.screensActive.lines.length ∧ col < s.screensActive.cols ∧ s.KittyLive row col
    · rw [kittyUnicodeRunAt_eq live.1 live.2.1 live.2.2, find_kittyUnicodeRunsOnRow live.1 live.2.1 live.2.2]
      exact iff_of_false nofun nofun
    · exact iff_of_true (nowhere col live).1 (nowhere col live).2
  · constructor
    · intro agree bound
      refine Runs.back_eq_start_iff.mp fun k inside => ?_
      by_cases live : s.KittyLive row k
      · have same := agree k
        rw [kittyUnicodeRunAt_eq bound inside live, find_kittyUnicodeRunsOnRow bound inside live] at same
        exact kittyRunFrom_injective (Option.some.inj same)
      · rw [start_eq_of_dead live, Runs.back_eq_iff]
        refine ⟨Nat.le_refl k, fun j less le => by omega, ?_⟩
        by_cases zero : k = 0
        · exact .inl zero
        · exact .inr fun spans => live (live_of_spans spans (by omega)).2
    · intro coherent col
      by_cases live : row < s.screensActive.lines.length ∧ col < s.screensActive.cols ∧ s.KittyLive row col
      · rw [kittyUnicodeRunAt_eq live.1 live.2.1 live.2.2, find_kittyUnicodeRunsOnRow live.1 live.2.1 live.2.2,
          Runs.back_eq_start_iff.mpr (coherent live.1) col live.2.1]
      · rw [(nowhere col live).1, (nowhere col live).2]

/-- Three placeholders of which the second has no marks: the row has one run, and the query at the third column finds the
third cell alone. -/
theorem kitty_runs_disagree :
    let placeholder : TerminalAction := .print KITTY_PLACEHOLDER
    let mark (cp : Nat) : TerminalAction := .print (Char.ofNat cp)
    let s := (withScrollbackLines 10).applyAll narrowTables
      [placeholder, mark 0x0305, mark 0x033D, placeholder, placeholder, mark 0x0305, mark 0x033F]
    (s.kittyUnicodeRunsOnRow 0).map (fun run => run.1.map (·.gridCol)) = [[0, 1, 2]] ∧
      (s.kittyUnicodeRunAt 0 2).map (fun run => run.1.map (·.gridCol)) = some [2] ∧
      ¬∀ col, s.kittyUnicodeRunAt 0 col = (s.kittyUnicodeRunsOnRow 0).find? (kittyRunContains · col) := by
  refine ⟨by decide, by decide, fun agree => ?_⟩
  exact absurd (agree 2) (by decide)

end State

end Bitty.Screen
