import Bitty.Term.Buffer.Rowwise
import Bitty.Ui.Highlight
import Bitty.Ui.Truthful

/-! The copy of a selection that was lifted from the screen, beside the copy of the selection itself. -/

namespace Bitty.Ui

open Bitty.Term

section

variable {cells : List Cell}

theorem mem_plainText {ch : Char} (member : ch ∈ plainText cells) : ∃ cell ∈ cells, ch ∈ cell.text := by
  obtain ⟨cell, inFilter, inText⟩ := List.mem_flatMap.mp member
  exact ⟨cell, (List.mem_filter.mp inFilter).1, inText⟩

def between (cells : List Cell) (a e : Nat) : Text := plainText ((cells.drop a).take (e - a))

theorem between_append {a b e : Nat} (left : a ≤ b) (right : b ≤ e) :
    between cells a e = between cells a b ++ between cells b e := by
  have parts : e - a = (b - a) + (e - b) := by omega
  have later : (cells.drop a).drop (b - a) = cells.drop b := by
    rw [List.drop_drop]
    congr 1
    omega
  rw [between, between, between, parts, List.take_add, plainText_append, later]

theorem between_single {c : Nat} {cell : Cell} (found : cells[c]? = some cell) :
    between cells c (c + 1) = if cell.spacer then [] else cell.text := by
  have short := (List.getElem?_eq_some_iff.mp found).1
  have here : cells.drop c = cell :: cells.drop (c + 1) := by
    rw [List.drop_eq_getElem_cons short]
    congr 1
    exact (List.getElem?_eq_some_iff.mp found).2
  rw [between, here, Nat.add_sub_cancel_left, List.take_succ_cons, List.take_zero, plainText_cons, plainText_nil,
    List.append_nil]

theorem lineText_eq (closed : LeadsClosed cells) (a e : Nat) : lineText cells a e =
    if cells.length - 1 ≤ e then (between cells a (e + 1)).rdropWhile (· = ' ') else between cells a (e + 1) := by
  rw [lineText, spanText_eq (closed.drop a) _ _ (fun h => by cases h)]
  rfl

theorem Cell.text_ne_nil (cell : Cell) : cell.text ≠ [] := by
  unfold Bitty.Term.Cell.text
  split <;> simp

theorem rdropWhile_append {xs ys : Text} (solid : xs.getLast? ≠ some ' ') (some : xs ≠ []) :
    (xs ++ ys).rdropWhile (· = ' ') = xs ++ ys.rdropWhile (· = ' ') := by
  induction ys using List.reverseRecOn with
  | nil =>
    rw [List.append_nil, List.rdropWhile_nil, List.append_nil, List.rdropWhile_eq_self_iff]
    intro _ blank
    refine solid ?_
    rw [List.getLast?_eq_some_getLast some]
    simpa using blank
  | append_singleton ys y ih =>
    rw [← List.append_assoc, List.rdropWhile_concat, List.rdropWhile_concat]
    split
    · exact ih
    · rw [List.append_assoc]

def Solid (cells : List Cell) : Prop :=
  ∀ cell ∈ cells, cell.width = 2 → cell.spacer = false → cell.text.getLast? ≠ some ' '

variable (paired : WidePaired cells) (solid : Solid cells)

include paired solid

theorem lineText_lead {a e : Nat} {half : Cell} (found : cells[e + 1]? = some half) (second : half.spacer = true)
    (le : a ≤ e) : lineText cells a (e + 1) = lineText cells a e := by
  have closed : LeadsClosed cells := fun c first => paired.spacer
  obtain ⟨b, first, eq, there, wide, plain⟩ := paired.lead found second
  obtain rfl : e = b := by omega
  have none : between cells (e + 1) (e + 1 + 1) = [] := by
    rw [between_single found, if_pos second]
  have same : between cells a (e + 1 + 1) = between cells a (e + 1) := by
    rw [between_append (Nat.le_succ_of_le le) (Nat.le_succ _), none, List.append_nil]
  have ends : between cells a (e + 1) = between cells a e ++ first.text := by
    rw [between_append le (Nat.le_succ _), between_single there, plain, if_neg Bool.false_ne_true]
  have kept : (between cells a (e + 1)).rdropWhile (· = ' ') = between cells a (e + 1) := by
    rw [ends, List.rdropWhile_eq_self_iff]
    intro some blank
    refine solid first (List.mem_of_getElem? there) wide plain ?_
    rw [List.getLast_append_of_ne_nil _ (Cell.text_ne_nil first)] at blank
    rw [List.getLast?_eq_some_getLast (Cell.text_ne_nil first)]
    simpa using blank
  rw [lineText_eq closed, lineText_eq closed, same, kept]
  split_ifs <;> rfl

theorem lineText_half {b e : Nat} {half : Cell} (found : cells[b + 1]? = some half) (second : half.spacer = true)
    (le : b + 1 ≤ e) : lineText cells b e ≠ lineText cells (b + 1) e := by
  have closed : LeadsClosed cells := fun c first => paired.spacer
  obtain ⟨b', first, eq, there, wide, plain⟩ := paired.lead found second
  obtain rfl : b = b' := by omega
  have more : between cells b (e + 1) = first.text ++ between cells (b + 1) (e + 1) := by
    rw [between_append (Nat.le_succ b) (by omega), between_single there, plain, if_neg Bool.false_ne_true]
  have some := Cell.text_ne_nil first
  have longer : ∀ xs : Text, first.text ++ xs ≠ xs := fun xs same => some (List.append_left_eq_self.mp same)
  rw [lineText_eq closed, lineText_eq closed, more,
    rdropWhile_append (solid first (List.mem_of_getElem? there) wide plain) some]
  split_ifs
  · exact longer _
  · exact longer _

end

namespace Selection

variable {sel : Selection} {snap : Snapshot}

def shown (snap : Snapshot) (row a e : Nat) : Text := between (snap.row row) a e

/-- A rectangle whose edges move off second halves gains on its left, on every row, what it loses on its right; another
selection starts on a first half. -/
def CopiesAlike (sel : Selection) (snap : Snapshot) : Prop :=
  if sel.kind = .block then
    let left := min sel.anchor.col sel.focus.col
    let right := max sel.anchor.col sel.focus.col
    let left' := min (snapToLeading snap sel.anchor).col (snapToLeading snap sel.focus).col
    let right' := max (snapToLeading snap sel.anchor).col (snapToLeading snap sel.focus).col
    ∀ row, sel.firstRow ≤ row → row ≤ sel.lastRow →
      shown snap row left' left ++ shown snap row left (right' + 1) =
        shown snap row left (right' + 1) ++ shown snap row (right' + 1) (right + 1)
  else Leading snap sel.normalized.start

def rangeLine (snap : Snapshot) (range : SelectionRange) (row : Nat) : Text :=
  lineText (snap.row row) (if row = range.start.row then range.start.col else 0)
    (if row = range.stop.row then range.stop.col else snap.width - 1)

def blockLine (snap : Snapshot) (a b row : Nat) : Text :=
  spanText ((snap.row row).drop (min a b)) (max a b + 1 - min a b) false

theorem normalized_snapped (paired : snap.Paired) (anchor : Inside snap sel.anchor) (focus : Inside snap sel.focus) :
    (sel.snapped (some snap)).normalized =
      ⟨snapToLeading snap sel.normalized.start, snapToLeading snap sel.normalized.stop⟩ := by
  obtain ⟨_, rowA, colA⟩ := anchor.snapped paired
  obtain ⟨_, rowB, colB⟩ := focus.snapped paired
  change SelectionRange.new (snapToLeading snap sel.anchor) (snapToLeading snap sel.focus) =
    ⟨snapToLeading snap (SelectionRange.new sel.anchor sel.focus).start,
      snapToLeading snap (SelectionRange.new sel.anchor sel.focus).stop⟩
  unfold SelectionRange.new
  by_cases order : sel.anchor.before sel.focus
  · rw [if_pos order]
    split_ifs with kept
    · rfl
    · -- They stand in one row, and the first moved onto the second.
      have same : snapToLeading snap sel.anchor = snapToLeading snap sel.focus := by
        by_cases eq : sel.anchor = sel.focus
        · rw [eq]
        · exfalso
          simp only [CellPos.before, Bool.or_eq_true, Bool.and_eq_true, decide_eq_true_eq] at order kept
          rw [CellPos.ext_iff] at eq
          omega
      rw [same]
  · rw [if_neg order]
    split_ifs with swapped
    · have same : snapToLeading snap sel.anchor = snapToLeading snap sel.focus := by
        simp only [CellPos.before, Bool.or_eq_true, Bool.and_eq_true, decide_eq_true_eq] at order swapped
        ext
        · omega
        · omega
      rw [same]
    · rfl

variable (paired : snap.Paired) (anchor : Inside snap sel.anchor) (focus : Inside snap sel.focus)

include paired anchor focus

theorem text_eq_range (kind : sel.kind ≠ .block) : sel.text snap = List.intercalate ['\n']
    ((List.range' sel.firstRow (sel.lastRow + 1 - sel.firstRow)).map
      (rangeLine snap (sel.snapped (some snap)).normalized)) := by
  rw [text_eq_lines paired anchor focus]
  congr 1
  refine List.map_congr_left fun row member => ?_
  rw [List.mem_range'_1] at member
  exact (lineText_covered paired anchor focus kind member.1 (by omega)).symm

theorem text_eq_block (kind : sel.kind = .block) : sel.text snap = List.intercalate ['\n']
    ((List.range' sel.firstRow (sel.lastRow + 1 - sel.firstRow)).map
      (blockLine snap (snapToLeading snap sel.anchor).col (snapToLeading snap sel.focus).col)) := by
  rw [text_eq_lines paired anchor focus]
  congr 1
  refine List.map_congr_left fun row member => ?_
  rw [List.mem_range'_1] at member
  exact (spanText_covered paired anchor focus kind member.1 (by omega)).symm

/-- The lines of a range are those of the endpoints as they are exactly when the first is on a first half. -/
theorem rangeLine_snapped_iff (solid : ∀ row < snap.height, Solid (snap.row row)) :
    (∀ row, sel.firstRow ≤ row → row ≤ sel.lastRow →
      rangeLine snap sel.normalized row = rangeLine snap (sel.snapped (some snap)).normalized row) ↔
      Leading snap sel.normalized.start := by
  have rows := SelectionRange.new_rows sel.anchor sel.focus
  have insideStart : Inside snap sel.normalized.start := by
    rcases SelectionRange.new_ends sel.anchor sel.focus with ends | ends
    · exact ends.1 ▸ anchor
    · exact ends.1 ▸ focus
  have insideStop : Inside snap sel.normalized.stop := by
    rcases SelectionRange.new_ends sel.anchor sel.focus with ends | ends
    · exact ends.2 ▸ focus
    · exact ends.2 ▸ anchor
  have ordered : sel.normalized.start.row = sel.normalized.stop.row →
      sel.normalized.start.col ≤ sel.normalized.stop.col := by
    unfold normalized SelectionRange.new CellPos.before
    grind
  obtain ⟨leadStart, rowStart, colStart⟩ := insideStart.snapped paired
  obtain ⟨_, rowStop, colStop⟩ := insideStop.snapped paired
  -- The end of a span may move off a second half, whenever the span starts before it.
  have stopKept : ∀ a, a ≤ (snapToLeading snap sel.normalized.stop).col →
      lineText (snap.row sel.normalized.stop.row) a sel.normalized.stop.col =
        lineText (snap.row sel.normalized.stop.row) a (snapToLeading snap sel.normalized.stop).col := by
    intro a le
    rcases colStop with same | ⟨next, half, found, second⟩
    · rw [same]
    · rw [insideStop.cellAt_eq, ← next] at found
      rw [← next]
      exact lineText_lead (paired _ insideStop.row) (solid _ insideStop.row) found second le
  rw [normalized_snapped paired anchor focus]
  unfold rangeLine
  dsimp only
  rw [rowStart, rowStop]
  constructor
  · intro same
    by_contra half
    rcases colStart with stays | ⟨next, cell, found, second⟩
    · refine half ?_
      have here : snapToLeading snap sel.normalized.start = sel.normalized.start := CellPos.ext rowStart stays
      rw [← here]
      exact leadStart
    · rw [insideStart.cellAt_eq, ← next] at found
      have line := same sel.normalized.start.row (by rw [firstRow]; exact Nat.le_of_eq rows.1.symm)
        (by rw [lastRow]; exact (Nat.le_of_eq rows.1).trans (min_le_max))
      have row := paired _ insideStart.row
      have cellsSolid := solid _ insideStart.row
      have length := Snapshot.length_row insideStart.row
      have width := insideStart.col
      simp only [if_true] at line
      by_cases single : sel.normalized.start.row = sel.normalized.stop.row
      · have below := ordered single
        rw [if_pos single, if_pos single, ← next] at line
        have moved := stopKept (snapToLeading snap sel.normalized.start).col (by omega)
        rw [← single] at moved
        rw [← moved] at line
        exact lineText_half row cellsSolid found second (by omega) line.symm
      · rw [if_neg single, if_neg single, ← next] at line
        exact lineText_half row cellsSolid found second (by omega) line.symm
  · intro leading row above below
    have still := leading.snapToLeading_eq
    rw [still]
    split_ifs with first last last
    · rw [last]
      refine stopKept _ ?_
      have le := ordered (first.symm.trans last)
      rcases colStop with same | ⟨next, half, found, second⟩
      · omega
      · by_contra short
        have eq : sel.normalized.start = sel.normalized.stop := CellPos.ext (first.symm.trans last) (by omega)
        obtain ⟨cell, there, plain⟩ := leading
        rw [eq, found, Option.some.injEq] at there
        rw [← there, second] at plain
        cases plain
    · rfl
    · rw [last]
      exact stopKept 0 (Nat.zero_le _)
    · rfl

omit anchor focus in
theorem blockLine_eq {row : Nat} (inside : row < snap.height) (a b : Nat) :
    blockLine snap a b row = shown snap row (min a b) (max a b + 1) := by
  have closed : LeadsClosed (snap.row row) := fun c first => (paired row inside).spacer
  exact spanText_eq (closed.drop _) _ _ (fun h => by cases h)

theorem blockLine_snapped_iff (kind : sel.kind = .block) :
    (∀ row, sel.firstRow ≤ row → row ≤ sel.lastRow → blockLine snap sel.anchor.col sel.focus.col row =
      blockLine snap (snapToLeading snap sel.anchor).col (snapToLeading snap sel.focus).col row) ↔
      sel.CopiesAlike snap := by
  obtain ⟨_, _, colA⟩ := anchor.snapped paired
  obtain ⟨_, _, colB⟩ := focus.snapped paired
  have low : sel.lastRow < snap.height := by
    have first := anchor.row
    have second := focus.row
    unfold lastRow
    omega
  unfold CopiesAlike
  rw [if_pos kind]
  refine forall_congr' fun row => imp_congr_right fun _ => imp_congr_right fun below => ?_
  have inside : row < snap.height := Nat.lt_of_le_of_lt below low
  rw [blockLine_eq paired inside, blockLine_eq paired inside]
  have grown : shown snap row (min (snapToLeading snap sel.anchor).col (snapToLeading snap sel.focus).col)
      (max (snapToLeading snap sel.anchor).col (snapToLeading snap sel.focus).col + 1) = _ :=
    between_append (b := min sel.anchor.col sel.focus.col) (by omega) (by omega)
  have lost : shown snap row (min sel.anchor.col sel.focus.col) (max sel.anchor.col sel.focus.col + 1) = _ :=
    between_append (b := max (snapToLeading snap sel.anchor).col (snapToLeading snap sel.focus).col + 1)
      (by omega) (by omega)
  rw [grown, lost]
  exact eq_comm

end Selection

namespace PersistentSelection

variable {width height : Nat} {s : State width height} {sel : Selection}

theorem joinRows_screen (narrow : width ≤ MAX_GRID_DIM) (low : height ≤ MAX_GRID_DIM) {first last : Nat} (le : first ≤ last)
    (inside : last < height) (text : Nat → List Cell → Text) :
    joinRows s (s.scrollbackLen + first) (s.scrollbackLen + last) text = List.intercalate ['\n']
      ((List.range' first (last + 1 - first)).map fun row =>
        text (s.scrollbackLen + row) ((s.snapshot narrow low).row row)) := by
  have count : s.scrollbackLen + last + 1 - (s.scrollbackLen + first) = last + 1 - first := by omega
  rw [← flatMap_breaks le, joinRows, count, ← List.map_add_range', List.flatMap_map]
  refine List.flatMap_congr fun row member => ?_
  rw [List.mem_range'_1] at member
  have shown : s.bufferRow (s.scrollbackLen + row) = some ((s.snapshot narrow low).row row) := by
    have cells := State.bufferRow_screen (s := s) ⟨row, by omega⟩
    rw [cells]
    exact congrArg some (State.row_snapshot (s := s) ⟨row, by omega⟩).symm
  simp only [shown, Nat.add_left_cancel_iff]

theorem before_fromGrid : before (fromGridSelection sel s).anchor (fromGridSelection sel s).focus =
    sel.anchor.before sel.focus := by
  change (decide (s.scrollbackLen + sel.anchor.row < s.scrollbackLen + sel.focus.row) ||
    decide (s.scrollbackLen + sel.anchor.row = s.scrollbackLen + sel.focus.row) &&
      decide (sel.anchor.col ≤ sel.focus.col)) = sel.anchor.before sel.focus
  simp only [Nat.add_lt_add_iff_left, Nat.add_left_cancel_iff]
  rfl

theorem ordered_fromGrid (anchor : sel.anchor.row < height) (focus : sel.focus.row < height) :
    (fromGridSelection sel s).orderedBufferEndpoints s =
      some (⟨s.scrollbackLen + sel.normalized.start.row, sel.normalized.start.col⟩,
        ⟨s.scrollbackLen + sel.normalized.stop.row, sel.normalized.stop.col⟩) := by
  rw [orderedBufferEndpoints_of_valid (Lifted.grid sel anchor focus).valid, before_fromGrid]
  unfold Selection.normalized SelectionRange.new
  split_ifs <;> rfl

theorem text_fromGrid (narrow : width ≤ MAX_GRID_DIM) (low : height ≤ MAX_GRID_DIM) (anchor : sel.anchor.row < height)
    (focus : sel.focus.row < height) :
    (fromGridSelection sel s).text s = some (List.intercalate ['\n']
      ((List.range' sel.firstRow (sel.lastRow + 1 - sel.firstRow)).map
        (if sel.kind = .block then Selection.blockLine (s.snapshot narrow low) sel.anchor.col sel.focus.col
          else Selection.rangeLine (s.snapshot narrow low) sel.normalized))) := by
  have rows := SelectionRange.new_rows sel.anchor sel.focus
  have le : sel.firstRow ≤ sel.lastRow := by
    unfold Selection.firstRow Selection.lastRow
    omega
  have inside : sel.lastRow < height := by
    unfold Selection.lastRow
    omega
  have firstRow : sel.normalized.start.row = sel.firstRow := rows.1
  have lastRow : sel.normalized.stop.row = sel.lastRow := rows.2
  have kindSame : (fromGridSelection sel s).kind = sel.kind := rfl
  unfold text blockText
  rw [ordered_fromGrid anchor focus, kindSame, firstRow, lastRow]
  split_ifs with kind
  · have cols : min sel.normalized.start.col sel.normalized.stop.col = min sel.anchor.col sel.focus.col ∧
        max sel.normalized.start.col sel.normalized.stop.col = max sel.anchor.col sel.focus.col := by
      rcases SelectionRange.new_ends sel.anchor sel.focus with ends | ends
      · rw [Selection.normalized, ends.1, ends.2]
        exact ⟨rfl, rfl⟩
      · rw [Selection.normalized, ends.1, ends.2]
        exact ⟨Nat.min_comm _ _, Nat.max_comm _ _⟩
    refine congrArg some ((joinRows_screen narrow low le inside _).trans ?_)
    simp only [cols.1, cols.2]
    rfl
  · refine congrArg some ((joinRows_screen narrow low le inside _).trans ?_)
    congr 1
    refine List.map_congr_left fun row member => ?_
    rw [List.mem_range'_1] at member
    have length : ((s.snapshot narrow low).row row).length = width := Snapshot.length_row (by exact (by omega : row < height))
    simp only [Selection.rangeLine, Nat.add_left_cancel_iff, firstRow, lastRow, length]
    rfl

theorem unbroken_between {cells : List Cell} (unbroken : ∀ cell ∈ cells, '\n' ∉ cell.text) (a e : Nat) :
    '\n' ∉ between cells a e := by
  intro broken
  obtain ⟨cell, member, inText⟩ := mem_plainText broken
  exact unbroken cell (List.mem_of_mem_drop (List.mem_of_mem_take member)) inText

theorem unbroken_lineText {cells : List Cell} (closed : LeadsClosed cells) (unbroken : ∀ cell ∈ cells, '\n' ∉ cell.text)
    (a e : Nat) : '\n' ∉ lineText cells a e := by
  rw [lineText_eq closed]
  split_ifs
  · exact fun broken => unbroken_between unbroken a (e + 1) (List.rdropWhile_prefix _ _ |>.subset broken)
  · exact unbroken_between unbroken a (e + 1)

theorem intercalate_lines_iff {first last : Nat} (le : first ≤ last) {f g : Nat → Text}
    (plainF : ∀ row, first ≤ row → row ≤ last → '\n' ∉ f row) (plainG : ∀ row, first ≤ row → row ≤ last → '\n' ∉ g row) :
    List.intercalate ['\n'] ((List.range' first (last + 1 - first)).map f) =
      List.intercalate ['\n'] ((List.range' first (last + 1 - first)).map g) ↔
      ∀ row, first ≤ row → row ≤ last → f row = g row := by
  have rows : ∀ row, row ∈ List.range' first (last + 1 - first) ↔ first ≤ row ∧ row ≤ last := by
    intro row
    rw [List.mem_range'_1]
    omega
  have some : List.range' first (last + 1 - first) ≠ [] := by
    have count : last + 1 - first ≠ 0 := by omega
    simpa [List.range'_eq_nil_iff] using count
  constructor
  · intro same row above below
    have split := congrArg (List.splitOn '\n') same
    rw [List.splitOn_intercalate, List.splitOn_intercalate] at split
    · exact List.map_inj_left.mp split row ((rows row).mpr ⟨above, below⟩)
    · intro line member
      obtain ⟨r, inRows, rfl⟩ := List.mem_map.mp member
      exact plainG r ((rows r).mp inRows).1 ((rows r).mp inRows).2
    · simpa using some
    · intro line member
      obtain ⟨r, inRows, rfl⟩ := List.mem_map.mp member
      exact plainF r ((rows r).mp inRows).1 ((rows r).mp inRows).2
    · simpa using some
  · intro same
    congr 1
    exact List.map_congr_left fun row member => same row ((rows row).mp member).1 ((rows row).mp member).2

theorem solid_snapshot {narrow : width ≤ MAX_GRID_DIM} {low : height ≤ MAX_GRID_DIM} (intact : s.Intact) {row : Nat}
    (inside : row < height) : Solid ((s.snapshot narrow low).row row) ∧
      ∀ cell ∈ (s.snapshot narrow low).row row, '\n' ∉ cell.text := by
  have cells : (s.snapshot narrow low).row row = _ := State.row_snapshot (s := s) ⟨row, inside⟩
  rw [cells]
  exact ⟨(intact.active ⟨row, inside⟩).solid, (intact.active ⟨row, inside⟩).unbroken⟩

def oneRow : State 3 1 where
  main := fun _ => Row.blank 3
  alt := fun _ => Row.blank 3
  altScreen := false
  scrollback := Scrollback.withMaxLines 0
  scrollRegionTop := 0
  scrollRegionBottom := 0

def wideRow : Row 3 := ⟨⟨#[⟨'中', 2, false, []⟩, ⟨' ', 2, true, []⟩, ⟨' ', 1, false, []⟩], rfl⟩, false⟩

theorem wideRow_intact : wideRow.Intact := by
  refine ⟨by decide, by decide, by decide⟩

def halfway : Selection := ⟨⟨0, 1⟩, ⟨0, 2⟩, .simple, true⟩

end PersistentSelection

end Bitty.Ui
