import Bitty.Term.Buffer.Search
import Bitty.Ui.Extraction
import Bitty.Ui.Viewport

/-! A selection of the cells of a view, lifted to the buffer and brought back. -/

namespace Bitty.Ui

open Bitty.Term

section

variable {cells : List Cell}

def pickedText (cells : List Cell) (picks : Nat → Bool) (c : Nat) : Text :=
  match cells[c]? with
  | some cell => if !cell.spacer && picks c then cell.text else []
  | none => []

theorem textWhere_range {n : Nat} (le : cells.length ≤ n) (picks : Nat → Bool) :
    textWhere cells picks = (List.range n).flatMap (pickedText cells picks) := by
  obtain ⟨k, rfl⟩ := Nat.exists_eq_add_of_le le
  have past : (List.range k).flatMap (fun c => pickedText cells picks (cells.length + c)) = [] := by
    rw [List.flatMap_eq_nil_iff]
    intro c _
    rw [pickedText, List.getElem?_eq_none (Nat.le_add_right _ _)]
  rw [List.range_add, List.flatMap_append, List.flatMap_map, past, List.append_nil]
  rfl

theorem rdropWhile_blanks {xs ys : Text} (blank : ∀ ch ∈ ys, ch = ' ') :
    (xs ++ ys).rdropWhile (· = ' ') = xs.rdropWhile (· = ' ') := by
  induction ys using List.reverseRecOn with
  | nil => rw [List.append_nil]
  | append_singleton ys y ih =>
    have last : decide (y = ' ') = true := decide_eq_true (blank y (by simp))
    rw [← List.append_assoc, List.rdropWhile_concat, if_pos last]
    exact ih fun ch member => blank ch (List.mem_append_left _ member)

end

namespace Selection

variable (sel : Selection)

/-- The positions from one endpoint to the other, in the order of reading, or in the rectangle between them. -/
def spans (pos : CellPos) : Bool :=
  if sel.kind = .block then
    (sel.firstRow ≤ pos.row && pos.row ≤ sel.lastRow) &&
      (min sel.anchor.col sel.focus.col ≤ pos.col && pos.col ≤ max sel.anchor.col sel.focus.col)
  else sel.normalized.contains pos

/-- The line that the cells of a row make; blanks are dropped at the end of one that goes to the last column, except in a
rectangle. -/
def lineOf (cells : List Cell) (row lastCol : Nat) : Text :=
  let line := textWhere cells fun c => sel.spans ⟨row, c⟩
  if sel.kind ≠ .block && sel.spans ⟨row, lastCol⟩ then line.rdropWhile (· = ' ') else line

end Selection

namespace PersistentSelection

variable {width height : Nat} (p : PersistentSelection) (s : State width height)

def positions : Selection := ⟨⟨p.anchor.bufferRow, p.anchor.col⟩, ⟨p.focus.bufferRow, p.focus.col⟩, p.kind, p.active⟩

def OnBuffer (pos : CellPos) : Prop := ∃ cells, s.bufferRow pos.row = some cells ∧ pos.col < cells.length

def Copies (pos : CellPos) : Prop := OnBuffer s pos ∧ p.positions.spans pos

def copiedText : Text :=
  List.intercalate ['\n'] ((List.range' p.positions.firstRow (p.positions.lastRow + 1 - p.positions.firstRow)).map
    fun row => p.positions.lineOf ((s.bufferRow row).getD []) row (width - 1))

/-- The selection of the view, when both endpoints are in its window; they move off second halves of the screen. -/
def toViewSelection (view : View) (narrow : width ≤ MAX_GRID_DIM) (low : height ≤ MAX_GRID_DIM) : Option Selection :=
  if !p.isValid s then none
  else
    let start := viewStart view s
    let stop := start + view.rows
    let inView (bp : BufferPos) : Bool := start ≤ bp.bufferRow && bp.bufferRow < stop
    if !inView p.anchor || !inView p.focus then none
    else
      let toCell (bp : BufferPos) : CellPos := ⟨bp.bufferRow - start, bp.col⟩
      let anchor := snapToLeading (s.snapshot narrow low) (toCell p.anchor)
      let focus := snapToLeading (s.snapshot narrow low) (toCell p.focus)
      let clampVp (q : CellPos) : CellPos := ⟨min q.row (view.rows - 1), min q.col (view.cols - 1)⟩
      some ⟨clampVp anchor, clampVp focus, p.kind, p.active⟩

end PersistentSelection

namespace View

variable {width height : Nat} (view : View) (s : State width height)

def Displays (sel : Selection) (pos : CellPos) : Prop :=
  PersistentSelection.OnBuffer s pos ∧ ∃ r < view.rows, ∃ c < view.cols,
    pos = ⟨view.visibleStart s + r, view.colOffset + c⟩ ∧ sel.spans ⟨r, c⟩

def selectedText (sel : Selection) : Text :=
  List.intercalate ['\n'] ((List.range' sel.firstRow (sel.lastRow + 1 - sel.firstRow)).map
    fun r => sel.lineOf (view.visibleRow s r) r (width - 1 - view.colOffset))

def SpacerAt (pos : CellPos) : Prop := ∃ cell, (view.visibleRow s pos.row)[pos.col]? = some cell ∧ cell.spacer = true

structure InWindow (pos : CellPos) : Prop where
  row : pos.row < view.rows
  bufferRow : PersistentSelection.viewStart view s + pos.row < s.scrollbackLen + height
  col : pos.col < view.cols
  bufferCol : pos.col < width

def Back (pos back : CellPos) : Prop := back = pos ∨ view.SpacerAt s pos ∧ back = ⟨pos.row, pos.col - 1⟩

/-- What is selected is what is shown: the cells that are copied are those that are displayed, and so is their text, and
the endpoints come back. -/
structure Shows (narrow : width ≤ MAX_GRID_DIM) (low : height ≤ MAX_GRID_DIM) (sel : Selection) : Prop where
  cells : ∀ pos, (PersistentSelection.fromViewSelection sel view s).Copies s pos ↔ view.Displays s sel pos
  text : (PersistentSelection.fromViewSelection sel view s).text s = some (view.selectedText s sel)
  back : ∃ back, (PersistentSelection.fromViewSelection sel view s).toViewSelection s view narrow low = some back ∧
    view.Back s sel.anchor back.anchor ∧ view.Back s sel.focus back.focus ∧ back.kind = sel.kind ∧
    back.active = sel.active

def SecondHalf (row col : Nat) : Prop :=
  ∃ cells cell, s.bufferRow row = some cells ∧ cells[col]? = some cell ∧ cell.spacer = true

/-- The row of the screen with the number of the row in the view, or the last one, has a second half at the column of the
position only where the row in the window of the offset has one. -/
def SnapsAlike (pos : CellPos) : Prop :=
  SecondHalf s (s.scrollbackLen + min pos.row (height - 1)) pos.col →
    SecondHalf s (PersistentSelection.viewStart view s + pos.row) pos.col

/-- A line that anchors the view stands where the window of the offset starts, and the window starts at the first column; a
selection of more than one row that is no rectangle is in a view as wide as the screen; and a row of the screen moves an
endpoint only where the displayed row would. -/
structure Matches (sel : Selection) : Prop where
  window : ∀ anchor index, view.scrollAnchor = some anchor → lineIndex s anchor.lineId = some index →
    index = PersistentSelection.viewStart view s
  unshifted : view.colOffset = 0
  wide : sel.kind = .block ∨ sel.anchor.row = sel.focus.row ∨ width ≤ view.cols
  anchor : view.SnapsAlike s sel.anchor
  focus : view.SnapsAlike s sel.focus

end View

namespace Selection

variable {sel : Selection} {pos : CellPos}

theorem spans_block (kind : sel.kind = .block) : sel.spans pos ↔ (sel.firstRow ≤ pos.row ∧ pos.row ≤ sel.lastRow) ∧
    min sel.anchor.col sel.focus.col ≤ pos.col ∧ pos.col ≤ max sel.anchor.col sel.focus.col := by
  unfold spans
  rw [if_pos kind]
  simp only [Bool.and_eq_true, decide_eq_true_eq]

theorem spans_range (kind : sel.kind ≠ .block) : sel.spans pos ↔ (sel.firstRow ≤ pos.row ∧ pos.row ≤ sel.lastRow) ∧
    (pos.row = sel.firstRow → sel.normalized.start.col ≤ pos.col) ∧
    (pos.row = sel.lastRow → pos.col ≤ sel.normalized.stop.col) := by
  have rows := SelectionRange.new_rows sel.anchor sel.focus
  unfold spans
  rw [if_neg kind, SelectionRange.contains_iff, normalized, rows.1, rows.2]
  rfl

theorem spans_row (spans : sel.spans pos) : sel.firstRow ≤ pos.row ∧ pos.row ≤ sel.lastRow := by
  by_cases kind : sel.kind = .block
  · exact ((spans_block kind).mp spans).1
  · exact ((spans_range kind).mp spans).1

theorem normalized_cols {n : Nat} (anchor : sel.anchor.col < n) (focus : sel.focus.col < n) :
    sel.normalized.start.col < n ∧ sel.normalized.stop.col < n := by
  rcases SelectionRange.new_ends sel.anchor sel.focus with ends | ends
  · exact ⟨lt_of_eq_of_lt (congrArg CellPos.col ends.1) anchor, lt_of_eq_of_lt (congrArg CellPos.col ends.2) focus⟩
  · exact ⟨lt_of_eq_of_lt (congrArg CellPos.col ends.1) focus, lt_of_eq_of_lt (congrArg CellPos.col ends.2) anchor⟩

theorem normalized_single (single : sel.firstRow = sel.lastRow) :
    sel.normalized.start.col ≤ sel.normalized.stop.col := by
  unfold firstRow lastRow at single
  unfold normalized SelectionRange.new CellPos.before
  grind

theorem lineOf_range {cells : List Cell} {row width : Nat} (kind : sel.kind ≠ .block) (closed : LeadsClosed cells)
    (length : cells.length = width) (above : sel.firstRow ≤ row) (below : row ≤ sel.lastRow)
    (anchor : sel.anchor.col < width) (focus : sel.focus.col < width) :
    lineText cells (if row = sel.firstRow then sel.normalized.start.col else 0)
      (if row = sel.lastRow then sel.normalized.stop.col else cells.length - 1) = sel.lineOf cells row (width - 1) := by
  obtain ⟨start, stop⟩ := normalized_cols anchor focus
  have edge : sel.spans ⟨row, width - 1⟩ ↔
      cells.length - 1 ≤ if row = sel.lastRow then sel.normalized.stop.col else cells.length - 1 := by
    rw [spans_range kind, length]
    dsimp only
    split_ifs with last
    · exact ⟨fun reaches => reaches.2.2 last, fun le => ⟨⟨above, below⟩, fun _ => by omega, fun _ => le⟩⟩
    · exact ⟨fun _ => le_rfl, fun _ => ⟨⟨above, below⟩, fun _ => by omega, fun h => absurd h last⟩⟩
  have line : textWhere cells (fun c => sel.spans ⟨row, c⟩) =
      between cells (if row = sel.firstRow then sel.normalized.start.col else 0)
        ((if row = sel.lastRow then sel.normalized.stop.col else cells.length - 1) + 1) := by
    rw [between, ← textWhere_window]
    refine textWhere_congr fun c cell found plain => ?_
    have short := (List.getElem?_eq_some_iff.mp found).1
    rw [Bool.eq_iff_iff, spans_range kind]
    simp only [Bool.and_eq_true, decide_eq_true_eq]
    split_ifs <;> omega
  rw [lineText_eq closed, lineOf, line]
  generalize (if row = sel.firstRow then sel.normalized.start.col else 0) = a
  generalize (if row = sel.lastRow then sel.normalized.stop.col else cells.length - 1) = e at edge ⊢
  by_cases reaches : sel.spans ⟨row, width - 1⟩ = true
  · simp [kind, reaches, edge.mp reaches]
  · have short : ¬ cells.length - 1 ≤ e := fun le => reaches (edge.mpr le)
    simp [reaches, short]

theorem lineOf_block {cells : List Cell} {row lastCol : Nat} (kind : sel.kind = .block) (closed : LeadsClosed cells)
    (above : sel.firstRow ≤ row) (below : row ≤ sel.lastRow) :
    spanText (cells.drop (min sel.anchor.col sel.focus.col))
      (max sel.anchor.col sel.focus.col + 1 - min sel.anchor.col sel.focus.col) false = sel.lineOf cells row lastCol := by
  have unbounded : (decide (sel.kind ≠ .block) && sel.spans ⟨row, lastCol⟩) = false := by simp [kind]
  rw [spanText_eq (closed.drop _) _ _ (fun h => by cases h), lineOf, unbounded, if_neg Bool.false_ne_true,
    ← textWhere_window]
  refine textWhere_congr fun c cell found plain => ?_
  rw [Bool.eq_iff_iff, spans_block kind]
  simp only [Bool.and_eq_true, decide_eq_true_eq]
  omega

end Selection

namespace PersistentSelection

variable {width height : Nat} {p : PersistentSelection} {s : State width height} {view : View} {sel : Selection}

theorem bufferRow_full (full : s.Full) {row : Nat} (inside : row < s.scrollbackLen + height) :
    ∃ cells, s.bufferRow row = some cells ∧ FullRow width cells := by
  unfold State.bufferRow
  by_cases old : row < s.scrollbackLen
  · have found : s.scrollbackLine row = some s.scrollback.lines[row] := List.getElem?_eq_getElem old
    rw [if_pos old, found]
    exact ⟨_, rfl, full.history _ (List.getElem_mem old)⟩
  · have onScreen : row - s.scrollbackLen < height := by omega
    rw [if_neg old, dif_pos onScreen]
    exact ⟨_, rfl, full.grids.active _⟩

theorem joinRows_eq (full : s.Full) {first last : Nat} (le : first ≤ last) (inside : last < s.scrollbackLen + height)
    (text : Nat → List Cell → Text) : joinRows s first last text =
      List.intercalate ['\n'] ((List.range' first (last + 1 - first)).map fun row => text row ((s.bufferRow row).getD [])) := by
  rw [joinRows, ← flatMap_breaks le]
  refine List.flatMap_congr fun row member => ?_
  rw [List.mem_range'_1] at member
  obtain ⟨cells, found, _⟩ := bufferRow_full full (by omega : row < s.scrollbackLen + height)
  rw [found]
  rfl

theorem text_eq_copied (full : s.Full) (valid : p.isValid s = true) (anchor : p.anchor.col < width)
    (focus : p.focus.col < width) : p.text s = some (p.copiedText s) := by
  obtain ⟨⟨insideA, _⟩, ⟨insideF, _⟩⟩ := isValid_iff.mp valid
  have le : p.positions.firstRow ≤ p.positions.lastRow := by
    unfold Selection.firstRow Selection.lastRow
    omega
  have inside : p.positions.lastRow < s.scrollbackLen + height := max_lt insideA insideF
  have rows := SelectionRange.new_rows p.positions.anchor p.positions.focus
  have ends : p.orderedBufferEndpoints s = some
      (⟨p.positions.firstRow, p.positions.normalized.start.col⟩, ⟨p.positions.lastRow, p.positions.normalized.stop.col⟩) := by
    rw [orderedBufferEndpoints_of_valid valid, Selection.firstRow, Selection.lastRow, ← rows.1, ← rows.2]
    change some (if p.positions.anchor.before p.positions.focus then _ else _) = _
    unfold Selection.normalized SelectionRange.new
    split_ifs <;> rfl
  have whole : ∀ row, row ≤ p.positions.lastRow → FullRow width ((s.bufferRow row).getD []) := by
    intro row below
    obtain ⟨cells, found, fullRow⟩ := bufferRow_full full (Nat.lt_of_le_of_lt below inside)
    rw [found]
    exact fullRow
  have closed : ∀ row, row ≤ p.positions.lastRow → LeadsClosed ((s.bufferRow row).getD []) :=
    fun row below c first => (whole row below).paired.spacer
  unfold text blockText copiedText
  rw [ends]
  split_ifs with kind
  · have cols : min p.positions.normalized.start.col p.positions.normalized.stop.col =
        min p.positions.anchor.col p.positions.focus.col ∧
        max p.positions.normalized.start.col p.positions.normalized.stop.col =
          max p.positions.anchor.col p.positions.focus.col := by
      rcases SelectionRange.new_ends p.positions.anchor p.positions.focus with order | order
      · rw [Selection.normalized, order.1, order.2]
        exact ⟨rfl, rfl⟩
      · rw [Selection.normalized, order.1, order.2]
        exact ⟨Nat.min_comm _ _, Nat.max_comm _ _⟩
    refine congrArg some ((joinRows_eq full le inside _).trans ?_)
    congr 1
    refine List.map_congr_left fun row member => ?_
    rw [List.mem_range'_1] at member
    simp only [cols.1, cols.2]
    exact Selection.lineOf_block kind (closed row (by omega)) member.1 (by omega)
  · refine congrArg some ((joinRows_eq full le inside _).trans ?_)
    congr 1
    refine List.map_congr_left fun row member => ?_
    rw [List.mem_range'_1] at member
    exact Selection.lineOf_range kind (closed row (by omega)) (whole row (by omega)).length member.1 (by omega)
      anchor focus

theorem valid_lift (anchor : view.InWindow s sel.anchor) (focus : view.InWindow s sel.focus) :
    (fromViewSelection sel view s).isValid s = true :=
  isValid_iff.mpr ⟨anchored_lineIdAt anchor.bufferRow _, anchored_lineIdAt focus.bufferRow _⟩

theorem firstRow_lift : (fromViewSelection sel view s).positions.firstRow = viewStart view s + sel.firstRow :=
  Nat.add_min_add_left ..

theorem lastRow_lift : (fromViewSelection sel view s).positions.lastRow = viewStart view s + sel.lastRow :=
  Nat.add_max_add_left ..

theorem spans_lift {r c : Nat} : (fromViewSelection sel view s).positions.spans ⟨viewStart view s + r, c⟩ =
    sel.spans ⟨r, c⟩ := by
  rw [Bool.eq_iff_iff]
  have ends : (fromViewSelection sel view s).positions.normalized.start.col = sel.normalized.start.col ∧
      (fromViewSelection sel view s).positions.normalized.stop.col = sel.normalized.stop.col := by
    have order : CellPos.before ⟨viewStart view s + sel.anchor.row, sel.anchor.col⟩
        ⟨viewStart view s + sel.focus.row, sel.focus.col⟩ = sel.anchor.before sel.focus := by
      simp only [CellPos.before, Nat.add_lt_add_iff_left, Nat.add_left_cancel_iff]
    unfold Selection.normalized SelectionRange.new positions fromViewSelection
    dsimp only
    rw [order]
    split_ifs <;> exact ⟨rfl, rfl⟩
  by_cases kind : sel.kind = .block
  · have same : (fromViewSelection sel view s).positions.kind = .block := kind
    rw [Selection.spans_block kind, Selection.spans_block same, firstRow_lift, lastRow_lift]
    simp only [Nat.add_le_add_iff_left]
    rfl
  · have same : (fromViewSelection sel view s).positions.kind ≠ .block := kind
    rw [Selection.spans_range kind, Selection.spans_range same, firstRow_lift, lastRow_lift, ends.1, ends.2]
    simp only [Nat.add_le_add_iff_left, Nat.add_left_cancel_iff]

theorem toViewSelection_lift {narrow : width ≤ MAX_GRID_DIM} {low : height ≤ MAX_GRID_DIM}
    (anchor : view.InWindow s sel.anchor) (focus : view.InWindow s sel.focus) :
    (fromViewSelection sel view s).toViewSelection s view narrow low =
      some ⟨snapToLeading (s.snapshot narrow low) sel.anchor, snapToLeading (s.snapshot narrow low) sel.focus,
        sel.kind, sel.active⟩ := by
  have kept : ∀ pos, view.InWindow s pos → (⟨min (snapToLeading (s.snapshot narrow low) pos).row (view.rows - 1),
      min (snapToLeading (s.snapshot narrow low) pos).col (view.cols - 1)⟩ : CellPos) =
      snapToLeading (s.snapshot narrow low) pos := by
    intro pos inside
    have row := snapToLeading_row (s.snapshot narrow low) pos
    have col := snapToLeading_col_le (s.snapshot narrow low) pos
    have shown := inside.row
    have within := inside.col
    ext
    · dsimp only
      omega
    · dsimp only
      omega
  unfold toViewSelection
  rw [valid_lift anchor focus]
  simp only [fromViewSelection, Nat.add_sub_cancel_left, kept _ anchor, kept _ focus, Nat.le_add_right,
    Nat.add_lt_add_iff_left, anchor.row, focus.row, decide_true, Bool.and_self, Bool.not_true, Bool.or_self,
    Bool.false_eq_true, if_false]

end PersistentSelection

namespace View

open PersistentSelection

variable {width height : Nat} {view : View} {s : State width height} {sel : Selection}
  {narrow : width ≤ MAX_GRID_DIM} {low : height ≤ MAX_GRID_DIM}

theorem snapshot_paired (full : s.Full) : (s.snapshot narrow low).Paired := by
  intro r inside
  have row : (s.snapshot narrow low).row r = _ := State.row_snapshot ⟨r, inside⟩
  rw [row]
  exact (full.grids.active ⟨r, inside⟩).paired

variable {pos : CellPos}

theorem snapToLeading_cases {snap : Snapshot} (paired : snap.Paired) (col : pos.col < snap.width) :
    snapToLeading snap pos = pos ∧
      (∀ cell, cellAt snap ⟨min pos.row (snap.height - 1), pos.col⟩ = some cell → cell.spacer = false) ∨
    snapToLeading snap pos = ⟨pos.row, pos.col - 1⟩ ∧ 0 < pos.col ∧
      ∃ cell, cellAt snap ⟨min pos.row (snap.height - 1), pos.col⟩ = some cell ∧ cell.spacer = true := by
  by_cases empty : snap.height = 0
  · left
    constructor
    · simp [snapToLeading, empty]
    · intro cell found
      simp [cellAt, empty] at found
  · have inside : Inside snap ⟨min pos.row (snap.height - 1), pos.col⟩ := ⟨by dsimp only; omega, col⟩
    obtain ⟨cell, found⟩ := inside.cellAt_isSome
    have moved := inside.snapToLeading_eq found
    have same : snapToLeading snap pos =
        ⟨pos.row, (snapToLeading snap ⟨min pos.row (snap.height - 1), pos.col⟩).col⟩ := by
      have least : min (min pos.row (snap.height - 1)) (snap.height - 1) = min pos.row (snap.height - 1) := by omega
      unfold snapToLeading
      simp only [least]
      split_ifs
      · rfl
      · split
        · split_ifs <;> rfl
        · rfl
    rw [same, moved]
    cases half : cell.spacer with
    | false =>
      left
      refine ⟨rfl, fun other there => ?_⟩
      rw [found, Option.some.injEq] at there
      rw [← there, half]
    | true =>
      obtain ⟨b, _, next, _⟩ := lead_of_spacer paired found half inside
      have positive : 0 < pos.col := by omega
      right
      refine ⟨?_, positive, cell, found, half⟩
      simp [positive]

variable {r c : Nat}

theorem secondHalf_screen (narrow : width ≤ MAX_GRID_DIM) (low : height ≤ MAX_GRID_DIM) (col : c < width) :
    SecondHalf s (s.scrollbackLen + r) c ↔ ∃ cell, cellAt (s.snapshot narrow low) ⟨r, c⟩ = some cell ∧ cell.spacer = true := by
  unfold SecondHalf
  by_cases inside : r < height
  · have here : Inside (s.snapshot narrow low) ⟨r, c⟩ := ⟨inside, col⟩
    have found : s.bufferRow (s.scrollbackLen + r) = some ((s.snapshot narrow low).row r) :=
      (State.bufferRow_screen ⟨r, inside⟩).trans (congrArg some (State.row_snapshot ⟨r, inside⟩).symm)
    rw [here.cellAt_eq, found]
    constructor
    · rintro ⟨cells, cell, same, there, half⟩
      obtain rfl := Option.some.inj same
      exact ⟨cell, there, half⟩
    · rintro ⟨cell, there, half⟩
      exact ⟨_, cell, rfl, there, half⟩
  · have past : ¬ s.scrollbackLen + r < s.scrollbackLen := by omega
    have below : ¬ s.scrollbackLen + r - s.scrollbackLen < height := by omega
    refine iff_of_false ?_ ?_
    · rintro ⟨cells, cell, found, _⟩
      rw [State.bufferRow, if_neg past, dif_neg below] at found
      cases found
    · rintro ⟨cell, found, _⟩
      exact inside (Inside.of_cellAt found).row

theorem window_iff : view.visibleStart s = viewStart view s ↔ ∀ anchor index, view.scrollAnchor = some anchor →
    lineIndex s anchor.lineId = some index → index = viewStart view s := by
  unfold visibleStart
  cases view.scrollAnchor with
  | none => exact iff_of_true rfl nofun
  | some anchor =>
    rw [Option.bind_some]
    constructor
    · intro same other index eq found
      obtain rfl := Option.some.inj eq
      rw [found] at same
      exact same
    · intro named
      cases found : lineIndex s anchor.lineId with
      | none => rfl
      | some index => exact named anchor index rfl found

structure Reads (cell : Cell) (source : Option Cell) : Prop where
  same : ∀ from_, source = some from_ → cell.spacer = from_.spacer ∧ cell.text = from_.text
  blank : source = none → cell = Cell.erased

theorem screenCell_reads (unshifted : view.colOffset = 0) {cells : List Cell} (paired : WidePaired cells) (c : Nat) :
    Reads (view.screenCell cells c) cells[c]? := by
  unfold screenCell
  rw [unshifted, Nat.zero_add]
  cases found : cells[c]? with
  | none => exact ⟨nofun, fun _ => rfl⟩
  | some cell =>
    refine ⟨fun from_ here => ?_, nofun⟩
    obtain rfl := Option.some.inj here
    have clipped : ∀ clip : Cell, clip = (if c + 1 = view.cols ∧ cell.width = 2 ∧ cell.spacer = false then
        { cell with width := 1 } else cell) → clip.spacer = cell.spacer ∧ clip.text = cell.text := by
      intro clip eq
      rw [eq]
      split_ifs <;> exact ⟨rfl, rfl⟩
    dsimp only
    generalize eq : (if c + 1 = view.cols ∧ cell.width = 2 ∧ cell.spacer = false then { cell with width := 1 } else cell) =
      clip
    obtain ⟨spacer, text⟩ := clipped clip eq.symm
    split_ifs with first
    · obtain ⟨b, _, next, _⟩ := paired.lead found (spacer ▸ first.1)
      omega
    · exact ⟨spacer, text⟩

theorem historyCell_reads (unshifted : view.colOffset = 0) (cells : List Cell) (c : Nat) :
    Reads (view.historyCell cells c) cells[c]? := by
  unfold historyCell
  rw [unshifted, Nat.zero_add]
  cases cells[c]? with
  | none => exact ⟨nofun, fun _ => rfl⟩
  | some cell => exact ⟨fun _ here => Option.some.inj here ▸ ⟨rfl, rfl⟩, nofun⟩

theorem visibleRow_reads (full : s.Full) (window : view.visibleStart s = viewStart view s)
    (unshifted : view.colOffset = 0) (col : c < view.cols) {cells : List Cell}
    (found : s.bufferRow (viewStart view s + r) = some cells) :
    ∃ cell, (view.visibleRow s r)[c]? = some cell ∧ Reads cell cells[c]? := by
  unfold visibleRow
  rw [List.getElem?_map, List.getElem?_range col, Option.map_some]
  refine ⟨_, rfl, ?_⟩
  simp only [window]
  unfold State.bufferRow at found
  split_ifs at found ⊢ with old onScreen
  · rw [found]
    exact historyCell_reads unshifted cells c
  · obtain rfl := Option.some.inj found
    exact screenCell_reads unshifted (full.grids.active _).paired c

theorem length_visibleRow (r : Nat) : (view.visibleRow s r).length = view.cols := by
  rw [visibleRow, List.length_map, List.length_range]

section

variable {cells shown : List Cell} (count : shown.length = view.cols)
  (reads : ∀ c < view.cols, ∃ cell, shown[c]? = some cell ∧ Reads cell cells[c]?)

include count reads

theorem textWhere_reads (picks : Nat → Bool) (within : ∀ c < cells.length, picks c → c < view.cols) :
    ∃ blanks : Text, textWhere shown picks = textWhere cells picks ++ blanks ∧ (∀ ch ∈ blanks, ch = ' ') ∧
      ((∀ c, picks c → c < cells.length) → blanks = []) := by
  have outside : ∀ (cs : List Cell) (c : Nat), picks c = false → pickedText cs picks c = [] := by
    intro cs c none
    unfold pickedText
    rw [none]
    split <;> simp
  have same : ∀ c < cells.length, pickedText shown picks c = pickedText cells picks c := by
    intro c inside
    cases picked : picks c with
    | false => rw [outside _ c picked, outside _ c picked]
    | true =>
      obtain ⟨cell, found, reading⟩ := reads c (within c inside picked)
      have source := List.getElem?_eq_getElem inside
      obtain ⟨spacer, text⟩ := reading.same _ source
      simp only [pickedText, found, source, spacer, text]
  have past : ∀ k, pickedText shown picks (cells.length + k) = [' '] ∨ pickedText shown picks (cells.length + k) = [] := by
    intro k
    cases here : shown[cells.length + k]? with
    | none =>
      right
      simp only [pickedText, here]
    | some cell =>
      have inside := (List.getElem?_eq_some_iff.mp here).1
      rw [count] at inside
      obtain ⟨other, found, reading⟩ := reads _ inside
      have erased := reading.blank (List.getElem?_eq_none (Nat.le_add_right _ _))
      simp only [pickedText, found, erased]
      cases picks (cells.length + k)
      · exact .inr rfl
      · exact .inl rfl
  obtain ⟨k, longer⟩ : ∃ k, max cells.length view.cols = cells.length + k := Nat.exists_eq_add_of_le (Nat.le_max_left _ _)
  refine ⟨(List.range k).flatMap fun c => pickedText shown picks (cells.length + c), ?_, ?_, ?_⟩
  · rw [textWhere_range (count.le.trans (Nat.le_max_right cells.length _)), textWhere_range le_rfl, longer, List.range_add,
      List.flatMap_append, List.flatMap_map]
    exact congrArg (· ++ _) (List.flatMap_congr fun c member => same c (List.mem_range.mp member))
  · intro ch member
    obtain ⟨c, _, inText⟩ := List.mem_flatMap.mp member
    rcases past c with blank | none
    · rw [blank] at inText
      exact List.mem_singleton.mp inText
    · rw [none] at inText
      cases inText
  · intro short
    rw [List.flatMap_eq_nil_iff]
    intro c _
    refine outside _ _ (Bool.eq_false_of_not_eq_true fun picked => ?_)
    have inside := short _ picked
    omega

theorem lineOf_reads {r : Nat} (length : cells.length = width)
    (anchor : sel.anchor.col < width) (focus : sel.focus.col < width)
    (within : ∀ c < width, sel.spans ⟨r, c⟩ → c < view.cols) :
    sel.lineOf shown r (width - 1) = sel.lineOf cells r (width - 1) := by
  obtain ⟨blanks, text, blank, none⟩ := textWhere_reads count reads (fun c => sel.spans ⟨r, c⟩)
    fun c inside picked => within c (length ▸ inside) picked
  have dropped : (decide (sel.kind ≠ .block) && sel.spans ⟨r, width - 1⟩) = false → blanks = [] := by
    intro inner
    refine none fun c picked => ?_
    rw [length]
    by_cases kind : sel.kind = .block
    · have right := ((Selection.spans_block kind).mp picked).2.2
      dsimp only at right
      omega
    · have open_ : sel.spans ⟨r, width - 1⟩ = false := by simpa [kind] using inner
      by_contra beyond
      have spans := (Selection.spans_range kind).mp picked
      have start := (Selection.normalized_cols anchor focus).1
      have reaches : sel.spans ⟨r, width - 1⟩ := (Selection.spans_range kind).mpr
        ⟨spans.1, fun _ => by dsimp only; omega, fun last => by have stop := spans.2.2 last; dsimp only at stop ⊢; omega⟩
      rw [open_] at reaches
      cases reaches
  unfold Selection.lineOf
  rw [text]
  dsimp only
  split_ifs with edge
  · exact rdropWhile_blanks blank
  · rw [dropped (Bool.eq_false_of_not_eq_true edge), List.append_nil]

end

theorem back_iff (full : s.Full) (window : view.visibleStart s = viewStart view s) (unshifted : view.colOffset = 0)
    (here : view.InWindow s pos) :
    view.Back s pos (snapToLeading (s.snapshot narrow low) pos) ↔ view.SnapsAlike s pos := by
  have col := here.bufferCol
  have shown : view.SpacerAt s pos ↔ SecondHalf s (viewStart view s + pos.row) pos.col := by
    obtain ⟨cells, found, fullRow⟩ := bufferRow_full full here.bufferRow
    obtain ⟨cell, there, reading⟩ := visibleRow_reads full window unshifted here.col found
    have source : cells[pos.col]? = some _ := List.getElem?_eq_getElem (col.trans_eq fullRow.length.symm)
    have spacer := (reading.same _ source).1
    unfold SpacerAt SecondHalf
    rw [there, found]
    constructor
    · rintro ⟨other, same, half⟩
      obtain rfl := Option.some.inj same
      exact ⟨cells, _, rfl, source, spacer ▸ half⟩
    · rintro ⟨others, other, same, found', half⟩
      obtain rfl := Option.some.inj same
      obtain rfl := Option.some.inj (source.symm.trans found')
      exact ⟨cell, rfl, spacer.trans half⟩
  have paired : (s.snapshot narrow low).Paired := snapshot_paired full
  unfold Back SnapsAlike
  rw [shown]
  rcases snapToLeading_cases paired col with
    ⟨stays, plain⟩ | ⟨moves, positive, moved⟩
  · refine iff_of_true (.inl stays) fun onScreen => ?_
    obtain ⟨cell, found, half⟩ := (secondHalf_screen narrow low col).mp onScreen
    have first := plain cell found
    rw [half] at first
    cases first
  · rw [moves]
    constructor
    · rintro (same | ⟨shown, _⟩) _
      · have left := congrArg CellPos.col same
        dsimp only at left
        omega
      · exact shown
    · intro alike
      exact .inr ⟨alike ((secondHalf_screen narrow low col).mpr moved), rfl⟩

theorem onBuffer_iff (full : s.Full) : OnBuffer s pos ↔ pos.row < s.scrollbackLen + height ∧ pos.col < width := by
  constructor
  · rintro ⟨cells, found, short⟩
    have inside : pos.row < s.scrollbackLen + height := by
      unfold State.bufferRow at found
      split_ifs at found
      · omega
      · omega
    obtain ⟨others, same, fullRow⟩ := bufferRow_full full inside
    obtain rfl := Option.some.inj (found.symm.trans same)
    exact ⟨inside, short.trans_eq fullRow.length⟩
  · rintro ⟨inside, col⟩
    obtain ⟨cells, found, fullRow⟩ := bufferRow_full full inside
    exact ⟨cells, found, col.trans_eq fullRow.length.symm⟩

variable (anchor : view.InWindow s sel.anchor) (focus : view.InWindow s sel.focus)

include anchor focus

theorem row_of_le (below : r ≤ sel.lastRow) : r < view.rows ∧ viewStart view s + r < s.scrollbackLen + height := by
  have first := anchor.row
  have second := focus.row
  have firstBuffer := anchor.bufferRow
  have secondBuffer := focus.bufferRow
  unfold Selection.lastRow at below
  omega

theorem col_of_spans (wide : sel.kind = .block ∨ sel.anchor.row = sel.focus.row ∨ width ≤ view.cols)
    (inside : c < width) (spans : sel.spans ⟨r, c⟩) : c < view.cols := by
  by_cases kind : sel.kind = .block
  · have right := ((Selection.spans_block kind).mp spans).2.2
    have first := anchor.col
    have second := focus.col
    dsimp only at right
    omega
  · rcases wide with block | single | wide
    · exact absurd block kind
    · obtain ⟨⟨above, below⟩, _, stop⟩ := (Selection.spans_range kind).mp spans
      have last : r = sel.lastRow := by
        unfold Selection.firstRow at above
        unfold Selection.lastRow at below ⊢
        dsimp only at above below
        omega
      have bound := (Selection.normalized_cols anchor.col focus.col).2
      have right := stop last
      dsimp only at right
      omega
    · omega

theorem selectedText_eq (full : s.Full) (window : view.visibleStart s = viewStart view s)
    (unshifted : view.colOffset = 0) (wide : sel.kind = .block ∨ sel.anchor.row = sel.focus.row ∨ width ≤ view.cols) :
    (fromViewSelection sel view s).copiedText s = view.selectedText s sel := by
  have count : viewStart view s + sel.lastRow + 1 - (viewStart view s + sel.firstRow) =
      sel.lastRow + 1 - sel.firstRow := by omega
  unfold copiedText selectedText
  rw [firstRow_lift, lastRow_lift, count, ← List.map_add_range', List.map_map, unshifted]
  congr 1
  refine List.map_congr_left fun r member => ?_
  rw [List.mem_range'_1] at member
  obtain ⟨_, inside⟩ := row_of_le anchor focus (by omega : r ≤ sel.lastRow)
  obtain ⟨cells, found, fullRow⟩ := bufferRow_full full inside
  have line : (fromViewSelection sel view s).positions.lineOf cells (viewStart view s + r) (width - 1) =
      sel.lineOf cells r (width - 1) := by
    simp only [Selection.lineOf, spans_lift]
    rfl
  simp only [Function.comp_apply, found, Option.getD_some, line]
  exact (lineOf_reads (length_visibleRow r) (fun c col => visibleRow_reads full window unshifted col found)
    fullRow.length anchor.bufferCol focus.bufferCol fun c short spans => col_of_spans anchor focus wide short spans).symm

theorem shows_of_matches (full : s.Full) (matched : view.Matches s sel) : view.Shows s narrow low sel := by
  obtain ⟨window, unshifted, wide, snapA, snapF⟩ := matched
  have same := window_iff.mpr window
  refine ⟨fun pos => ?_, ?_, ?_⟩
  · unfold PersistentSelection.Copies Displays
    refine and_congr_right fun here => ?_
    obtain ⟨row, col⟩ := pos
    have inside := ((onBuffer_iff full).mp here).2
    rw [same, unshifted]
    constructor
    · intro spans
      have above := (Selection.spans_row spans).1
      rw [firstRow_lift] at above
      dsimp only at above
      obtain ⟨r, rfl⟩ := Nat.exists_eq_add_of_le (Nat.le_of_add_right_le above)
      rw [spans_lift] at spans
      exact ⟨r, (row_of_le anchor focus (Selection.spans_row spans).2).1, col,
        col_of_spans anchor focus wide inside spans, by rw [Nat.zero_add], spans⟩
    · rintro ⟨r, _, c, _, here, spans⟩
      rw [Nat.zero_add] at here
      rw [here, spans_lift]
      exact spans
  · rw [← selectedText_eq anchor focus full same unshifted wide]
    exact text_eq_copied full (valid_lift anchor focus) anchor.bufferCol focus.bufferCol
  · exact ⟨_, toViewSelection_lift anchor focus, (back_iff full same unshifted anchor).mpr snapA,
      (back_iff full same unshifted focus).mpr snapF, rfl, rfl⟩

theorem spans_ends : ∃ a b, sel.spans ⟨sel.firstRow, a⟩ ∧ sel.spans ⟨sel.lastRow, b⟩ ∧ a < width ∧ b < width ∧
    ∀ c, sel.spans ⟨sel.firstRow, c⟩ → a ≤ c := by
  have le : sel.firstRow ≤ sel.lastRow := by
    unfold Selection.firstRow Selection.lastRow
    omega
  have first := anchor.bufferCol
  have second := focus.bufferCol
  by_cases kind : sel.kind = .block
  · refine ⟨min sel.anchor.col sel.focus.col, min sel.anchor.col sel.focus.col, ?_, ?_, by omega, by omega, ?_⟩
    · rw [Selection.spans_block kind]
      dsimp only
      omega
    · rw [Selection.spans_block kind]
      dsimp only
      omega
    · exact fun c spans => ((Selection.spans_block kind).mp spans).2.1
  · obtain ⟨start, stop⟩ := Selection.normalized_cols first second
    have single := @Selection.normalized_single sel
    refine ⟨sel.normalized.start.col, sel.normalized.stop.col, ?_, ?_, start, stop, ?_⟩
    · rw [Selection.spans_range kind]
      exact ⟨⟨le_rfl, le⟩, fun _ => le_rfl, fun same => single same⟩
    · rw [Selection.spans_range kind]
      exact ⟨⟨le, le_rfl⟩, fun same => single same.symm, fun _ => le_rfl⟩
    · exact fun c spans => ((Selection.spans_range kind).mp spans).2.1 rfl

theorem matches_of_shows (full : s.Full) (shows : view.Shows s narrow low sel) : view.Matches s sel := by
  obtain ⟨cells, _, back, found, backA, backF, _, _⟩ := shows
  have le : sel.firstRow ≤ sel.lastRow := by
    unfold Selection.firstRow Selection.lastRow
    omega
  have displayed : ∀ r c, r ≤ sel.lastRow → c < width → sel.spans ⟨r, c⟩ →
      ∃ r' c', c' < view.cols ∧ viewStart view s + r = view.visibleStart s + r' ∧ c = view.colOffset + c' ∧
        sel.spans ⟨r', c'⟩ := by
    intro r c below col spans
    have copies : (fromViewSelection sel view s).Copies s ⟨viewStart view s + r, c⟩ :=
      ⟨(onBuffer_iff full).mpr ⟨(row_of_le anchor focus below).2, col⟩, by rw [spans_lift]; exact spans⟩
    obtain ⟨_, r', _, c', inView, same, spans'⟩ := (cells _).mp copies
    obtain ⟨row, column⟩ := CellPos.mk.inj same
    exact ⟨r', c', inView, row, column, spans'⟩
  obtain ⟨a, b, spansA, spansB, colA, colB, least⟩ := spans_ends anchor focus
  obtain ⟨r, c, _, rowA, startCol, displaysA⟩ := displayed _ _ le colA spansA
  obtain ⟨r', _, _, rowB, _, displaysB⟩ := displayed _ _ le_rfl colB spansB
  have above := (Selection.spans_row displaysA).1
  have below := (Selection.spans_row displaysB).2
  dsimp only at above below
  have window : view.visibleStart s = viewStart view s := by omega
  have unshifted : view.colOffset = 0 := by
    have first : r = sel.firstRow := by omega
    rw [first] at displaysA
    have left := least c displaysA
    omega
  have moved := @toViewSelection_lift _ _ s view sel narrow low anchor focus
  rw [found, Option.some.injEq] at moved
  rw [moved] at backA backF
  refine ⟨window_iff.mp window, unshifted, ?_, (back_iff full window unshifted anchor).mp backA,
    (back_iff full window unshifted focus).mp backF⟩
  by_contra narrowView
  obtain ⟨kind, several, cut⟩ := not_or.mp narrowView |>.imp_right not_or.mp
  have width_pos := anchor.bufferCol
  have start := (Selection.normalized_cols anchor.bufferCol focus.bufferCol).1
  have spansEdge : sel.spans ⟨sel.firstRow, width - 1⟩ := by
    rw [Selection.spans_range kind]
    refine ⟨⟨le_rfl, le⟩, fun _ => by dsimp only; omega, fun same => ?_⟩
    unfold Selection.firstRow Selection.lastRow at same
    dsimp only at same
    omega
  obtain ⟨_, c', inView, _, column, _⟩ := displayed _ _ le (by omega) spansEdge
  omega

/-- A lifted selection takes what the view shows under the selection, and comes back, exactly when the window of the offset is
the one displayed, from the first column on and as wide as the rows that are taken whole, and the screen has second halves
under the endpoints only where the displayed rows have them. -/
theorem shows_iff (full : s.Full) : view.Shows s narrow low sel ↔ view.Matches s sel :=
  ⟨matches_of_shows anchor focus full, shows_of_matches anchor focus full⟩

omit anchor focus

/-- A screen of one row that shows a wide cell, over a line of two letters. -/
def lettersAbove : State 2 1 :=
  after ⟨fun _ => Row.blank 2, fun _ => Row.blank 2, false, .withMaxLines 4, 0, 0⟩
    [.write 0 ⟨⟨#[⟨'a', 1, false, []⟩, ⟨'b', 1, false, []⟩], rfl⟩, false⟩, .scrollUpRegion 1,
      .write 0 ⟨⟨#[⟨'界', 2, false, []⟩, ⟨' ', 2, true, []⟩], rfl⟩, false⟩]

def lettersView : View := { View.new 1 2 1 with scrollOffset := 1 }

def letterView : View := { View.new 1 1 1 with scrollOffset := 1, colOffset := 1 }

def secondLetter : Selection := ⟨⟨0, 1⟩, ⟨0, 1⟩, .simple, true⟩

def onlyLetter : Selection := ⟨⟨0, 0⟩, ⟨0, 0⟩, .simple, true⟩

theorem lettersAbove_full : lettersAbove.Full := by
  have empty : (Scrollback.withMaxLines 4).lines = [] := rfl
  refine State.Full.run ⟨⟨fun _ => FullRow.blank 2, fun _ => FullRow.blank 2⟩, ?_⟩ fun act member => ?_
  · intro line member
    rw [empty] at member
    cases member
  have rows : ∀ content : Row 2, WidePaired content.cells.toList → (∀ cell ∈ content.cells.toList, cell.width ≤ 2) →
      FullRow 2 content.cells.toList := fun content paired narrow => ⟨Vector.length_toList, paired, narrow⟩
  rcases List.mem_cons.mp member with rfl | member
  · exact ⟨rows _ (by decide) (by decide), trivial⟩
  rcases List.mem_cons.mp member with rfl | member
  · exact ⟨trivial, trivial⟩
  · rw [List.mem_singleton.mp member]
    exact ⟨rows _ (by decide) (by decide), trivial⟩

/-- In a scrolled view the second letter comes back as the first, off a second half that only the screen has; in a view of the
second letter alone the first is copied. -/
theorem shows_letters :
    lettersView.visibleCells lettersAbove = [⟨'a', 1, false, []⟩, ⟨'b', 1, false, []⟩] ∧
    (fromViewSelection secondLetter lettersView lettersAbove).toViewSelection lettersAbove lettersView (by decide)
      (by decide) = some ⟨⟨0, 0⟩, ⟨0, 0⟩, .simple, true⟩ ∧
    letterView.visibleCells lettersAbove = [⟨'b', 1, false, []⟩] ∧
    (fromViewSelection onlyLetter letterView lettersAbove).text lettersAbove = some ['a'] := by
  decide

theorem shows_iff_letters :
    lettersView.Shows lettersAbove (by decide) (by decide) secondLetter ↔
      lettersView.Matches lettersAbove secondLetter :=
  shows_iff ⟨by decide, by decide, by decide, by decide⟩ ⟨by decide, by decide, by decide, by decide⟩ lettersAbove_full

end View

end Bitty.Ui
