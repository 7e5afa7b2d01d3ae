import Bitty.Ui.Selection

/-! What a selection shows as selected on a screen, and what it copies. -/

namespace Bitty.Ui

open Bitty.Term

def snapToLeadingOpt (snapshot : Option Snapshot) (pos : CellPos) : CellPos := snapshot.elim pos (snapToLeading · pos)

/-- The rows from `first` to `last`, joined by line breaks; the loop breaks off below the screen. -/
def joinLines (height first last : Nat) (line : Nat → Text) : Text :=
  ((List.range' first (last + 1 - first)).takeWhile (· < height)).flatMap fun row =>
    line row ++ if row = last then [] else ['\n']

def selectedTextForRange (snap : Snapshot) (range : SelectionRange) : Text :=
  if snap.width = 0 || snap.height = 0 then []
  else joinLines snap.height range.start.row range.stop.row fun row =>
    lineText (snap.row row) (if row = range.start.row then range.start.col else 0)
      (if row = range.stop.row then range.stop.col else snap.width - 1)

def selectedTextForBlock (snap : Snapshot) (rowMin rowMax colMin colMax : Nat) : Text :=
  joinLines snap.height rowMin rowMax fun row => spanText ((snap.row row).drop colMin) (colMax + 1 - colMin) false

namespace Selection

variable (sel : Selection)

def normalized : SelectionRange := .new sel.anchor sel.focus

def snapped (snapshot : Option Snapshot) : Selection :=
  { sel with anchor := snapToLeadingOpt snapshot sel.anchor, focus := snapToLeadingOpt snapshot sel.focus }

def contains (pos : CellPos) (snapshot : Option Snapshot) : Bool :=
  (sel.snapped snapshot).normalized.contains (snapToLeadingOpt snapshot pos)

def containsBlock (pos : CellPos) (snapshot : Option Snapshot) : Bool :=
  let a := snapToLeadingOpt snapshot sel.anchor
  let b := snapToLeadingOpt snapshot sel.focus
  let (rowMin, rowMax) := if a.row ≤ b.row then (a.row, b.row) else (b.row, a.row)
  if pos.row < rowMin || rowMax < pos.row then false
  else
    let (colMin, colMax) := if a.col ≤ b.col then (a.col, b.col) else (b.col, a.col)
    let query := snapToLeadingOpt snapshot pos
    colMin ≤ query.col && query.col ≤ colMax

def clamped (snap : Snapshot) : Selection :=
  { sel with anchor := snapToLeading snap (clampPos snap sel.anchor), focus := snapToLeading snap (clampPos snap sel.focus) }

def blockText (snap : Snapshot) : Text :=
  if snap.width = 0 || snap.height = 0 then []
  else
    let snapped := (sel.clamped snap).snapped (some snap)
    let (rowMin, rowMax) := if snapped.anchor.row ≤ snapped.focus.row then (snapped.anchor.row, snapped.focus.row)
      else (snapped.focus.row, snapped.anchor.row)
    let (colMin, colMax) := if snapped.anchor.col ≤ snapped.focus.col then (snapped.anchor.col, snapped.focus.col)
      else (snapped.focus.col, snapped.anchor.col)
    selectedTextForBlock snap rowMin rowMax colMin colMax

def text (snap : Snapshot) : Text :=
  if sel.kind = .block then sel.blockText snap
  else selectedTextForRange snap ((sel.clamped snap).snapped (some snap)).normalized

end Selection

section

variable {cells : List Cell}

def LeadsClosed (cells : List Cell) : Prop :=
  ∀ c first, cells[c]? = some first → first.width = 2 → first.spacer = false →
    ∃ half, cells[c + 1]? = some half ∧ half.spacer = true

theorem LeadsClosed.drop (closed : LeadsClosed cells) (k : Nat) : LeadsClosed (cells.drop k) := by
  intro c first found wide plain
  rw [List.getElem?_drop] at found
  obtain ⟨half, there, second⟩ := closed _ first found wide plain
  exact ⟨half, by rw [List.getElem?_drop]; exact there, second⟩

def plainText (cells : List Cell) : Text := (cells.filter fun cell => !cell.spacer).flatMap Cell.text

@[simp] theorem plainText_nil : plainText [] = [] := rfl

theorem plainText_cons (cell : Cell) (rest : List Cell) :
    plainText (cell :: rest) = (if cell.spacer then [] else cell.text) ++ plainText rest := by
  cases half : cell.spacer <;> simp [plainText, half]

@[simp] theorem plainText_append (xs ys : List Cell) : plainText (xs ++ ys) = plainText xs ++ plainText ys := by
  rw [plainText, List.filter_append, List.flatMap_append]
  rfl

theorem spanText_eq (closed : LeadsClosed cells) (span : Nat) (skip : Bool)
    (second : skip = true → ∃ half rest, cells = half :: rest ∧ half.spacer = true) :
    spanText cells span skip = plainText (cells.take span) := by
  induction cells generalizing span skip with
  | nil => simp [spanText]
  | cons cell rest ih =>
    have later := closed.drop 1
    match span, skip with
    | 0, _ => simp [spanText]
    | span + 1, true =>
      obtain ⟨half, others, eq, isHalf⟩ := second rfl
      obtain ⟨rfl, rfl⟩ := List.cons.inj eq
      rw [spanText, ih later span false (fun h => by cases h), List.take_succ_cons, plainText_cons, isHalf]
      rfl
    | span + 1, false =>
      rw [spanText, List.take_succ_cons, plainText_cons]
      split_ifs with isHalf
      · exact ih later span false (fun h => by cases h)
      · refine congrArg (cell.text ++ ·) (ih later span _ fun wide => ?_)
        obtain ⟨half, there, isSecond⟩ := closed 0 cell rfl (by simpa using wide) (by simpa using isHalf)
        rw [List.getElem?_cons_succ] at there
        cases rest with
        | nil => cases there
        | cons next others =>
          obtain rfl := Option.some.inj there
          exact ⟨next, others, rfl, isSecond⟩

def textWhere (cells : List Cell) (picks : Nat → Bool) : Text :=
  (List.range cells.length).flatMap fun c =>
    match cells[c]? with
    | some cell => if !cell.spacer && picks c then cell.text else []
    | none => []

theorem textWhere_cons (cell : Cell) (rest : List Cell) (picks : Nat → Bool) :
    textWhere (cell :: rest) picks = (if !cell.spacer && picks 0 then cell.text else []) ++ textWhere rest (picks <| · + 1) := by
  rw [textWhere, List.length_cons, List.range_succ_eq_map, List.flatMap_cons, List.flatMap_map]
  rfl

theorem textWhere_congr {f g : Nat → Bool}
    (same : ∀ c cell, cells[c]? = some cell → cell.spacer = false → f c = g c) :
    textWhere cells f = textWhere cells g := by
  refine List.flatMap_congr fun c _ => ?_
  split
  next cell found =>
    cases plain : cell.spacer with
    | true => rfl
    | false => rw [same c cell found plain]
  next => rfl

theorem textWhere_window (cells : List Cell) (a e : Nat) :
    textWhere cells (fun c => a ≤ c && c < e) = plainText ((cells.drop a).take (e - a)) := by
  induction cells generalizing a e with
  | nil => simp [textWhere]
  | cons cell rest ih =>
    rw [textWhere_cons]
    match a, e with
    | 0, 0 =>
      rw [textWhere_congr (g := fun c => 0 ≤ c && c < 0) (by simp), ih 0 0]
      simp
    | 0, e + 1 =>
      rw [textWhere_congr (g := fun c => 0 ≤ c && c < e) (by simp), ih 0 e]
      simp only [List.drop_zero, Nat.sub_zero, List.take_succ_cons, plainText_cons]
      cases cell.spacer <;> simp
    | a + 1, 0 =>
      rw [textWhere_congr (g := fun c => a ≤ c && c < 0) (by simp), ih a 0]
      simp
    | a + 1, e + 1 =>
      rw [textWhere_congr (g := fun c => a ≤ c && c < e) (by simp), ih a e]
      simp

end

theorem flatMap_breaks {first last : Nat} (le : first ≤ last) (line : Nat → Text) :
    ((List.range' first (last + 1 - first)).flatMap fun row => line row ++ if row = last then [] else ['\n']) =
      List.intercalate ['\n'] ((List.range' first (last + 1 - first)).map line) := by
  obtain ⟨n, rfl⟩ := Nat.exists_eq_add_of_le le
  have count : first + n + 1 - first = n + 1 := by omega
  rw [count]
  clear count le
  induction n generalizing first with
  | zero => simp [List.intercalate]
  | succ n ih =>
    have more := @ih (first + 1)
    have shift : first + 1 + n = first + (n + 1) := by omega
    rw [shift] at more
    rw [List.range'_succ, List.flatMap_cons, more, if_neg (by omega), List.map_cons, List.range'_succ, List.map_cons]
    simp [List.intercalate, List.append_assoc]

theorem joinLines_eq {height first last : Nat} (le : first ≤ last) (inside : last < height) (line : Nat → Text) :
    joinLines height first last line =
      List.intercalate ['\n'] ((List.range' first (last + 1 - first)).map line) := by
  have all : (List.range' first (last + 1 - first)).takeWhile (· < height) = List.range' first (last + 1 - first) := by
    refine List.takeWhile_eq_self_iff.mpr fun row member => ?_
    rw [List.mem_range'_1] at member
    simp only [decide_eq_true_eq]
    omega
  rw [joinLines, all]
  exact flatMap_breaks le line

namespace Selection

variable (sel : Selection) (snap : Snapshot)

def covers (pos : CellPos) : Bool :=
  if sel.kind = .block then sel.containsBlock pos (some snap) else sel.contains pos (some snap)

def coveredText (row : Nat) : Text := textWhere (snap.row row) fun col => sel.covers snap ⟨row, col⟩

def reachesEdge (row : Nat) : Bool :=
  sel.kind ≠ .block && (sel.snapped (some snap)).normalized.contains ⟨row, snap.width - 1⟩

def copiedLine (row : Nat) : Text :=
  if sel.reachesEdge snap row then (sel.coveredText snap row).rdropWhile (· = ' ') else sel.coveredText snap row

def firstRow : Nat := min sel.anchor.row sel.focus.row

def lastRow : Nat := max sel.anchor.row sel.focus.row

variable {sel snap} (paired : snap.Paired) (anchor : Inside snap sel.anchor) (focus : Inside snap sel.focus)

include paired anchor focus

theorem clamped_snapped : (sel.clamped snap).snapped (some snap) = sel.snapped (some snap) := by
  have first := (anchor.snapped paired).1.snapToLeading_eq
  have second := (focus.snapped paired).1.snapToLeading_eq
  simp only [clamped, snapped, snapToLeadingOpt, Option.elim_some, anchor.clampPos_eq, focus.clampPos_eq, first, second]

theorem snapped_rows : (sel.snapped (some snap)).normalized.start.row = sel.firstRow ∧
    (sel.snapped (some snap)).normalized.stop.row = sel.lastRow := by
  have first := (anchor.snapped paired).2.1
  have second := (focus.snapped paired).2.1
  have rows := SelectionRange.new_rows (snapToLeading snap sel.anchor) (snapToLeading snap sel.focus)
  rw [first, second] at rows
  exact rows

theorem snapped_inside : (sel.snapped (some snap)).normalized.start.col < snap.width := by
  have first := (anchor.snapped paired).1.inside.col
  have second := (focus.snapped paired).1.inside.col
  rcases SelectionRange.new_ends (snapToLeading snap sel.anchor) (snapToLeading snap sel.focus) with ends | ends
  · exact lt_of_eq_of_lt (congrArg CellPos.col ends.1) first
  · exact lt_of_eq_of_lt (congrArg CellPos.col ends.1) second

theorem lineText_covered (kind : sel.kind ≠ .block) {row : Nat} (from_first : sel.firstRow ≤ row) (to_last : row ≤ sel.lastRow) :
    let range := (sel.snapped (some snap)).normalized
    lineText (snap.row row) (if row = range.start.row then range.start.col else 0)
      (if row = range.stop.row then range.stop.col else snap.width - 1) = sel.copiedLine snap row := by
  have rows := snapped_rows paired anchor focus
  have start := snapped_inside paired anchor focus
  have inside : row < snap.height := by
    have first := anchor.row
    have second := focus.row
    unfold lastRow at to_last
    omega
  have closed : LeadsClosed (snap.row row) := fun c first => (paired row inside).spacer
  have length := Snapshot.length_row inside
  have edge : sel.reachesEdge snap row ↔ snap.width - 1 ≤
      (if row = (sel.snapped (some snap)).normalized.stop.row then (sel.snapped (some snap)).normalized.stop.col
        else snap.width - 1) := by
    simp only [reachesEdge, ne_eq, kind, not_false_eq_true, decide_true, Bool.true_and, SelectionRange.contains_iff]
    split_ifs with last
    · exact ⟨fun h => h.2.2 last, fun h => ⟨by omega, fun _ => by omega, fun _ => h⟩⟩
    · exact ⟨fun _ => Nat.le_refl _, fun _ => ⟨by omega, fun _ => by omega, fun h => absurd h last⟩⟩
  have covered : sel.coveredText snap row = plainText (((snap.row row).drop
      (if row = (sel.snapped (some snap)).normalized.start.row then (sel.snapped (some snap)).normalized.start.col else 0)).take
      ((if row = (sel.snapped (some snap)).normalized.stop.row then (sel.snapped (some snap)).normalized.stop.col
        else snap.width - 1) + 1 -
        (if row = (sel.snapped (some snap)).normalized.start.row then (sel.snapped (some snap)).normalized.start.col else 0))) := by
    rw [← textWhere_window, coveredText]
    refine textWhere_congr fun c cell found plain => ?_
    have within := (List.getElem?_eq_some_iff.mp found).1
    rw [length] at within
    have leading : Leading snap ⟨row, c⟩ := ⟨cell, by rw [Inside.cellAt_eq ⟨inside, within⟩]; exact found, plain⟩
    rw [Bool.eq_iff_iff]
    simp only [covers, kind, if_false, contains, snapToLeadingOpt, Option.elim_some, leading.snapToLeading_eq,
      SelectionRange.contains_iff, Bool.and_eq_true, decide_eq_true_eq]
    split_ifs <;> omega
  dsimp only
  rw [lineText, spanText_eq (closed.drop _) _ _ (fun h => by cases h), length, copiedLine, covered]
  by_cases reaches : sel.reachesEdge snap row
  · rw [if_pos (edge.mp reaches), if_pos reaches]
  · rw [if_neg fun h => reaches (edge.mpr h), if_neg reaches]

theorem spanText_covered (kind : sel.kind = .block) {row : Nat} (from_first : sel.firstRow ≤ row) (to_last : row ≤ sel.lastRow) :
    let a := snapToLeading snap sel.anchor
    let b := snapToLeading snap sel.focus
    spanText ((snap.row row).drop (min a.col b.col)) (max a.col b.col + 1 - min a.col b.col) false =
      sel.copiedLine snap row := by
  have inside : row < snap.height := by
    have first := anchor.row
    have second := focus.row
    unfold lastRow at to_last
    omega
  have closed : LeadsClosed (snap.row row) := fun c first => (paired row inside).spacer
  have length := Snapshot.length_row inside
  have rowA := (anchor.snapped paired).2.1
  have rowB := (focus.snapped paired).2.1
  dsimp only
  have within : sel.reachesEdge snap row = false := by simp [reachesEdge, kind]
  rw [spanText_eq (closed.drop _) _ _ (fun h => by cases h), copiedLine, within, if_neg Bool.false_ne_true,
    ← textWhere_window, coveredText]
  refine (textWhere_congr fun c cell found plain => ?_).symm
  have short := (List.getElem?_eq_some_iff.mp found).1
  rw [length] at short
  have leading : Leading snap ⟨row, c⟩ := ⟨cell, by rw [Inside.cellAt_eq ⟨inside, short⟩]; exact found, plain⟩
  unfold firstRow at from_first
  unfold lastRow at to_last
  rw [Bool.eq_iff_iff]
  simp only [covers, kind, if_true, containsBlock, snapToLeadingOpt, Option.elim_some, leading.snapToLeading_eq, rowA, rowB]
  grind

omit paired anchor focus

theorem sorted_eq (a b : Nat) : (if a ≤ b then (a, b) else (b, a)) = (min a b, max a b) := by
  grind

theorem text_eq_lines (paired : snap.Paired) (anchor : Inside snap sel.anchor) (focus : Inside snap sel.focus) :
    sel.text snap = List.intercalate ['\n']
      ((List.range' sel.firstRow (sel.lastRow + 1 - sel.firstRow)).map (sel.copiedLine snap)) := by
  have sized : (decide (snap.width = 0) || decide (snap.height = 0)) = false := by
    have row := anchor.row
    have col := anchor.col
    simp only [Bool.or_eq_false_iff, decide_eq_false_iff_not]
    omega
  have le : sel.firstRow ≤ sel.lastRow := by
    unfold firstRow lastRow
    omega
  have low : sel.lastRow < snap.height := by
    have first := anchor.row
    have second := focus.row
    unfold lastRow
    omega
  unfold text
  split_ifs with kind
  · have rowA := (anchor.snapped paired).2.1
    have rowB := (focus.snapped paired).2.1
    have first : min (sel.snapped (some snap)).anchor.row (sel.snapped (some snap)).focus.row = sel.firstRow :=
      congrArg₂ min rowA rowB
    have last : max (sel.snapped (some snap)).anchor.row (sel.snapped (some snap)).focus.row = sel.lastRow :=
      congrArg₂ max rowA rowB
    unfold blockText
    rw [sized, clamped_snapped paired anchor focus]
    simp only [Bool.false_eq_true, if_false, sorted_eq, first, last, selectedTextForBlock]
    rw [joinLines_eq le low]
    congr 1
    refine List.map_congr_left fun row member => ?_
    rw [List.mem_range'_1] at member
    exact spanText_covered paired anchor focus kind member.1 (by omega)
  · have rows := snapped_rows paired anchor focus
    unfold selectedTextForRange
    rw [sized, clamped_snapped paired anchor focus, rows.1, rows.2]
    simp only [Bool.false_eq_true, if_false]
    rw [joinLines_eq le low]
    congr 1
    refine List.map_congr_left fun row member => ?_
    rw [List.mem_range'_1] at member
    rw [← lineText_covered paired anchor focus kind member.1 (by omega)]
    simp only [rows.1, rows.2]

theorem contains_halves (paired : snap.Paired) {row col : Nat} {first : Cell} (found : cellAt snap ⟨row, col⟩ = some first)
    (wide : first.width = 2) (plain : first.spacer = false) :
    sel.contains ⟨row, col⟩ (some snap) = sel.contains ⟨row, col + 1⟩ (some snap) ∧
      sel.containsBlock ⟨row, col⟩ (some snap) = sel.containsBlock ⟨row, col + 1⟩ (some snap) := by
  have leading : Leading snap ⟨row, col⟩ := ⟨first, found, plain⟩
  obtain ⟨half, there, second⟩ := spacer_of_lead paired found wide plain
  have inside := Inside.of_cellAt there
  have moved : snapToLeading snap ⟨row, col + 1⟩ = ⟨row, col⟩ := by
    rw [inside.snapToLeading_eq there, second]
    simp
  constructor
  · simp only [contains, snapToLeadingOpt, Option.elim_some, leading.snapToLeading_eq, moved]
  · simp only [containsBlock, snapToLeadingOpt, Option.elim_some, leading.snapToLeading_eq, moved]

theorem row_of_covers (paired : snap.Paired) (anchor : Inside snap sel.anchor) (focus : Inside snap sel.focus)
    {pos : CellPos} (inside : Inside snap pos) (covered : sel.covers snap pos) :
    sel.firstRow ≤ pos.row ∧ pos.row ≤ sel.lastRow := by
  unfold covers at covered
  split_ifs at covered
  · have rowA := (anchor.snapped paired).2.1
    have rowB := (focus.snapped paired).2.1
    simp only [containsBlock, snapToLeadingOpt, Option.elim_some, rowA, rowB] at covered
    unfold firstRow lastRow
    grind
  · have rows := snapped_rows paired anchor focus
    have moved := (inside.snapped paired).2.1
    have bounds := (SelectionRange.contains_iff.mp covered).1
    rw [rows.1, rows.2] at bounds
    simp only [snapToLeadingOpt, Option.elim_some, moved] at bounds
    exact bounds

theorem text_covers (sel : Selection) {snap : Snapshot} (paired : snap.Paired) (anchor : Inside snap sel.anchor)
    (focus : Inside snap sel.focus) :
    sel.text snap = List.intercalate ['\n']
      ((List.range' sel.firstRow (sel.lastRow + 1 - sel.firstRow)).map (sel.copiedLine snap)) ∧
      (∀ pos, Inside snap pos → sel.covers snap pos → sel.firstRow ≤ pos.row ∧ pos.row ≤ sel.lastRow) ∧
      ∀ row col first, cellAt snap ⟨row, col⟩ = some first → first.width = 2 → first.spacer = false →
        sel.contains ⟨row, col⟩ (some snap) = sel.contains ⟨row, col + 1⟩ (some snap) ∧
          sel.containsBlock ⟨row, col⟩ (some snap) = sel.containsBlock ⟨row, col + 1⟩ (some snap) :=
  ⟨text_eq_lines paired anchor focus, fun _ inside covered => row_of_covers paired anchor focus inside covered,
    fun _ _ _ found wide plain => contains_halves paired found wide plain⟩

def cutRows : Snapshot where
  width := 3
  height := 2
  cells := [⟨'中', 2, false, []⟩, ⟨' ', 2, true, []⟩, ⟨' ', 1, false, []⟩,
    ⟨'a', 1, false, []⟩, ⟨'文', 2, false, []⟩, ⟨' ', 2, true, []⟩]
  whole := rfl
  narrow := by decide
  low := by decide

theorem text_covers_cut :
    cutRows.Paired ∧ (⟨⟨1, 1⟩, ⟨0, 1⟩, .simple, true⟩ : Selection).text cutRows =
      List.intercalate ['\n'] ((List.range' 0 2).map ((⟨⟨1, 1⟩, ⟨0, 1⟩, .simple, true⟩ : Selection).copiedLine cutRows)) :=
  ⟨by decide, (text_covers ⟨⟨1, 1⟩, ⟨0, 1⟩, .simple, true⟩ (by decide) ⟨by decide, by decide⟩ ⟨by decide, by decide⟩).1⟩

end Selection

end Bitty.Ui
