import Bitty.Library.Text

/-! The retained lines of a terminal: appended at the newest end, evicted at the oldest. -/

namespace Bitty.Term

/-- What text extraction reads of a cell. -/
structure Cell where
  glyph : Char
  width : Nat
  spacer : Bool
  zerowidth : List Char
  deriving DecidableEq

namespace Cell

def erased : Cell := ⟨' ', 1, false, []⟩

def isBlank (cell : Cell) : Bool := !cell.spacer && cell.glyph == ' ' && cell.zerowidth.isEmpty

def text (cell : Cell) : Text := if cell.isBlank then [' '] else cell.glyph :: cell.zerowidth

end Cell

structure ScrollbackLine where
  id : Nat
  cells : List Cell
  wrapped : Bool

/-- The lines stand oldest first; their identifiers ascend and are never used again. -/
structure Scrollback where
  lines : List ScrollbackLine
  nextId : Nat
  maxLines : Nat
  ascending : (lines.map (·.id)).Pairwise (· < ·)
  fresh : ∀ line ∈ lines, line.id < nextId
  bounded : lines.length ≤ maxLines

namespace Scrollback

variable (sb : Scrollback)

def SCROLLBACK_MAX_LINES : Nat := 100000

def withMaxLines (maxLines : Nat) : Scrollback where
  lines := []
  nextId := 0
  maxLines := min maxLines SCROLLBACK_MAX_LINES
  ascending := List.Pairwise.nil
  fresh := nofun
  bounded := Nat.zero_le _

def appended (cells : List Cell) (wrapped : Bool) : List ScrollbackLine := sb.lines ++ [⟨sb.nextId, cells, wrapped⟩]

theorem appended_ascending (cells : List Cell) (wrapped : Bool) :
    ((sb.appended cells wrapped).map (·.id)).Pairwise (· < ·) := by
  rw [appended, List.map_append]
  refine List.pairwise_append.mpr ⟨sb.ascending, List.pairwise_singleton _ _, fun a inLines b last => ?_⟩
  obtain ⟨line, member, rfl⟩ := List.mem_map.mp inLines
  rw [List.mem_singleton.mp last]
  exact sb.fresh line member

theorem appended_fresh (cells : List Cell) (wrapped : Bool) : ∀ line ∈ sb.appended cells wrapped, line.id < sb.nextId + 1 := by
  intro line member
  rcases List.mem_append.mp member with old | new
  · exact Nat.lt_succ_of_lt (sb.fresh line old)
  · rw [List.mem_singleton.mp new]
    exact Nat.lt_succ_self _

def pushWithWrap (cells : List Cell) (wrapped : Bool) : Scrollback where
  lines := (sb.appended cells wrapped).drop (sb.lines.length + 1 - sb.maxLines)
  nextId := sb.nextId + 1
  maxLines := sb.maxLines
  ascending := by
    rw [List.map_drop]
    exact (sb.appended_ascending cells wrapped).sublist (List.drop_sublist _ _)
  fresh line member := sb.appended_fresh cells wrapped line (List.mem_of_mem_drop member)
  bounded := by
    rw [List.length_drop, appended, List.length_append, List.length_singleton]
    omega

def clear : Scrollback where
  lines := []
  nextId := sb.nextId
  maxLines := sb.maxLines
  ascending := List.Pairwise.nil
  fresh := nofun
  bounded := Nat.zero_le _

def pushAll (rows : List (List Cell × Bool)) : Scrollback := rows.foldl (fun sb row => sb.pushWithWrap row.1 row.2) sb

def rows : List (List Cell) := sb.lines.map (·.cells)

theorem length_rows : sb.rows.length = sb.lines.length := List.length_map _

theorem rows_push (cells : List Cell) (wrapped : Bool) :
    (sb.pushWithWrap cells wrapped).rows = (sb.rows ++ [cells]).drop (sb.lines.length + 1 - sb.maxLines) := by
  rw [rows, pushWithWrap, List.map_drop, appended, List.map_append]
  rfl

theorem length_push (cells : List Cell) (wrapped : Bool) :
    (sb.pushWithWrap cells wrapped).lines.length = min (sb.lines.length + 1) sb.maxLines := by
  have here := sb.bounded
  rw [pushWithWrap, List.length_drop, appended, List.length_append, List.length_singleton]
  omega

theorem rows_pushAll (more : List (List Cell × Bool)) :
    (sb.pushAll more).rows = (sb.rows ++ more.map (·.1)).drop (sb.lines.length + more.length - sb.maxLines) := by
  induction more generalizing sb with
  | nil =>
    have none : sb.lines.length - sb.maxLines = 0 := by
      have here := sb.bounded
      omega
    simp [pushAll, none]
  | cons row rest ih =>
    have step := ih (sb.pushWithWrap row.1 row.2)
    rw [length_push, rows_push] at step
    have here := sb.bounded
    have early : sb.lines.length + 1 - sb.maxLines ≤ (sb.rows ++ [row.1]).length := by
      rw [List.length_append, length_rows, List.length_singleton]
      omega
    refine step.trans ?_
    change ((sb.rows ++ [row.1]).drop _ ++ rest.map (·.1)).drop
      (min (sb.lines.length + 1) sb.maxLines + rest.length - sb.maxLines) = _
    rw [← List.drop_append_of_le_length early, List.drop_drop, List.append_assoc]
    congr 1
    simp only [List.length_cons]
    omega

theorem length_pushAll (more : List (List Cell × Bool)) :
    (sb.pushAll more).lines.length = min (sb.lines.length + more.length) sb.maxLines := by
  have here := sb.bounded
  rw [← length_rows, rows_pushAll, List.length_drop, List.length_append, length_rows, List.length_map]
  omega

def Gone (i id : Nat) : Prop := id < sb.nextId ∧ ∀ line, sb.lines[i]? = some line → id < line.id

variable {sb} {i id : Nat} {line : ScrollbackLine} {cells : List Cell} {wrapped : Bool}

theorem id_lt_of_lt {j : Nat} {later : ScrollbackLine} (first : sb.lines[i]? = some line) (second : sb.lines[j]? = some later)
    (before : i < j) : line.id < later.id := by
  obtain ⟨boundI, rfl⟩ := List.getElem?_eq_some_iff.mp first
  obtain ⟨boundJ, rfl⟩ := List.getElem?_eq_some_iff.mp second
  have pair := List.pairwise_iff_getElem.mp sb.ascending i j (by simpa using boundI) (by simpa using boundJ) before
  simpa using pair

theorem line_push (i : Nat) : (sb.pushWithWrap cells wrapped).lines[i]? =
    (sb.lines ++ [⟨sb.nextId, cells, wrapped⟩])[sb.lines.length + 1 - sb.maxLines + i]? := by
  rw [pushWithWrap, List.getElem?_drop, appended]

theorem Gone.push (gone : sb.Gone i id) : (sb.pushWithWrap cells wrapped).Gone i id := by
  refine ⟨Nat.lt_succ_of_lt gone.1, fun line here => ?_⟩
  rw [line_push] at here
  by_cases old : sb.lines.length + 1 - sb.maxLines + i < sb.lines.length
  · rw [List.getElem?_append_left old] at here
    have bound : i < sb.lines.length := by omega
    have first := gone.2 _ (List.getElem?_eq_getElem bound)
    rcases Nat.eq_zero_or_pos (sb.lines.length + 1 - sb.maxLines) with none | some
    · rw [none, Nat.zero_add] at here
      exact gone.2 line here
    · exact first.trans (id_lt_of_lt (List.getElem?_eq_getElem bound) here (by omega))
  · rw [List.getElem?_append_right (by omega)] at here
    obtain rfl := List.mem_singleton.mp (List.mem_of_getElem? here)
    exact gone.1

theorem Gone.pushAll (gone : sb.Gone i id) (more : List (List Cell × Bool)) : (sb.pushAll more).Gone i id := by
  induction more generalizing sb with
  | nil => exact gone
  | cons row rest ih => exact ih gone.push

theorem gone_clear (known : id < sb.nextId) : sb.clear.Gone i id := ⟨known, nofun⟩

theorem gone_of_push (here : sb.lines[i]? = some line) (evicts : sb.maxLines < sb.lines.length + 1) :
    (sb.pushWithWrap cells wrapped).Gone i line.id := by
  have bound : i < sb.lines.length := (List.getElem?_eq_some_iff.mp here).1
  have known := sb.fresh line (List.mem_of_getElem? here)
  refine ⟨Nat.lt_succ_of_lt known, fun other there => ?_⟩
  rw [line_push] at there
  by_cases old : sb.lines.length + 1 - sb.maxLines + i < sb.lines.length
  · rw [List.getElem?_append_left old] at there
    exact id_lt_of_lt here there (by omega)
  · rw [List.getElem?_append_right (by omega)] at there
    obtain rfl := List.mem_singleton.mp (List.mem_of_getElem? there)
    exact known

theorem line_push_of_room (here : sb.lines[i]? = some line) (room : sb.lines.length + 1 ≤ sb.maxLines) :
    (sb.pushWithWrap cells wrapped).lines[i]? = some line := by
  have none : sb.lines.length + 1 - sb.maxLines = 0 := by omega
  rw [line_push, none, Nat.zero_add, List.getElem?_append_left (List.getElem?_eq_some_iff.mp here).1]
  exact here

theorem line_pushAll_of_room (here : sb.lines[i]? = some line) (more : List (List Cell × Bool))
    (room : sb.lines.length + more.length ≤ sb.maxLines) : (sb.pushAll more).lines[i]? = some line := by
  induction more generalizing sb with
  | nil => exact here
  | cons row rest ih =>
    rw [List.length_cons] at room
    refine ih (line_push_of_room here (by omega)) ?_
    rw [length_push]
    change _ ≤ sb.maxLines
    omega

theorem gone_of_pushAll (here : sb.lines[i]? = some line) (more : List (List Cell × Bool))
    (evicts : sb.maxLines < sb.lines.length + more.length) : (sb.pushAll more).Gone i line.id := by
  induction more generalizing sb with
  | nil =>
    have bounded := sb.bounded
    simp only [List.length_nil] at evicts
    omega
  | cons row rest ih =>
    rw [List.length_cons] at evicts
    by_cases room : sb.lines.length + 1 ≤ sb.maxLines
    · refine ih (line_push_of_room here room) ?_
      rw [length_push]
      change sb.maxLines < _
      omega
    · exact (gone_of_push here (by omega)).pushAll rest

end Scrollback

end Bitty.Term

/-! A copy of the screen that is shown: its cells, row after row. -/

namespace Bitty.Term

def MAX_GRID_DIM : Nat := 1000

structure Snapshot where
  width : Nat
  height : Nat
  cells : List Cell
  whole : cells.length = width * height
  narrow : width ≤ MAX_GRID_DIM
  low : height ≤ MAX_GRID_DIM

/-- Every second half has its first half on its left, and every first half its second on its right. -/
structure WidePaired (row : List Cell) : Prop where
  lead : ∀ {c half}, row[c]? = some half → half.spacer = true →
    ∃ b first, c = b + 1 ∧ row[b]? = some first ∧ first.width = 2 ∧ first.spacer = false
  spacer : ∀ {c first}, row[c]? = some first → first.width = 2 → first.spacer = false →
    ∃ half, row[c + 1]? = some half ∧ half.spacer = true

def pairedAt (row : List Cell) (c : Nat) : Bool :=
  match row[c]? with
  | none => true
  | some cell =>
    if cell.spacer then
      match c with
      | 0 => false
      | b + 1 => row[b]?.any fun first => first.width = 2 && !first.spacer
    else if cell.width = 2 then row[c + 1]?.any (·.spacer)
    else true

theorem widePaired_iff {row : List Cell} : WidePaired row ↔ ∀ c < row.length, pairedAt row c := by
  constructor
  · intro paired c inside
    have found := List.getElem?_eq_getElem inside
    unfold pairedAt
    rw [found]
    dsimp only
    split_ifs with second wide
    · obtain ⟨b, first, rfl, there, two, plain⟩ := paired.lead found second
      simp [there, two, plain]
    · obtain ⟨half, there, second⟩ := paired.spacer found wide (by simpa using second)
      simp [there, second]
    · rfl
  · intro checked
    refine ⟨fun {c half} found second => ?_, fun {c first} found wide plain => ?_⟩
    · have here := checked c (List.getElem?_eq_some_iff.mp found).1
      unfold pairedAt at here
      rw [found] at here
      simp only [second, if_true] at here
      match c with
      | 0 => cases here
      | b + 1 =>
        cases there : row[b]? with
        | none => simp [there] at here
        | some first => exact ⟨b, first, rfl, there, by simpa [there] using here⟩
    · have here := checked c (List.getElem?_eq_some_iff.mp found).1
      unfold pairedAt at here
      rw [found] at here
      simp only [plain, Bool.false_eq_true, if_false, wide, if_true] at here
      cases there : row[c + 1]? with
      | none => simp [there] at here
      | some half => exact ⟨half, rfl, by simpa [there] using here⟩

instance (row : List Cell) : Decidable (WidePaired row) := decidable_of_iff _ widePaired_iff.symm

namespace Snapshot

variable (snap : Snapshot)

def row (r : Nat) : List Cell := (snap.cells.drop (r * snap.width)).take snap.width

def Paired : Prop := ∀ r < snap.height, WidePaired (snap.row r)

instance : Decidable snap.Paired := inferInstanceAs (Decidable (∀ r < snap.height, WidePaired (snap.row r)))

variable {snap} {r c : Nat}

theorem row_end (inside : r < snap.height) : r * snap.width + snap.width ≤ snap.cells.length := by
  have rows : (r + 1) * snap.width ≤ snap.height * snap.width := Nat.mul_le_mul_right _ inside
  rw [snap.whole, Nat.mul_comm snap.width]
  rw [Nat.succ_mul] at rows
  exact rows

theorem length_row (inside : r < snap.height) : (snap.row r).length = snap.width := by
  have fits := row_end inside
  rw [row, List.length_take, List.length_drop]
  omega

theorem getElem?_row (inside : c < snap.width) : (snap.row r)[c]? = snap.cells[r * snap.width + c]? := by
  rw [row, List.getElem?_take_of_lt inside, List.getElem?_drop]

end Snapshot

end Bitty.Term
