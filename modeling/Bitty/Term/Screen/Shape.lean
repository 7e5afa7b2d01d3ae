import Bitty.Term.Screen.Pairs

/-! Properties of single cells that every edit of a row keeps. -/

namespace Bitty.Screen

open Sweep

def Each (P : Cell → Prop) (cells : List Cell) : Prop := ∀ cell ∈ cells, P cell

/-- What an edit makes of cells: blanks, spacers, and the cells there were with other marks and another width. -/
structure CellClosed (P : Cell → Prop) : Prop where
  erased : ∀ style, P (Cell.erased style)
  spacer : ∀ style, P (Cell.wideSpacer style)
  mark : ∀ {cell : Cell} z, P cell → P { cell with zerowidth := z }
  widen : ∀ {cell : Cell} {w}, P cell → 0 < w → P { cell with width := w }

namespace Each

variable {P : Cell → Prop} {cells : List Cell} {style : Style}

theorem set (each : Each P cells) {cell : Cell} (one : P cell) (i : Nat) : Each P (cells.set i cell) := by
  intro other member
  rcases List.mem_or_eq_of_mem_set member with old | rfl
  · exact each other old
  · exact one

theorem mem_repairCells {prev cell : Cell} (member : cell ∈ Row.repairCells style prev cells) :
    cell ∈ cells ∨ cell = Cell.erased style := by
  fun_induction Row.repairCells style prev cells <;> grind

section Edits

variable {row : Row} (closed : CellClosed P) (each : Each P row.cells)

include closed

theorem get (each : Each P cells) (i : Nat) : P (cells.getD i outside) := by
  rw [List.getD_eq_getElem?_getD]
  cases found : cells[i]? with
  | none => exact closed.erased {}
  | some cell => exact each cell (List.mem_of_getElem? found)

theorem sweep (each : Each P cells) {source : Nat → Option Nat} (targets : List Nat) :
    Each P (sweep outside (Cell.erased style) source targets cells) := by
  induction targets generalizing cells with
  | nil => exact each
  | cons i rest ih =>
    refine ih (each.set ?_ i)
    unfold written
    cases source i with
    | none => exact closed.erased style
    | some j => exact each.get closed j

theorem repairCells (each : Each P cells) (prev : Cell) : Each P (Row.repairCells style prev cells) := by
  intro cell member
  rcases mem_repairCells member with old | rfl
  · exact each cell old
  · exact closed.erased style

include each

theorem fill (lo count : Nat) : Each P (row.fill style lo count).cells := each.sweep closed _

theorem breakPair (col : Nat) : Each P (row.breakPair style col).cells :=
  (each.set (closed.erased style) col).set (closed.erased style) (col + 1)

theorem cutBefore (col : Nat) : Each P (row.cutBefore style col).cells := by
  unfold Row.cutBefore
  split
  · exact each.breakPair closed _
  · exact each

theorem insertBlanks (col n : Nat) : Each P (row.insertBlanks style col n).cells := by
  have cut : Each P (row.insertCut style (row.cells.length - 1) (min col (row.cells.length - 1)) (max n 1)).cells := by
    unfold Row.insertCut
    dsimp only
    split
    · exact Each.breakPair closed (each.cutBefore closed _) _
    · exact each.cutBefore closed _
  exact @Each.fill _ _ (Row.mk _ false) closed (cut.sweep closed _) _ _

theorem deleteChars (col n : Nat) : Each P (row.deleteChars style col n).cells := by
  have cut : Each P (row.deleteCut style (row.cells.length - 1) (min col (row.cells.length - 1)) (max n 1)).cells := by
    unfold Row.deleteCut
    dsimp only
    split
    · exact Each.cutBefore closed (each.cutBefore closed _) _
    · exact each.cutBefore closed _
  exact cut.sweep closed _

theorem eraseRange (start stop : Nat) : Each P (row.eraseRange style start stop).cells := by
  unfold Row.eraseRange
  dsimp only
  split
  · exact each
  · exact each.fill closed _ _

theorem uncover (col w : Nat) : Each P (row.uncover style col w).cells := by
  have erased := closed.erased style
  unfold Row.uncover
  dsimp only
  generalize start : (if (row.get col).spacer = true ∧ 0 < col then row.set (col - 1) (Cell.erased style) else row) = first
  have each : Each P first.cells := by
    subst start
    split
    · exact each.set erased _
    · exact each
  split
  · split
    · exact each.set erased _
    · exact each
  · split
    · exact each.set erased _
    · exact each

variable {col : Nat} {cell : Cell}

theorem put {w : Nat} (one : P cell) : Each P (row.put col w cell).cells := by
  unfold Row.put
  dsimp only
  split
  · exact (each.set one col).set (closed.spacer _) (col + 1)
  · exact each.set one col

theorem write {w : Nat} {insert : Bool} (one : P cell) : Each P (row.write style col w insert cell).cells := by
  have uncovered : Each P (row.uncover style col w).cells := each.uncover closed col w
  refine Each.repairCells closed ?_ outside
  split
  · exact Each.put closed (uncovered.insertBlanks closed col w) one
  · exact Each.put closed uncovered one

theorem widen {insert : Bool} (one : P cell) : Each P (row.widen style col insert cell).cells := by
  unfold Row.widen
  dsimp only
  split
  · exact Each.put closed (each.insertBlanks closed _ _) one
  · split
    · exact @Each.put _ (row.set (col + 2) (Cell.erased style)) closed (each.set (closed.erased style) _) _ _ _ one
    · exact Each.put closed each one

end Edits

theorem closed {F : Frame} (closed : CellClosed P)
    (pen : ∀ cell : Cell, cell.hyperlink = F.links.current → cell.spacer = false → 0 < cell.width → P cell) :
    EditClosed F (Each P) where
  blank style cell member := by
    rw [(List.mem_replicate.mp member).2]
    exact closed.erased style
  fill each := each.fill closed _ _
  eraseRange each := each.eraseRange closed _ _
  insertBlanks each := each.insertBlanks closed _ _
  deleteChars each := each.deleteChars closed _ _
  repair each := each.repairCells closed _
  write each linked plain width positive := each.write closed (pen _ linked plain (width ▸ positive))
  mark {row col _ cell} each pushed := by
    obtain ⟨z, _, _, rfl⟩ := Cell.pushZerowidth_some pushed
    exact each.set (closed.mark z (each.get closed col)) col
  widen {row _ col w _ _ cell} each pushed grows _ _ := by
    obtain ⟨z, _, _, rfl⟩ := Cell.pushZerowidth_some pushed
    exact each.widen closed (closed.widen (closed.mark z (each.get closed col)) (Nat.zero_lt_of_lt grows))

end Each

end Bitty.Screen

/-! The shape of a reachable terminal: full rows of whole pairs, and a settled cursor. -/

namespace Bitty.Screen

open Bitty.Vt

/-- A row of the width of the grid, whose pairs are whole and whose cells have a width. -/
structure Shaped (width : Nat) (cells : List Cell) : Prop where
  length : cells.length = width
  pairs : WidePairs cells
  measured : Each (fun cell => 0 < cell.width) cells

theorem measured_closed : CellClosed fun cell => 0 < cell.width where
  erased _ := Nat.one_pos
  spacer _ := Nat.two_pos
  mark _ positive := positive
  widen _ positive := positive

namespace Row

variable {row : Row} {erase : Style} {col : Nat} {cell : Cell}

theorem widePairs_blank (cols : Nat) (style : Style) : WidePairs (blank cols style).cells := by
  have narrow (i : Nat) : ((List.replicate cols (Cell.erased style)).getD i outside).Narrow := by
    rw [List.getD_eq_getElem?_getD, List.getElem?_replicate]
    split
    · exact Cell.narrow_erased
    · exact Cell.narrow_erased
  exact ⟨fun i spacer => absurd spacer (Bool.eq_false_iff.mp (narrow i).2), fun i lead => absurd lead (narrow i).1⟩

theorem widePairs_fill_all (pairs : WidePairs row.cells) : WidePairs (row.fill erase 0 row.cells.length).cells := by
  refine widePairs_fill pairs (fun _ => rfl) fun spacer => ?_
  have inside := row.spacer_inside spacer
  omega

theorem widePairs_write (w : Nat) (insert : Bool) : WidePairs (row.write erase col w insert cell).cells := widePairs_repair

theorem widePairs_mark (pairs : WidePairs row.cells) (z : Zerowidth) :
    WidePairs (row.set col { row.get col with zerowidth := z }).cells := by
  refine WidePairs.congr pairs fun k => ?_
  rw [get_set]
  by_cases here : col = k ∧ col < row.cells.length
  · rw [if_pos here, here.1]
    exact ⟨rfl, Iff.rfl⟩
  · rw [if_neg here]
    exact ⟨rfl, Iff.rfl⟩

theorem widePairs_widen_insert (pairs : WidePairs row.cells) (inside : col + 1 < row.cells.length)
    (narrow : (row.get col).Narrow) (lead : cell.Lead) : WidePairs (row.widen erase col true cell).cells := by
  have size : row.cells.length = row.cells.length - 1 + 1 := by omega
  have moved : WidePairs (row.insertBlanks erase (col + 1) 1).cells := widePairs_insertBlanks pairs (col + 1) 1
  have here : ((row.insertBlanks erase (col + 1) 1).get col).Narrow := by
    rw [get_insertBlanks size (by omega), if_pos (by omega)]
    by_cases torn : InsertTorn row (row.cells.length - 1) (min (col + 1) (row.cells.length - 1)) (max 1 1) col
    · rw [(get_insertCut size (by omega) col).1 torn]
      exact Cell.narrow_erased
    · rw [(get_insertCut size (by omega) col).2 torn]
      exact narrow
  have next : (row.insertBlanks erase (col + 1) 1).get (col + 1) = Cell.erased erase := by
    rw [get_insertBlanks size (by omega), if_neg (by omega), if_pos (by omega)]
  unfold widen
  dsimp only
  rw [if_pos rfl]
  refine widePairs_put (by rw [length_insertBlanks]; exact inside) lead (fun k _ _ spacer => ?_) fun k _ _ isLead => ?_
  · obtain ⟨positive, before⟩ := spacer_get moved spacer
    refine ⟨positive, before, fun same => here.1 (same ▸ before), fun same => ?_⟩
    rw [same, next] at before
    exact Cell.not_lead_erased before
  · have after := lead_get moved isLead
    refine ⟨after, fun same => ?_⟩
    rw [same, here.2] at after
    cases after

theorem widePairs_widen_replace (pairs : WidePairs row.cells) (inside : col + 1 < row.cells.length)
    (narrow : (row.get col).Narrow) (lead : cell.Lead) : WidePairs (row.widen erase col false cell).cells := by
  unfold widen
  dsimp only
  rw [if_neg Bool.false_ne_true]
  split
  next ahead =>
    have isLead : (row.get (col + 1)).Lead := ⟨ahead.1, Bool.eq_false_iff.mpr ahead.2.1⟩
    have at_ (k : Nat) : (row.set (col + 2) (Cell.erased erase)).get k = if col + 2 = k then Cell.erased erase else row.get k := by
      simp only [get_set, ahead.2.2, and_true]
    refine widePairs_put (by rw [length_set]; exact inside) lead (fun k first second spacer => ?_) fun k first second leads => ?_
    · rw [at_] at spacer
      split at spacer
      · cases spacer
      next third =>
        obtain ⟨positive, before⟩ := spacer_get pairs spacer
        refine ⟨positive, ?_, fun same => narrow.1 (same ▸ before), by omega⟩
        rw [at_, if_neg fun same => ?_]
        · exact before
        · rw [← same] at before
          exact Cell.not_lead_of_spacer (lead_get pairs isLead) before
    · rw [at_] at leads
      split at leads
      · exact absurd leads Cell.not_lead_erased
      next third =>
        have after := lead_get pairs leads
        rw [at_, if_neg (by omega)]
        refine ⟨after, fun same => ?_⟩
        rw [same, narrow.2] at after
        cases after
  next ahead =>
    have notLead : ¬(row.get (col + 1)).Lead := fun isLead =>
      ahead ⟨isLead.1, by rw [isLead.2]; exact Bool.false_ne_true, row.spacer_inside (lead_get pairs isLead)⟩
    refine widePairs_put inside lead (fun k _ _ spacer => ?_) fun k _ _ leads => ?_
    · obtain ⟨positive, before⟩ := spacer_get pairs spacer
      exact ⟨positive, before, fun same => narrow.1 (same ▸ before), fun same => notLead (same ▸ before)⟩
    · have after := lead_get pairs leads
      refine ⟨after, fun same => ?_⟩
      rw [same, narrow.2] at after
      cases after

end Row

theorem Shaped.closed {F : Frame} (cols : F.cols = F.width) (positive : 0 < F.width) : EditClosed F (Shaped F.width) := by
  have each : EditClosed F (Each fun cell => 0 < cell.width) := Each.closed measured_closed fun _ _ _ positive => positive
  constructor
  case blank => exact fun style =>
    ⟨by rw [← cols]; exact List.length_replicate, Row.widePairs_blank _ style, each.blank style⟩
  case fill =>
    intro row style shaped
    have whole : min (F.width - 1) (F.cols - 1) + 1 = row.cells.length := by
      rw [shaped.length]
      omega
    refine ⟨by rw [Row.length_fill]; exact shaped.length, ?_, each.fill shaped.measured⟩
    rw [whole]
    exact Row.widePairs_fill_all shaped.pairs
  case eraseRange => exact fun shaped => ⟨by rw [Row.length_eraseRange]; exact shaped.length,
    Row.widePairs_eraseRange shaped.pairs _ _, each.eraseRange shaped.measured⟩
  case insertBlanks => exact fun shaped => ⟨by rw [Row.length_insertBlanks]; exact shaped.length,
    Row.widePairs_insertBlanks shaped.pairs _ _, each.insertBlanks shaped.measured⟩
  case deleteChars => exact fun shaped => ⟨by rw [Row.length_deleteChars]; exact shaped.length,
    Row.widePairs_deleteChars shaped.pairs _ _, each.deleteChars shaped.measured⟩
  case repair => exact fun shaped => ⟨by rw [Row.length_repair]; exact shaped.length,
    Row.widePairs_repair, each.repair shaped.measured⟩
  case write => exact fun shaped linked plain width w_pos => ⟨by rw [Row.length_write]; exact shaped.length,
    Row.widePairs_write _ _, each.write shaped.measured linked plain width w_pos⟩
  case mark =>
    intro row col scalar cell shaped pushed
    refine ⟨by rw [Row.length_set]; exact shaped.length, ?_, each.mark shaped.measured pushed⟩
    obtain ⟨z, _, _, rfl⟩ := Cell.pushZerowidth_some pushed
    exact Row.widePairs_mark shaped.pairs z
  case widen =>
    intro row erase col w insert scalar cell shaped pushed grows small inside
    refine ⟨by rw [Row.length_widen]; exact shaped.length, ?_, each.widen shaped.measured pushed grows small inside⟩
    obtain ⟨z, _, plain, rfl⟩ := Cell.pushZerowidth_some pushed
    have wide : 0 < (row.get col).width := Each.get measured_closed shaped.measured col
    dsimp only at grows
    obtain rfl : w = 2 := by omega
    have narrow : (row.get col).Narrow := ⟨fun lead => by rw [lead.1] at grows; omega, plain⟩
    have lead : Cell.Lead { { row.get col with zerowidth := z } with width := 2 } := ⟨rfl, plain⟩
    have inside : col + 1 < row.cells.length := by
      rw [shaped.length]
      exact inside
    cases insert with
    | true => exact Row.widePairs_widen_insert shaped.pairs inside narrow lead
    | false => exact Row.widePairs_widen_replace shaped.pairs inside narrow lead

namespace State

structure Settled (s : State) : Prop where
  row : s.cursor.position.row ≤ s.height - 1
  col : s.cursor.position.col ≤ s.width - 1
  origin : s.modes.origin = true → s.scrollRegionTop ≤ s.cursor.position.row ∧ s.cursor.position.row ≤ s.scrollRegionBottom
  plain : (s.screensActive.get s.cursor.position.row s.cursor.position.col).spacer = false

/-- Both grids and the scrollback have the shape that the terminal's size asks for, and the cursor is settled. -/
structure Sound (s : State) : Prop where
  shape : s.Holds ⟨s.width, s.height, s.width, s.links⟩ (Shaped s.width)
  positive : 0 < s.width
  settled : s.Settled

variable {s : State}

variable {F : Frame}

theorem Holds.row {Q : List Cell → Prop} (held : s.Holds F Q) {r : Nat} (inside : r < F.rows) :
    Q (s.screensActive.row r).cells := by
  have bound : r < s.screensActive.lines.length := by
    rw [held.active.count]
    exact inside
  unfold Grid.row
  rw [List.getD_eq_getElem?_getD, List.getElem?_eq_getElem bound]
  exact held.active.rows _ (List.getElem_mem bound)

theorem Settled.enforce_eq (settled : s.Settled) : s.enforceCursorInvariants = s := by
  have row := settled.row
  have origin := settled.origin
  unfold enforceCursorInvariants
  dsimp only
  have sameRow : (if s.modes.origin = true then max s.scrollRegionTop (min (min s.cursor.position.row (s.height - 1))
      s.scrollRegionBottom) else min s.cursor.position.row (s.height - 1)) = s.cursor.position.row := by
    split
    next on =>
      have region := origin on
      omega
    next => omega
  rw [sameRow, Nat.min_eq_left settled.col, if_neg]
  · rfl
  · rw [settled.plain]
    exact fun both => Bool.false_ne_true both.1

theorem settled_enforce (held : s.Holds F (Shaped F.width)) : s.enforceCursorInvariants.Settled := by
  have region := held.region
  have height := held.height
  unfold enforceCursorInvariants
  dsimp only
  generalize row_ : (if s.modes.origin = true then max s.scrollRegionTop (min (min s.cursor.position.row (s.height - 1))
    s.scrollRegionBottom) else min s.cursor.position.row (s.height - 1)) = row
  generalize col_ : min s.cursor.position.col (s.width - 1) = col
  have inside : row ≤ s.height - 1 ∧ (s.modes.origin = true → s.scrollRegionTop ≤ row ∧ row ≤ s.scrollRegionBottom) := by
    rw [← row_]
    split
    next on => exact ⟨by omega, fun _ => by omega⟩
    next off => exact ⟨by omega, fun on => absurd on off⟩
  have pairs := (held.row (r := row) (by omega)).pairs
  refine ⟨inside.1, ?_, inside.2, ?_⟩
  · dsimp only [moveCursor]
    split <;> omega
  · by_cases back : (s.screensActive.get row col).spacer = true ∧ 0 < col
    · have lead : (s.screensActive.get row (col - 1)).Lead := (Row.spacer_get pairs back.1).2
      rw [if_pos back]
      exact lead.2
    · rw [if_neg back, ← Bool.not_eq_true]
      exact fun spacer => back ⟨spacer, (Row.spacer_get pairs spacer).1⟩

theorem Holds.sound (held : s.Holds F (Shaped F.width)) (cols : F.cols = F.width) (positive : 0 < F.width) :
    s.enforceCursorInvariants.Sound := by
  have settled := settled_enforce held
  have width : s.width = F.width := held.width
  have height : s.height = F.rows := held.height
  have links : s.links = F.links := held.links
  obtain ⟨_, _, _, _⟩ := F
  dsimp only at *
  subst cols width height links
  exact ⟨held, positive, settled⟩

theorem Sound.apply (sound : s.Sound) (tables : UnicodeTables) (action : TerminalAction) : (s.apply tables action).Sound := by
  have closed := Shaped.closed (F := ⟨s.width, s.height, s.width, s.links⟩) rfl sound.positive
  have plain {action : TerminalAction} (calm : action ≠ .fullReset) (unlinked : ∀ link, action ≠ .oscHyperlink link) :
      (s.apply tables action).Sound :=
    (sound.shape.handle closed tables calm unlinked).sound rfl sound.positive
  cases action with
  | fullReset => exact (sound.shape.fullReset fun style => closed.blank style).sound rfl sound.positive
  | oscHyperlink link => exact (sound.shape.oscHyperlink link).sound rfl sound.positive
  | _ => exact plain nofun nofun

theorem Sound.applyAll (sound : s.Sound) (tables : UnicodeTables) (actions : List TerminalAction) :
    (s.applyAll tables actions).Sound := by
  induction actions generalizing s with
  | nil => exact sound
  | cons action rest ih => exact ih (sound.apply tables action)

theorem sound_withScrollbackLines (maxLines : Nat) : (withScrollbackLines maxLines).Sound := by
  have closed := Shaped.closed (F := ⟨GRID_COLUMNS, GRID_ROWS, GRID_COLUMNS, ⟨[], 0, none⟩⟩) rfl (by decide)
  have grid : (Grid.new GRID_ROWS GRID_COLUMNS).Holds GRID_COLUMNS GRID_ROWS (Shaped GRID_COLUMNS) := by
    refine ⟨rfl, List.length_replicate, fun row member => ?_⟩
    rw [(List.mem_replicate.mp member).2]
    exact closed.blank {}
  refine ⟨⟨rfl, rfl, rfl, ⟨Nat.zero_le _, Nat.lt_succ_self 23⟩, grid, grid, nofun⟩, Nat.succ_pos 79, ?_⟩
  exact ⟨Nat.zero_le _, Nat.zero_le _, nofun, rfl⟩

end State

end Bitty.Screen
