import Bitty.Term.Buffer.Relocate

/-! Properties of rows that every action keeps: rows move whole, and others than blank ones are written or restored. -/

namespace Bitty.Term

variable {width height : Nat} (P : List Cell → Prop)

def Action.Writes : Action width height → Prop
  | .write _ content => P content.cells.toList
  | _ => True

def Action.Restores : Action width height → Prop
  | .restoreScrollback lines => ∀ cells ∈ lines, P cells
  | _ => True

namespace Grid

def All (g : Grid width height) : Prop := ∀ r, P (g r).cells.toList

variable {P} {g : Grid width height}

theorem All.removeLinesUp (all : g.All P) (blank : P (Row.blank width).cells.toList) (top bottom : Fin height) (n : Nat) :
    (g.removeLinesUp top bottom n).All P := by
  intro r
  unfold Grid.removeLinesUp
  split_ifs
  · exact all _
  · exact blank
  · exact all r

theorem All.insertBlankLinesDown (all : g.All P) (blank : P (Row.blank width).cells.toList) (top bottom : Fin height)
    (n : Nat) : (g.insertBlankLinesDown top bottom n).All P := by
  intro r
  unfold Grid.insertBlankLinesDown
  split_ifs
  · exact all r
  · exact blank
  · exact all _
  · exact all r

end Grid

namespace State

structure Grids (s : State width height) : Prop where
  main : s.main.All P
  alt : s.alt.All P

def History (s : State width height) : Prop := ∀ line ∈ s.scrollback.lines, P line.cells

variable {P} {s : State width height}

theorem Grids.active (grids : s.Grids P) : s.screensActive.All P := by
  unfold screensActive
  split
  · exact grids.alt
  · exact grids.main

theorem Grids.setActive (grids : s.Grids P) {g : Grid width height} (all : g.All P) : (s.setActive g).Grids P := by
  unfold State.setActive
  split
  · exact ⟨grids.main, all⟩
  · exact ⟨all, grids.alt⟩

/-- Rows move whole, so that all have what the blank ones and those written have. -/
theorem Grids.perform (grids : s.Grids P) (blank : P (Row.blank width).cells.toList) {act : Action width height}
    (writes : act.Writes P) : (s.perform act).Grids P := by
  have cleared : (Grid.cleared s.screensActive).All P := fun _ => blank
  cases act with
  | write row content =>
    refine grids.setActive fun r => ?_
    unfold Grid.set
    by_cases here : r = row
    · rw [here, Function.update_self]
      exact writes
    · rw [Function.update_of_ne here]
      exact grids.active r
  | scrollUpRegion n =>
    have scrolled := grids.setActive (grids.active.removeLinesUp blank s.scrollRegionTop s.scrollRegionBottom n)
    change (s.scrollUpRegion n).Grids P
    unfold State.scrollUpRegion
    dsimp only
    split
    · exact ⟨scrolled.main, scrolled.alt⟩
    · exact scrolled
  | scrollDownRegion n => exact grids.setActive (grids.active.insertBlankLinesDown blank _ _ n)
  | insertLines row n =>
    change (s.insertLines row n).Grids P
    unfold State.insertLines
    split
    · exact grids.setActive (grids.active.insertBlankLinesDown blank _ _ n)
    · exact grids
  | deleteLines row n =>
    change (s.deleteLines row n).Grids P
    unfold State.deleteLines
    split
    · exact grids.setActive (grids.active.removeLinesUp blank _ _ n)
    · exact grids
  | setScrollRegion top bottom =>
    change (s.setScrollRegion top bottom).Grids P
    unfold State.setScrollRegion
    split
    · exact grids
    · exact ⟨grids.main, grids.alt⟩
  | eraseScrollback => exact ⟨grids.main, grids.alt⟩
  | scrollAndClear =>
    change s.scrollAndClear.Grids P
    unfold State.scrollAndClear
    have emptied := grids.setActive cleared
    dsimp only
    split
    · exact emptied
    · exact ⟨emptied.main, emptied.alt⟩
  | enterAltScreen clears =>
    change (s.switchAltScreen true clears).Grids P
    unfold State.switchAltScreen
    split
    · exact grids
    · cases clears with
      | true => exact ⟨grids.main, fun _ => blank⟩
      | false => exact ⟨grids.main, grids.alt⟩
  | leaveAltScreen =>
    change (s.switchAltScreen false false).Grids P
    unfold State.switchAltScreen
    split
    · exact grids
    · exact ⟨grids.main, grids.alt⟩
  | fullReset => exact ⟨fun _ => blank, fun _ => blank⟩
  | restoreScrollback lines => exact ⟨grids.main, grids.alt⟩

theorem Grids.run (grids : s.Grids P) (blank : P (Row.blank width).cells.toList) {acts : List (Action width height)}
    (writes : ∀ act ∈ acts, act.Writes P) : (acts.foldl State.perform s).Grids P := by
  induction acts generalizing s with
  | nil => exact grids
  | cons act rest ih =>
    exact ih (grids.perform blank (writes act List.mem_cons_self)) fun later member =>
      writes later (List.mem_cons_of_mem _ member)

theorem all_pushAll {sb : Scrollback} (old : ∀ line ∈ sb.lines, P line.cells) {rows : List (List Cell × Bool)}
    (new : ∀ row ∈ rows, P row.1) : ∀ line ∈ (sb.pushAll rows).lines, P line.cells := by
  induction rows generalizing sb with
  | nil => exact old
  | cons row rest ih =>
    refine ih (fun line member => ?_) fun later member => new later (List.mem_cons_of_mem _ member)
    rcases List.mem_append.mp (List.mem_of_mem_drop member) with kept | pushed
    · exact old line kept
    · rw [List.mem_singleton.mp pushed]
      exact new row List.mem_cons_self

theorem History.perform (history : s.History P) (grids : s.Grids P) {act : Action width height} (restores : act.Restores P) :
    (s.perform act).History P := by
  unfold History
  rw [scrollback_perform]
  split_ifs with clears
  · exact nofun
  · refine all_pushAll history fun row member => ?_
    unfold State.pushed at member
    cases act with
    | scrollUpRegion n =>
      dsimp only at member
      split_ifs at member
      · obtain ⟨source, inRows, rfl⟩ := List.mem_map.mp member
        obtain ⟨r, _, rfl⟩ := List.mem_map.mp inRows
        exact grids.active r
      · cases member
    | scrollAndClear =>
      dsimp only at member
      split_ifs at member
      · cases member
      · obtain ⟨source, inRows, rfl⟩ := List.mem_map.mp member
        obtain ⟨r, _, rfl⟩ := List.mem_map.mp inRows
        exact grids.active r
    | restoreScrollback lines =>
      obtain ⟨cells, inLines, rfl⟩ := List.mem_map.mp member
      exact restores cells inLines
    | _ => cases member

end State

end Bitty.Term

/-! Screens whose rows hold whole wide cells of printed text, along every run. -/

namespace Bitty.Term

variable {width height : Nat}

/-- The cells of a row: no wide cell is cut, no cell breaks a line, and what a wide cell shows does not end in a blank. -/
structure Row.Intact (row : Row width) : Prop where
  paired : WidePaired row.cells.toList
  unbroken : ∀ cell ∈ row.cells.toList, '\n' ∉ cell.text
  solid : ∀ cell ∈ row.cells.toList, cell.width = 2 → cell.spacer = false → cell.text.getLast? ≠ some ' '

theorem Row.Intact.blank (width : Nat) : (Row.blank width).Intact := by
  have erased : ∀ cell ∈ (Row.blank width).cells.toList, cell = Cell.erased := by
    intro cell member
    rw [Row.blank, Vector.toList_replicate] at member
    exact List.eq_of_mem_replicate member
  refine ⟨⟨fun {c half} found second => ?_, fun {c first} found wide _ => ?_⟩, fun cell member => ?_, fun cell member wide => ?_⟩
  · rw [erased half (List.mem_of_getElem? found)] at second
    cases second
  · rw [erased first (List.mem_of_getElem? found)] at wide
    cases wide
  · rw [erased cell member]
    decide
  · rw [erased cell member] at wide
    cases wide

namespace State

def Intact (s : State width height) : Prop := ∀ r, (s.main r).Intact ∧ (s.alt r).Intact

end State

def Action.Intact : Action width height → Prop
  | .write _ content => content.Intact
  | _ => True

namespace State

variable {s : State width height}

theorem Intact.active (intact : s.Intact) (r : Fin height) : (s.screensActive r).Intact := by
  unfold screensActive
  split
  · exact (intact r).2
  · exact (intact r).1

theorem intact_of_cells {row other : Row width} (here : row.Intact) (same : other.cells.toList = row.cells.toList) :
    other.Intact := ⟨same ▸ here.paired, same ▸ here.unbroken, same ▸ here.solid⟩

theorem intact_iff : s.Intact ↔ s.Grids fun cells => ∀ row : Row width, row.cells.toList = cells → row.Intact := by
  constructor
  · intro intact
    exact ⟨fun r _ same => intact_of_cells (intact r).1 same, fun r _ same => intact_of_cells (intact r).2 same⟩
  · exact fun grids r => ⟨grids.main r _ rfl, grids.alt r _ rfl⟩

theorem Intact.run (intact : s.Intact) {acts : List (Action width height)} (writes : ∀ act ∈ acts, act.Intact) :
    (acts.foldl State.perform s).Intact := by
  refine intact_iff.mpr ((intact_iff.mp intact).run (fun _ same => intact_of_cells (Row.Intact.blank width) same) ?_)
  intro act member
  have whole := writes act member
  cases act with
  | write row content => exact fun _ same => intact_of_cells whole same
  | _ => trivial

theorem drop_flatMap_finRange {α : Type} {w h : Nat} (f : Fin h → List α) (sized : ∀ r, (f r).length = w) (r : Fin h) :
    (((List.finRange h).flatMap f).drop (r * w)).take w = f r := by
  have split : List.finRange h = (List.finRange h).take r ++ r :: (List.finRange h).drop (r + 1) := by
    conv_lhs => rw [← List.take_append_drop r (List.finRange h)]
    rw [List.drop_eq_getElem_cons (by simp)]
    simp
  have before : (((List.finRange h).take r).flatMap f).length = r * w := by
    rw [List.length_flatMap, List.map_congr_left fun x _ => sized x, List.map_const', List.sum_replicate_nat, List.length_take,
      List.length_finRange, Nat.min_eq_left (Nat.le_of_lt r.isLt)]
  rw [split, List.flatMap_append, List.flatMap_cons, List.drop_left' before, List.take_left' (sized r)]

/-- The screen that is shown, for a terminal whose dimensions are clamped as they are on every resize. -/
def snapshot (s : State width height) (narrow : width ≤ MAX_GRID_DIM) (low : height ≤ MAX_GRID_DIM) : Snapshot where
  width := width
  height := height
  cells := (List.finRange height).flatMap fun r => (s.screensActive r).cells.toList
  whole := by
    rw [List.length_flatMap, List.map_congr_left fun r _ => Vector.length_toList, List.map_const', List.sum_replicate_nat,
      List.length_finRange, Nat.mul_comm]
  narrow := narrow
  low := low

variable {narrow : width ≤ MAX_GRID_DIM} {low : height ≤ MAX_GRID_DIM}

theorem row_snapshot (r : Fin height) : (s.snapshot narrow low).row r = (s.screensActive r).cells.toList :=
  drop_flatMap_finRange (fun r => (s.screensActive r).cells.toList) (fun _ => Vector.length_toList) r

theorem Intact.snapshot_paired (intact : s.Intact) : (s.snapshot narrow low).Paired := by
  intro r inside
  have row : (s.snapshot narrow low).row r = _ := row_snapshot ⟨r, inside⟩
  rw [row]
  exact (intact.active ⟨r, inside⟩).paired

end State

end Bitty.Term

/-! How the scrollback of a run goes on from the scrollback before it. -/

namespace Bitty.Term

namespace Scrollback

/-- Newer lines were appended and the oldest were dropped, down to none on a removal of all. -/
def Grows (sb later : Scrollback) : Prop :=
  sb.nextId ≤ later.nextId ∧ ∃ more k, k ≤ (sb.lines ++ more).length ∧ later.lines = (sb.lines ++ more).drop k ∧
    ∀ line ∈ more, sb.nextId ≤ line.id

variable {sb later last : Scrollback}

theorem Grows.refl (sb : Scrollback) : sb.Grows sb :=
  ⟨Nat.le_refl _, [], 0, Nat.zero_le _, by simp, List.forall_mem_nil _⟩

theorem Grows.trans (first : sb.Grows later) (second : later.Grows last) : sb.Grows last := by
  obtain ⟨next, more, k, short, lines, new⟩ := first
  obtain ⟨next', more', k', short', lines', new'⟩ := second
  refine ⟨next.trans next', more ++ more', k + k', ?_, ?_, fun line member => ?_⟩
  · rw [lines, List.length_append, List.length_drop] at short'
    rw [← List.append_assoc, List.length_append]
    omega
  · rw [lines', lines, ← List.drop_drop, ← List.append_assoc, List.drop_append_of_le_length short]
  · rcases List.mem_append.mp member with old | fresh
    · exact new line old
    · exact next.trans (new' line fresh)

theorem Grows.push (sb : Scrollback) (cells : List Cell) (wrapped : Bool) : sb.Grows (sb.pushWithWrap cells wrapped) := by
  refine ⟨Nat.le_succ _, [⟨sb.nextId, cells, wrapped⟩], sb.lines.length + 1 - sb.maxLines, ?_, rfl, fun line member => ?_⟩
  · rw [List.length_append, List.length_singleton]
    omega
  · rw [List.mem_singleton.mp member]

theorem Grows.pushAll (sb : Scrollback) (rows : List (List Cell × Bool)) : sb.Grows (sb.pushAll rows) := by
  induction rows generalizing sb with
  | nil => exact Grows.refl sb
  | cons row rest ih => exact (Grows.push sb row.1 row.2).trans (ih _)

theorem Grows.clear (sb : Scrollback) : sb.Grows sb.clear :=
  ⟨Nat.le_refl _, [], sb.lines.length, by simp, by simp [Scrollback.clear], List.forall_mem_nil _⟩

theorem Grows.perform {width height : Nat} (s : State width height) (act : Action width height) :
    s.scrollback.Grows (s.perform act).scrollback := by
  rw [State.scrollback_perform]
  split_ifs
  · exact Grows.clear _
  · exact Grows.pushAll _ _

theorem Grows.kept (grows : sb.Grows later) {i : Nat} {line : ScrollbackLine} (here : sb.lines[i]? = some line)
    (retained : ∃ kept ∈ later.lines, kept.id = line.id) :
    ∃ j, later.lines[j]? = some line ∧ ∀ r, i + r < sb.lines.length → later.lines[j + r]? = sb.lines[i + r]? := by
  obtain ⟨_, more, k, _, lines, new⟩ := grows
  obtain ⟨kept, member, same⟩ := retained
  obtain ⟨j, found⟩ := List.mem_iff_getElem?.mp member
  rw [lines, List.getElem?_drop] at found
  have known := sb.fresh line (List.mem_of_getElem? here)
  have old : k + j < sb.lines.length := by
    by_contra late
    rw [List.getElem?_append_right (by omega)] at found
    have fresh := new kept (List.mem_of_getElem? found)
    omega
  rw [List.getElem?_append_left old] at found
  have place : k + j = i := by
    rcases Nat.lt_trichotomy (k + j) i with before | same' | after
    · have less := id_lt_of_lt found here before
      omega
    · exact same'
    · have less := id_lt_of_lt here found after
      omega
  refine ⟨j, ?_, fun r bound => ?_⟩
  · rw [lines, List.getElem?_drop, place, List.getElem?_append_left (by omega)]
    exact here
  · rw [lines, List.getElem?_drop, ← Nat.add_assoc, place, List.getElem?_append_left bound]

theorem Grows.gone (grows : sb.Grows later) {id : Nat} (known : id < sb.nextId) (gone : ∀ line ∈ sb.lines, line.id ≠ id) :
    ∀ line ∈ later.lines, line.id ≠ id := by
  obtain ⟨_, more, k, _, lines, new⟩ := grows
  intro line member
  rw [lines] at member
  rcases List.mem_append.mp (List.mem_of_mem_drop member) with old | fresh
  · exact gone line old
  · have bound := new line fresh
    omega

theorem findIdx?_id {j : Nat} {line : ScrollbackLine} (here : sb.lines[j]? = some line) :
    sb.lines.findIdx? (·.id = line.id) = some j := by
  refine List.findIdx?_eq_some_iff_getElem.mpr ?_
  obtain ⟨bound, at_j⟩ := List.getElem?_eq_some_iff.mp here
  refine ⟨bound, by simp [at_j], fun m earlier => ?_⟩
  have below := id_lt_of_lt (List.getElem?_eq_getElem (by omega)) here earlier
  simp only [decide_eq_true_eq]
  omega

theorem findIdx?_id_none {id : Nat} (gone : ∀ line ∈ sb.lines, line.id ≠ id) : sb.lines.findIdx? (·.id = id) = none := by
  rw [List.findIdx?_eq_none_iff]
  intro line member
  simpa using gone line member

end Scrollback

end Bitty.Term
