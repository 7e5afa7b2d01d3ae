import Bitty.Term.Screen.Links

/-! Printing in insert mode, beside the insertion of blanks and a replacement. -/

namespace Bitty.Screen

open Bitty.Vt

namespace Row

def TearsPair (row : Row) (col w : Nat) : Prop :=
  (row.get (col + w - 1)).Lead ∧ col + 2 * w < row.cells.length

instance (row : Row) (col w : Nat) : Decidable (row.TearsPair col w) := inferInstanceAs (Decidable (_ ∧ _))

variable {row : Row} {erase : Style} {col w last : Nat} {cell : Cell}

theorem uncover_eq (pairs : WidePairs row.cells) (plain : (row.get col).spacer = false) (one : w = 1 ∨ w = 2) :
    row.uncover erase col w = if (row.get (col + w - 1)).Lead then row.set (col + w) (Cell.erased erase) else row := by
  have notSpacer : ¬((row.get col).spacer = true ∧ 0 < col) := fun both => by
    rw [plain] at both
    exact Bool.false_ne_true both.1
  unfold uncover
  dsimp only
  rw [if_neg notSpacer]
  rcases one with rfl | rfl
  · rw [if_pos rfl]
    refine if_congr ⟨fun ahead => ⟨ahead.1, plain⟩, fun lead => ⟨lead.1, ?_, ?_⟩⟩ rfl rfl
    · rw [plain]
      exact Bool.false_ne_true
    · have inside := row.spacer_inside (lead_get pairs lead)
      omega
  · rw [if_neg (by omega)]
    refine if_congr ⟨fun ahead => ⟨ahead.2.1, Bool.eq_false_iff.mpr ahead.2.2.1⟩, fun lead => ⟨?_, lead.1, ?_, ?_⟩⟩ rfl rfl
    all_goals have inside := row.spacer_inside (lead_get pairs lead)
    · omega
    · rw [show col + 1 = col + 2 - 1 from rfl, lead.2]
      exact Bool.false_ne_true
    · omega

theorem get_put (col w : Nat) (cell : Cell) {k : Nat} (away : k < col ∨ col + w ≤ k) (wide : w = 1 ∨ w = 2) :
    (row.put col w cell).get k = row.get k := by
  unfold put
  dsimp only
  split
  next two => rw [get_set, if_neg (by omega), get_set, if_neg (by omega)]
  next one => rw [get_set, if_neg (by omega)]

theorem write_insertBlanks (pairs : WidePairs row.cells) (size : row.cells.length = last + 1) (fits : col + w ≤ last + 1)
    (wide : w = 1 ∨ w = 2) : ((row.insertBlanks erase col w).repair erase).write erase col w false cell =
      ((row.insertBlanks erase col w).put col w cell).repair erase := by
  have moved : WidePairs (row.insertBlanks erase col w).cells := widePairs_insertBlanks pairs col w
  have blank {k : Nat} (low : col ≤ k) (high : k < col + w) : (row.insertBlanks erase col w).get k = Cell.erased erase := by
    rw [get_insertBlanks size (by omega), if_neg (by omega), if_pos (by omega)]
  rw [repair_eq moved]
  unfold write
  dsimp only
  rw [if_neg Bool.false_ne_true, uncover_eq moved _ wide, if_neg]
  · rw [blank (by omega) (by omega)]
    exact Cell.not_lead_erased
  · rw [blank (by omega) (by omega)]
    rfl

variable {i : Nat}

theorem insertTorn_set (other : Cell) {at_ : Nat} (away : at_ ≠ col) (margin : w ≤ last - col → at_ ≠ last - w) :
    InsertTorn (row.set at_ other) last col w i ↔ InsertTorn row last col w i := by
  have start : (row.set at_ other).get col = row.get col := by rw [get_set, if_neg fun same => away same.1]
  unfold InsertTorn
  rw [start]
  by_cases room : w ≤ last - col
  · have edge : (row.set at_ other).get (last - w) = row.get (last - w) := by
      rw [get_set, if_neg fun same => margin room same.1]
    rw [edge]
  · simp only [room, false_and]

theorem insertBlanks_set (size : row.cells.length = last + 1) (fits : col + w ≤ last + 1) (positive : 0 < w)
    (past : last < col + w + w) (other : Cell) :
    (row.set (col + w) other).insertBlanks erase col w = row.insertBlanks erase col w := by
  have size' : (row.set (col + w) other).cells.length = last + 1 := by rw [length_set, size]
  have kept {i : Nat} (near : i < col + w) : ((row.set (col + w) other).insertCut erase last (min col last) (max w 1)).get i =
      (row.insertCut erase last (min col last) (max w 1)).get i := by
    have torn : InsertTorn (row.set (col + w) other) last (min col last) (max w 1) i ↔
        InsertTorn row last (min col last) (max w 1) i := insertTorn_set other (by omega) (by omega)
    by_cases here : InsertTorn row last (min col last) (max w 1) i
    · rw [(get_insertCut size' (by omega) i).1 (torn.mpr here), (get_insertCut size (by omega) i).1 here]
    · rw [(get_insertCut size' (by omega) i).2 (mt torn.mp here), (get_insertCut size (by omega) i).2 here, get_set,
        if_neg (by omega)]
  refine ext (by rw [length_insertBlanks, length_insertBlanks, length_set]) (fun k bound => ?_) rfl
  rw [length_insertBlanks, size'] at bound
  rw [get_insertBlanks size' (by omega), get_insertBlanks size (by omega)]
  split
  · exact kept (by omega)
  · split
    · rfl
    · exact kept (by omega)

theorem get_insertBlanks_before (size : row.cells.length = last + 1) (positive : 0 < w) (inside : col ≤ last)
    (plain : (row.get col).spacer = false) (before : i < col) : (row.insertBlanks erase col w).get i = row.get i := by
  have n : max w 1 = w := by omega
  have low : min col last = col := by omega
  rw [get_insertBlanks size (by omega), n, low, if_pos before]
  refine (get_insertCut size positive i).2 ?_
  rintro (start | ⟨room, edge⟩)
  · rw [plain] at start
    exact Bool.false_ne_true start.1.2
  · omega

theorem get_insertBlanks_moved (size : row.cells.length = last + 1) (positive : 0 < w) (right : col ≤ i)
    (inside : i + w ≤ last) (plain : (row.get col).spacer = false)
    (whole : i ≠ last - w ∧ i ≠ last - w + 1 ∨ ¬(row.get (last - w)).Lead) :
    (row.insertBlanks erase col w).get (i + w) = row.get i := by
  have n : max w 1 = w := by omega
  have low : min col last = col := by omega
  rw [get_insertBlanks size (by omega), n, low, if_neg (by omega), if_neg (by omega), Nat.add_sub_cancel]
  refine (get_insertCut size positive i).2 ?_
  rintro (start | ⟨⟨_, lead⟩, edge⟩)
  · rw [plain] at start
    exact Bool.false_ne_true start.1.2
  · rcases whole with away | none_
    · omega
    · exact none_ lead

theorem get_write_torn (size : row.cells.length = last + 1) (wide : w = 1 ∨ w = 2) (plain : (row.get col).spacer = false)
    (lead : (row.get (col + w - 1)).Lead) (inside : col + 2 * w ≤ last) :
    ((((row.set (col + w) (Cell.erased erase)).insertBlanks erase col w).put col w cell).repair erase).get (col + w - 1 + w) =
      Cell.erased erase := by
  generalize cleared_ : row.set (col + w) (Cell.erased erase) = cleared
  have size' : cleared.cells.length = last + 1 := by rw [← cleared_, length_set, size]
  have same {i : Nat} (near : i < col + w) : cleared.get i = row.get i := by rw [← cleared_, get_set, if_neg (by omega)]
  have here : cleared.get (col + w) = Cell.erased erase := by rw [← cleared_, get_set, if_pos ⟨rfl, by omega⟩]
  have plain' : (cleared.get col).spacer = false := by rw [same (by omega), plain]
  have first : (cleared.insertBlanks erase col w).get (col + w - 1 + w) = row.get (col + w - 1) := by
    rw [get_insertBlanks_moved size' (by omega) (by omega) (by omega) plain' (.inl (by omega)), same (by omega)]
  have second : (cleared.insertBlanks erase col w).get (col + w + w) = Cell.erased erase := by
    rw [get_insertBlanks_moved size' (by omega) (by omega) (by omega) plain', here]
    by_cases edge : col + w = last - w
    · rw [← edge, here]
      exact .inr Cell.not_lead_erased
    · exact .inl (by omega)
  rw [get_repair, if_pos]
  refine .inr ⟨?_, ?_⟩
  · rw [get_put col w cell (by omega) wide, first]
    exact lead
  · rw [get_put col w cell (by omega) wide, show col + w - 1 + w + 1 = col + w + w by omega, second]
    rfl

theorem get_write_moved (pairs : WidePairs row.cells) (size : row.cells.length = last + 1) (wide : w = 1 ∨ w = 2)
    (plain : (row.get col).spacer = false) (lead : (row.get (col + w - 1)).Lead) (inside : col + 2 * w ≤ last) :
    (((row.insertBlanks erase col w).put col w cell).repair erase).get (col + w - 1 + w) = row.get (col + w - 1) := by
  have after : (row.get (col + w)).spacer = true := by
    have next := lead_get pairs lead
    rwa [show col + w - 1 + 1 = col + w by omega] at next
  have first : (row.insertBlanks erase col w).get (col + w - 1 + w) = row.get (col + w - 1) :=
    get_insertBlanks_moved size (by omega) (by omega) (by omega) plain (.inl (by omega))
  have second : (row.insertBlanks erase col w).get (col + w + w) = row.get (col + w) := by
    refine get_insertBlanks_moved size (by omega) (by omega) (by omega) plain ?_
    by_cases edge : col + w = last - w
    · rw [← edge]
      exact .inr (Cell.not_lead_of_spacer after)
    · exact .inl (by omega)
  rw [get_repair, if_neg]
  · rw [get_put col w cell (by omega) wide, first]
  · rintro (⟨spacer, _⟩ | ⟨_, alone⟩)
    · rw [get_put col w cell (by omega) wide, first, lead.2] at spacer
      cases spacer
    · rw [get_put col w cell (by omega) wide, show col + w - 1 + w + 1 = col + w + w by omega, second, after] at alone
      cases alone

theorem write_insert_iff (pairs : WidePairs row.cells) (size : row.cells.length = last + 1) (fits : col + w ≤ last + 1)
    (wide : w = 1 ∨ w = 2) (plain : (row.get col).spacer = false) :
    row.write erase col w true cell = ((row.insertBlanks erase col w).repair erase).write erase col w false cell ↔
      ¬row.TearsPair col w := by
  rw [write_insertBlanks pairs size fits wide]
  unfold write
  dsimp only
  rw [if_pos rfl, uncover_eq pairs plain wide]
  by_cases lead : (row.get (col + w - 1)).Lead
  · rw [if_pos lead]
    by_cases inside : col + 2 * w ≤ last
    · refine iff_of_false (fun same => ?_) fun whole => whole ⟨lead, by omega⟩
      have erased := @get_write_torn row erase _ _ _ cell size wide plain lead inside
      rw [same, get_write_moved pairs size wide plain lead inside] at erased
      rw [erased] at lead
      exact Cell.not_lead_erased lead
    · refine iff_of_true ?_ fun torn => inside (by have far := torn.2; omega)
      rw [insertBlanks_set size fits (by omega) (by omega)]
  · rw [if_neg lead]
    exact iff_of_true rfl fun torn => lead torn.1

end Row

namespace Grid

variable {g : Grid} {r : Nat} {f : Row → Row}

theorem row_modifyRow (inside : r < g.lines.length) : (g.modifyRow r f).row r = f (g.row r) := by
  simp [row, modifyRow, List.getD_eq_getElem?_getD, inside]

end Grid

namespace State

variable {s t : State} {tables : UnicodeTables}

@[simp] theorem screensActive_editActive (f : Grid → Grid) : (s.editActive f).screensActive = f s.screensActive := by
  unfold screensActive editActive
  cases s.altScreen <;> rfl

@[simp] theorem screensActive_advanceTo (advanced : Nat) : (s.advanceTo advanced).screensActive = s.screensActive := by
  unfold advanceTo
  split
  · rfl
  · rfl

@[simp] theorem screensActive_noteOutputPrint : s.noteOutputPrint.screensActive = s.screensActive := rfl

def newCellWidth (s : State) (tables : UnicodeTables) (ch : Char) : Option Nat :=
  if ch = Char.ofNat 0 then none
  else if isKittyPlaceholder ch then some 1
  else if tables.charCellWidthIn ch s.ambiguousWidth = 0 ∨ (s.continued tables ch).isSome then none
  else some (tables.charCellWidthIn ch s.ambiguousWidth)

/-- The width of a scalar that starts a cell of its own, under the character set that is invoked. -/
def newCell (s : State) (tables : UnicodeTables) (scalar : Char) : Option Nat :=
  let (table, charsets) := s.charsets.consumeTranslationTable
  { s with charsets := charsets }.newCellWidth tables (Charsets.translate table scalar)

variable {ch : Char} {w : Nat}

theorem newCellWidth_some (starts : s.newCellWidth tables ch = some w) :
    s.printScalar tables ch = s.layout ch w ∧ (w = 1 ∨ w = 2) := by
  unfold newCellWidth at starts
  unfold printScalar
  split at starts
  · cases starts
  next present =>
    rw [if_neg present]
    split at starts
    next placeholder =>
      obtain rfl := Option.some.inj starts
      rw [if_pos placeholder]
      exact ⟨rfl, .inl rfl⟩
    next other =>
      rw [if_neg other]
      split at starts
      · cases starts
      next own =>
        obtain rfl := Option.some.inj starts
        have fresh : s.continued tables ch = none := Option.not_isSome_iff_eq_none.mp fun continues => own (.inr continues)
        have visible : ¬tables.charCellWidthIn ch s.ambiguousWidth = 0 := fun empty => own (.inl empty)
        have small := tables.charCellWidthIn_le ch s.ambiguousWidth
        dsimp only
        rw [if_neg visible, fresh]
        exact ⟨rfl, by omega⟩

theorem continued_congr (target : t.clusterTarget = s.clusterTarget)
    (same : ∀ r c, s.clusterTarget = some (r, c) → t.screensActive.get r c = s.screensActive.get r c) (ch : Char) :
    (t.continued tables ch).isSome = (s.continued tables ch).isSome := by
  unfold continued
  rw [target]
  cases there : s.clusterTarget with
  | none => rfl
  | some at_ =>
    obtain ⟨r, c⟩ := at_
    simp only [Option.bind_some, same r c there]
    split
    · simp only [extendCluster, same r c there, Option.isSome_map]
    · rfl

section SameCells

variable (cursor : t.cursor = s.cursor) (noWrap : s.cursor.pendingWrap = false)
  (before : ∀ c < s.cursor.position.col, t.screensActive.get s.cursor.position.row c = s.screensActive.get s.cursor.position.row c)

include cursor noWrap before

theorem clusterTarget_congr : t.clusterTarget = s.clusterTarget := by
  unfold clusterTarget
  dsimp only
  rw [cursor, noWrap]
  by_cases positive : 0 < s.cursor.position.col
  · simp only [Bool.false_eq_true, if_false, if_pos positive, Option.bind_some, before _ (Nat.sub_lt positive Nat.one_pos)]
  · simp only [Bool.false_eq_true, if_false, if_neg positive, Option.bind_none]

omit cursor before in
theorem clusterTarget_before {r c : Nat} (target : s.clusterTarget = some (r, c)) :
    r = s.cursor.position.row ∧ c < s.cursor.position.col := by
  unfold clusterTarget at target
  dsimp only at target
  rw [noWrap] at target
  obtain ⟨c', start, target⟩ := Option.bind_eq_some_iff.mp target
  have last : c' + 1 = s.cursor.position.col := by
    rw [if_neg Bool.false_ne_true] at start
    split at start
    · obtain rfl := Option.some.inj start
      omega
    · cases start
  split at target
  · split at target
    · cases target
    · cases target
      exact ⟨rfl, by omega⟩
  · cases target
    exact ⟨rfl, by omega⟩

theorem newCellWidth_congr (ambiguous : t.ambiguousWidth = s.ambiguousWidth) (ch : Char) :
    t.newCellWidth tables ch = s.newCellWidth tables ch := by
  have target := clusterTarget_congr cursor noWrap before
  have same (r c : Nat) (there : s.clusterTarget = some (r, c)) : t.screensActive.get r c = s.screensActive.get r c := by
    obtain ⟨rfl, less⟩ := clusterTarget_before noWrap there
    exact before c less
  unfold newCellWidth
  rw [ambiguous, continued_congr target same]

theorem newCell_congr (ambiguous : t.ambiguousWidth = s.ambiguousWidth) (charsets : t.charsets = s.charsets) (scalar : Char) :
    t.newCell tables scalar = s.newCell tables scalar := by
  unfold newCell
  rw [charsets]
  exact newCellWidth_congr (s := { s with charsets := s.charsets.consumeTranslationTable.2 })
    (t := { t with charsets := s.charsets.consumeTranslationTable.2 }) cursor noWrap before ambiguous _

end SameCells

theorem layout_eq (noWrap : s.cursor.pendingWrap = false) (fits : s.cursor.position.col + w ≤ s.width) :
    s.layout ch w = s.place ch w := by
  have same : s.latchWrap false = s := by
    unfold latchWrap
    rw [← noWrap]
  have unwrapped : (if s.modes.autoWrap = true ∧ s.cursor.pendingWrap = true then s.softWrap else s) = s := by
    rw [if_neg]
    rw [noWrap]
    exact fun both => Bool.false_ne_true both.2
  unfold layout
  rw [unwrapped, same]
  dsimp only
  rw [if_neg (by omega), if_neg (by omega)]

theorem row_place (inside : s.cursor.position.row < s.screensActive.lines.length) :
    (s.place ch w).screensActive.row s.cursor.position.row =
      (s.screensActive.row s.cursor.position.row).write s.bceStyle s.cursor.position.col w s.modes.insert (s.penCell ch w) := by
  unfold place
  dsimp only
  rw [screensActive_advanceTo, screensActive_noteOutputPrint, screensActive_editActive]
  exact Grid.row_modifyRow inside

theorem cursor_advanceTo (width : t.width = s.width) (cursor : t.cursor = s.cursor)
    (autoWrap : t.modes.autoWrap = s.modes.autoWrap) (advanced : Nat) : (t.advanceTo advanced).cursor = (s.advanceTo advanced).cursor := by
  unfold advanceTo
  rw [width]
  split
  · simp only [latchWrap, moveCursor, cursor, autoWrap]
  · simp only [moveCursor, cursor]

theorem cursor_place (ch : Char) (w : Nat) : (s.place ch w).cursor = (s.advanceTo (s.cursor.position.col + w)).cursor := by
  unfold place
  dsimp only
  refine cursor_advanceTo ?_ ?_ ?_ _
  · rfl
  · rfl
  · rfl

theorem row_advanceTo (advanced : Nat) : (s.advanceTo advanced).cursor.position.row = s.cursor.position.row := by
  unfold advanceTo
  split
  · rfl
  · rfl

theorem cursor_enforce (frame : (t.width, t.height, t.scrollRegionTop, t.scrollRegionBottom, t.modes.origin) =
      (s.width, s.height, s.scrollRegionTop, s.scrollRegionBottom, s.modes.origin)) (cursor : t.cursor = s.cursor)
    (settled : s.cursor.position.row ≤ s.height - 1 ∧ (s.modes.origin = true →
      s.scrollRegionTop ≤ s.cursor.position.row ∧ s.cursor.position.row ≤ s.scrollRegionBottom))
    (row : t.screensActive.row s.cursor.position.row = s.screensActive.row s.cursor.position.row) :
    t.enforceCursorInvariants.cursor = s.enforceCursorInvariants.cursor := by
  obtain ⟨width, height, top, bottom, origin⟩ : t.width = s.width ∧ t.height = s.height ∧ t.scrollRegionTop = s.scrollRegionTop ∧
      t.scrollRegionBottom = s.scrollRegionBottom ∧ t.modes.origin = s.modes.origin := by simpa using frame
  have inside : (if s.modes.origin = true then max s.scrollRegionTop (min (min s.cursor.position.row (s.height - 1))
      s.scrollRegionBottom) else min s.cursor.position.row (s.height - 1)) = s.cursor.position.row := by
    split
    next on =>
      have region := settled.2 on
      omega
    next => omega
  unfold enforceCursorInvariants
  dsimp only [moveCursor]
  rw [width, height, top, bottom, origin, cursor, inside]
  unfold Grid.get
  rw [row]

theorem row_insertChars (n : Nat) (inside : s.cursor.position.row < s.screensActive.lines.length) :
    (s.insertChars n).screensActive.row s.cursor.position.row =
      ((s.screensActive.row s.cursor.position.row).insertBlanks s.bceStyle s.cursor.position.col (effectiveCount n)).repair
        s.bceStyle := by
  unfold insertChars
  dsimp only
  rw [screensActive_editActive, screensActive_editActive]
  refine (Grid.row_modifyRow ?_).trans (congrArg (Row.repair · s.bceStyle) (Grid.row_modifyRow inside))
  rw [Grid.insertBlanksInRow, Grid.modifyRow, List.length_modify]
  exact inside

namespace Sound

variable (sound : s.Sound)

include sound

theorem inside : s.cursor.position.row < s.screensActive.lines.length := by
  have region := sound.shape.region
  have count := sound.shape.active.count
  have row := sound.settled.row
  dsimp only at region count
  omega

theorem pairs : WidePairs (s.screensActive.row s.cursor.position.row).cells := by
  have inside := sound.inside
  have count := sound.shape.active.count
  exact (sound.shape.row (count ▸ inside)).pairs

theorem size : (s.screensActive.row s.cursor.position.row).cells.length = s.width - 1 + 1 := by
  have inside := sound.inside
  have count := sound.shape.active.count
  have positive := sound.positive
  rw [(sound.shape.row (count ▸ inside)).length]
  omega

variable {w : Nat}

theorem row_insertChars (positive : 0 < w) : (s.insertChars w).screensActive.row s.cursor.position.row =
    (s.screensActive.row s.cursor.position.row).insertBlanks s.bceStyle s.cursor.position.col w := by
  have n : effectiveCount w = w := by
    unfold effectiveCount
    omega
  rw [State.row_insertChars w sound.inside, n, Row.repair_eq (Row.widePairs_insertBlanks sound.pairs _ _)]

theorem settled_insertChars (positive : 0 < w) : (s.insertChars w).Settled := by
  refine ⟨sound.settled.row, sound.settled.col, sound.settled.origin, ?_⟩
  change (((s.insertChars w).screensActive.row s.cursor.position.row).get s.cursor.position.col).spacer = false
  have col := sound.settled.col
  rw [sound.row_insertChars positive, Row.get_insertBlanks sound.size (by omega), if_neg (by omega), if_pos (by omega)]
  rfl

theorem newCell_insertChars (positive : 0 < w) (noWrap : s.cursor.pendingWrap = false) (tables : UnicodeTables)
    (scalar : Char) (modes : Modes) : ((s.insertChars w).setModes modes).newCell tables scalar = s.newCell tables scalar := by
  have col := sound.settled.col
  have before : ∀ c < s.cursor.position.col,
      (s.insertChars w).screensActive.get s.cursor.position.row c = s.screensActive.get s.cursor.position.row c := by
    intro c less
    unfold Grid.get
    rw [sound.row_insertChars positive]
    exact Row.get_insertBlanks_before sound.size positive (by omega) sound.settled.plain less
  exact newCell_congr (s := s) (t := (s.insertChars w).setModes modes) rfl noWrap before rfl rfl scalar

end Sound

variable {scalar : Char}

theorem apply_print (noWrap : s.cursor.pendingWrap = false) (starts : s.newCell tables scalar = some w)
    (fits : s.cursor.position.col + w ≤ s.width) (inside : s.cursor.position.row < s.screensActive.lines.length) :
    ∃ placed : State, s.apply tables (.print scalar) = placed.enforceCursorInvariants ∧
      (placed.width, placed.height, placed.scrollRegionTop, placed.scrollRegionBottom, placed.modes.origin) =
        (s.width, s.height, s.scrollRegionTop, s.scrollRegionBottom, s.modes.origin) ∧
      placed.cursor = (s.advanceTo (s.cursor.position.col + w)).cursor ∧
      placed.screensActive.row s.cursor.position.row = (s.screensActive.row s.cursor.position.row).write s.bceStyle
        s.cursor.position.col w s.modes.insert
        (s.penCell (Charsets.translate s.charsets.consumeTranslationTable.1 scalar) w) := by
  have frame (t : State) (advanced : Nat) : ((t.advanceTo advanced).width, (t.advanceTo advanced).height,
      (t.advanceTo advanced).scrollRegionTop, (t.advanceTo advanced).scrollRegionBottom, (t.advanceTo advanced).modes.origin) =
      (t.width, t.height, t.scrollRegionTop, t.scrollRegionBottom, t.modes.origin) := by
    unfold advanceTo
    split
    · rfl
    · rfl
  obtain ⟨printed, wide⟩ := newCellWidth_some starts
  have placed := @layout_eq { s with charsets := s.charsets.consumeTranslationTable.2 }
    (Charsets.translate s.charsets.consumeTranslationTable.1 scalar) w noWrap fits
  refine ⟨_, congrArg enforceCursorInvariants (printed.trans placed), frame _ _, ?_, ?_⟩
  · exact (cursor_place _ w).trans
      (cursor_advanceTo (s := s) (t := { s with charsets := s.charsets.consumeTranslationTable.2 }) rfl rfl rfl _)
  · exact row_place (s := { s with charsets := s.charsets.consumeTranslationTable.2 }) inside

theorem newCell_wide (starts : s.newCell tables scalar = some w) : w = 1 ∨ w = 2 :=
  (newCellWidth_some starts).2

/-- The row decides about the cursor. -/
theorem Sound.insert_step (sound : s.Sound) (insert : s.modes.insert = true)
    (noWrap : s.cursor.pendingWrap = false) (starts : s.newCell tables scalar = some w)
    (fits : s.cursor.position.col + w ≤ s.width) :
    (s.apply tables (.print scalar)).screensActive.row s.cursor.position.row =
        (s.applyAll tables [.insertChars w, .setMode .insert false, .print scalar]).screensActive.row s.cursor.position.row ∧
      (s.apply tables (.print scalar)).cursor =
        (s.applyAll tables [.insertChars w, .setMode .insert false, .print scalar]).cursor ↔
      ¬(s.screensActive.row s.cursor.position.row).TearsPair s.cursor.position.col w := by
  have wide := newCell_wide starts
  have positive : 0 < w := by omega
  have settled := sound.settled_insertChars positive
  let blanked := (s.insertChars w).setModes { s.modes with insert := false }
  have first : s.apply tables (.insertChars w) = s.insertChars w := settled.enforce_eq
  have second : (s.insertChars w).apply tables (.setMode .insert false) = blanked :=
    Settled.enforce_eq (s := blanked) ⟨settled.row, settled.col, settled.origin, settled.plain⟩
  have count : s.cursor.position.row < blanked.screensActive.lines.length := by
    have inserted := sound.shape.insertChars (Shaped.closed rfl sound.positive) w
    have rows := inserted.active.count
    have region := inserted.region
    have row := sound.settled.row
    dsimp only at rows region
    change s.cursor.position.row < (s.insertChars w).screensActive.lines.length
    omega
  obtain ⟨placed, printed, frame, cursor, row⟩ := apply_print noWrap starts fits sound.inside
  obtain ⟨placed', replaced, frame', cursor', row'⟩ := apply_print (s := blanked) noWrap
    ((sound.newCell_insertChars positive noWrap tables scalar _).trans starts) fits count
  have run : s.applyAll tables [.insertChars w, .setMode .insert false, .print scalar] = placed'.enforceCursorInvariants := by
    change ((s.apply tables (.insertChars w)).apply tables (.setMode .insert false)).apply tables (.print scalar) = _
    rw [first, second, replaced]
  have inserted : blanked.screensActive.row s.cursor.position.row =
      ((s.screensActive.row s.cursor.position.row).insertBlanks s.bceStyle s.cursor.position.col w).repair s.bceStyle := by
    rw [Row.repair_eq (Row.widePairs_insertBlanks sound.pairs _ _)]
    exact sound.row_insertChars positive
  have size := sound.size
  have agree := @Row.write_insert_iff _ s.bceStyle _ w _
    (s.penCell (Charsets.translate s.charsets.consumeTranslationTable.1 scalar) w) sound.pairs size (by omega) wide
    sound.settled.plain
  rw [insert] at row
  change placed'.screensActive.row s.cursor.position.row = Row.write (blanked.screensActive.row s.cursor.position.row) _ _ _ _ _ at row'
  rw [inserted] at row'
  rw [printed, run]
  change placed.screensActive.row s.cursor.position.row = placed'.screensActive.row s.cursor.position.row ∧ _ ↔ _
  constructor
  · rintro ⟨same, _⟩
    rw [row, row'] at same
    exact agree.mp same
  · intro whole
    have same : placed.screensActive.row s.cursor.position.row = placed'.screensActive.row s.cursor.position.row := by
      rw [row, row']
      exact agree.mpr whole
    have moved : (blanked.advanceTo (s.cursor.position.col + w)).cursor = (s.advanceTo (s.cursor.position.col + w)).cursor :=
      cursor_advanceTo (s := s) (t := blanked) rfl rfl rfl _
    have here : placed'.cursor.position.row = s.cursor.position.row := by
      rw [cursor']
      exact row_advanceTo _
    change _ = (s.width, s.height, s.scrollRegionTop, s.scrollRegionBottom, s.modes.origin) at frame'
    obtain ⟨_, height, top, bottom, origin⟩ : placed'.width = s.width ∧ placed'.height = s.height ∧
        placed'.scrollRegionTop = s.scrollRegionTop ∧ placed'.scrollRegionBottom = s.scrollRegionBottom ∧
        placed'.modes.origin = s.modes.origin := by simpa using frame'
    refine ⟨same, cursor_enforce (frame.trans frame'.symm) ?_ ?_ ?_⟩
    · rw [cursor, cursor']
      exact moved.symm
    · rw [here, height, top, bottom, origin]
      exact ⟨sound.settled.row, sound.settled.origin⟩
    · rw [here]
      exact same

/-- In every state that a run reaches, a scalar that starts a cell in insert mode leaves the row and the cursor that an
insertion of blanks and a replacement leave, exactly when printing blanks no half of a pair that the shift moves. -/
theorem Sound.insert_agrees {s : State} (sound : s.Sound) (tables : UnicodeTables) (actions : List TerminalAction)
    (scalar : Char) (w : Nat) :
    let run := s.applyAll tables actions
    let row := run.cursor.position.row
    let col := run.cursor.position.col
    run.modes.insert = true → run.cursor.pendingWrap = false → run.newCell tables scalar = some w → col + w ≤ run.width →
      let printed := run.apply tables (.print scalar)
      let replaced := run.applyAll tables [.insertChars w, .setMode .insert false, .print scalar]
      (printed.screensActive.row row = replaced.screensActive.row row ∧ printed.cursor = replaced.cursor ↔
        ¬(run.screensActive.row row).TearsPair col w) :=
  fun insert noWrap starts fits => (sound.applyAll tables actions).insert_step insert noWrap starts fits

def wideTables : UnicodeTables := { narrowTables with eawClass := fun cp => if 0x4E00 ≤ cp && cp ≤ 0x9FFF then .w else .n }

theorem insert_tears_pair :
    let run := (withScrollbackLines 10).applyAll wideTables
      [.print (Char.ofNat 0x4E2D), .cursorPosition 1 1, .setMode .insert true]
    let printed := run.apply wideTables (.print 'a')
    let replaced := run.applyAll wideTables [.insertChars 1, .setMode .insert false, .print 'a']
    run.modes.insert = true ∧ run.cursor.pendingWrap = false ∧ run.newCell wideTables 'a' = some 1 ∧
      run.cursor.position.col + 1 ≤ run.width ∧ (printed.screensActive.get 0 1).glyph = ' ' ∧
      (replaced.screensActive.get 0 1).glyph = Char.ofNat 0x4E2D ∧
      ¬(printed.screensActive.row run.cursor.position.row = replaced.screensActive.row run.cursor.position.row ∧
        printed.cursor = replaced.cursor) := by
  decide +kernel

/-- A pair that stands after the cursor moves. -/
theorem insert_agrees_after_cursor :
    let run := (withScrollbackLines 10).applyAll wideTables
      [.print 'b', .print (Char.ofNat 0x4E2D), .cursorPosition 1 1, .setMode .insert true]
    let printed := run.apply wideTables (.print 'a')
    let replaced := run.applyAll wideTables [.insertChars 1, .setMode .insert false, .print 'a']
    printed.screensActive.row run.cursor.position.row = replaced.screensActive.row run.cursor.position.row ∧
      printed.cursor = replaced.cursor :=
  (Sound.insert_agrees (sound_withScrollbackLines 10) wideTables
    [.print 'b', .print (Char.ofNat 0x4E2D), .cursorPosition 1 1, .setMode .insert true] 'a' 1
    (by decide) (by decide) (by decide) (by decide)).mpr (by decide)

end State

end Bitty.Screen
