import Bitty.Term.Screen.Dispatch

/-! What every retained row of a terminal satisfies, when the edits of a row preserve it. -/

namespace Bitty.Screen

open Bitty.Vt

structure Frame where
  cols : Nat
  rows : Nat
  width : Nat
  links : Links

/-- A property of rows that survives every edit that the terminal makes. -/
structure EditClosed (F : Frame) (Q : List Cell → Prop) : Prop where
  blank : ∀ style, Q (Row.blank F.cols style).cells
  fill : ∀ {row : Row} {style}, Q row.cells → Q (row.fill style 0 (min (F.width - 1) (F.cols - 1) + 1)).cells
  eraseRange : ∀ {row : Row} {style start stop}, Q row.cells → Q (row.eraseRange style start stop).cells
  insertBlanks : ∀ {row : Row} {style col n}, Q row.cells → Q (row.insertBlanks style col n).cells
  deleteChars : ∀ {row : Row} {style col n}, Q row.cells → Q (row.deleteChars style col n).cells
  repair : ∀ {row : Row} {style}, Q row.cells → Q (row.repair style).cells
  write : ∀ {row : Row} {erase col w insert} {cell : Cell}, Q row.cells → cell.hyperlink = F.links.current →
    cell.spacer = false → cell.width = w → 0 < w → Q (row.write erase col w insert cell).cells
  mark : ∀ {row : Row} {col scalar cell}, Q row.cells → (row.get col).pushZerowidth scalar = some cell → Q (row.set col cell).cells
  widen : ∀ {row : Row} {erase col w insert scalar cell}, Q row.cells → (row.get col).pushZerowidth scalar = some cell →
    cell.width < w → w ≤ 2 → col + 1 < F.width → Q (row.widen erase col insert { cell with width := w }).cells

structure Grid.Holds (cols count : Nat) (Q : List Cell → Prop) (g : Grid) : Prop where
  cols : g.cols = cols
  count : g.lines.length = count
  rows : ∀ row ∈ g.lines, Q row.cells

structure ScreensHold (F : Frame) (Q : List Cell → Prop) (screens : ScreenPair) (scrollback : Scrollback) (width height : Nat)
    (links : Links) (top bottom : Nat) : Prop where
  width : width = F.width
  height : height = F.rows
  links : links = F.links
  region : top ≤ bottom ∧ bottom < F.rows
  main : screens.main.Holds F.cols F.rows Q
  alt : screens.alt.Holds F.cols F.rows Q
  scrollback : ∀ line ∈ scrollback.lines, Q line.cells

def State.Holds (F : Frame) (Q : List Cell → Prop) (s : State) : Prop :=
  ScreensHold F Q s.screens s.scrollback s.width s.height s.links s.scrollRegionTop s.scrollRegionBottom

variable {F : Frame} {Q : List Cell → Prop}

namespace Grid.Holds

variable {g : Grid} (held : g.Holds F.cols F.rows Q)

include held

theorem modifyRow {f : Row → Row} {r : Nat} (kept : Q (g.row r).cells → Q (f (g.row r)).cells) :
    (g.modifyRow r f).Holds F.cols F.rows Q := by
  refine ⟨held.cols, (List.length_modify ..).trans held.count, fun row member => ?_⟩
  obtain ⟨i, found⟩ := List.mem_iff_getElem?.mp member
  have entry : (g.lines.modify r f)[i]? = some row := found
  rw [List.getElem?_modify] at entry
  obtain ⟨old, there, rfl⟩ := Option.map_eq_some_iff.mp entry
  have before := held.rows old (List.mem_of_getElem? there)
  split
  next here =>
    have same : g.row r = old := by rw [Grid.row, List.getD_eq_getElem?_getD, here, there, Option.getD_some]
    rw [same] at kept
    exact kept before
  next => exact before

theorem setWrapped (r : Nat) (value : Bool) : (g.setWrapped r value).Holds F.cols F.rows Q :=
  held.modifyRow (f := fun row => { row with wrapped := value }) id

theorem fillAll {style : Style} {Q' : List Cell → Prop} (blank : Q' (Row.blank F.cols style).cells) :
    (g.fillAll style).Holds F.cols F.rows Q' := by
  refine ⟨held.cols, (List.length_map _).trans held.count, fun row member => ?_⟩
  obtain ⟨_, _, rfl⟩ := List.mem_map.mp member
  rw [held.cols]
  exact blank

theorem fillRect {style : Style} (closed : EditClosed F Q) (top bottom : Nat) :
    (g.fillRect top 0 bottom (F.width - 1) style).Holds F.cols F.rows Q := by
  refine ⟨held.cols, List.length_mapIdx.trans held.count, fun row member => ?_⟩
  obtain ⟨i, bound, rfl⟩ := List.mem_mapIdx.mp member
  have before := held.rows _ (List.getElem_mem bound)
  split
  · have filled := @EditClosed.fill _ _ closed _ style before
    simpa only [Nat.zero_min, Nat.sub_zero, held.cols] using filled
  · split
    · exact before
    · exact before

theorem removeLinesUp {style : Style} (closed : EditClosed F Q) {top bottom : Nat} (region : top ≤ bottom ∧ bottom < F.rows)
    (count : Nat) : (g.removeLinesUp top bottom count style).Holds F.cols F.rows Q := by
  have rows := held.count
  refine ⟨held.cols, ?_, fun row member => ?_⟩
  · simp only [Grid.removeLinesUp, List.length_append, List.length_take, List.length_drop, List.length_replicate]
    omega
  simp only [Grid.removeLinesUp, List.mem_append, List.mem_replicate] at member
  rcases member with ((first | moved) | ⟨_, rfl⟩) | later
  · exact held.rows row (List.mem_of_mem_take first)
  · exact held.rows row (List.mem_of_mem_drop (List.mem_of_mem_take moved))
  · rw [held.cols]
    exact closed.blank style
  · exact held.rows row (List.mem_of_mem_drop later)

theorem insertBlankLinesDown {style : Style} (closed : EditClosed F Q) {top bottom : Nat}
    (region : top ≤ bottom ∧ bottom < F.rows) (count : Nat) : (g.insertBlankLinesDown top bottom count style).Holds F.cols F.rows Q := by
  have rows := held.count
  have inserted : ({ g with lines := g.lines.take top ++ List.replicate (min count (bottom + 1 - top)) (Row.blank g.cols style) ++
      (g.lines.drop top).take (bottom + 1 - top - min count (bottom + 1 - top)) ++ g.lines.drop (bottom + 1) } : Grid).Holds
        F.cols F.rows Q := by
    refine ⟨held.cols, ?_, fun row member => ?_⟩
    · simp only [List.length_append, List.length_take, List.length_drop, List.length_replicate]
      omega
    simp only [List.mem_append, List.mem_replicate] at member
    rcases member with ((first | ⟨_, rfl⟩) | moved) | later
    · exact held.rows row (List.mem_of_mem_take first)
    · rw [held.cols]
      exact closed.blank style
    · exact held.rows row (List.mem_of_mem_drop (List.mem_of_mem_take moved))
    · exact held.rows row (List.mem_of_mem_drop later)
  unfold Grid.insertBlankLinesDown
  dsimp only
  split
  · exact inserted.setWrapped _ _
  · exact inserted

theorem removed (top bottom count : Nat) : ∀ row ∈ g.removed top bottom count, Q row.cells := fun row member =>
  held.rows row (List.mem_of_mem_drop (List.mem_of_mem_take member))

end Grid.Holds

theorem pushRows_hold {sb : Scrollback} (held : ∀ line ∈ sb.lines, Q line.cells) {rows : List Row}
    (entering : ∀ row ∈ rows, Q row.cells) : ∀ line ∈ (sb.pushRows rows).lines, Q line.cells := by
  induction rows generalizing sb with
  | nil => exact held
  | cons row rest ih =>
    refine ih (fun line member => ?_) fun row member => entering row (List.mem_cons_of_mem _ member)
    rcases List.mem_append.mp (List.mem_of_mem_drop member) with old | new
    · exact held line old
    · obtain rfl := List.mem_singleton.mp new
      exact entering row List.mem_cons_self

namespace State

variable {s : State}

theorem Holds.active (held : s.Holds F Q) : s.screensActive.Holds F.cols F.rows Q := by
  unfold screensActive
  split
  · exact held.main
  · exact held.alt
  · exact held.alt

theorem Holds.mono {Q' : List Cell → Prop} (held : s.Holds F Q) (weaker : ∀ {cells}, Q cells → Q' cells) : s.Holds F Q' :=
  ⟨held.width, held.height, held.links, held.region,
    ⟨held.main.cols, held.main.count, fun row member => weaker (held.main.rows row member)⟩,
    ⟨held.alt.cols, held.alt.count, fun row member => weaker (held.alt.rows row member)⟩,
    fun line member => weaker (held.scrollback line member)⟩

theorem Holds.wholeRegion (held : s.Holds F Q) : 0 ≤ s.height - 1 ∧ s.height - 1 < F.rows := by
  have region := held.region
  have height := held.height
  omega

theorem Holds.edit (held : s.Holds F Q) {f : Grid → Grid} (kept : (f s.screensActive).Holds F.cols F.rows Q) :
    (s.editActive f).Holds F Q := by
  unfold Holds editActive
  unfold screensActive at kept
  dsimp only
  split at kept
  · exact ⟨held.width, held.height, held.links, held.region, kept, held.alt, held.scrollback⟩
  · exact ⟨held.width, held.height, held.links, held.region, held.main, kept, held.scrollback⟩
  · exact ⟨held.width, held.height, held.links, held.region, held.main, kept, held.scrollback⟩

section Operations

variable (held : s.Holds F Q) (closed : EditClosed F Q)

include held closed

theorem Holds.scrollUpRegion (n : Nat) : (s.scrollUpRegion n).Holds F Q := by
  have scrolled := held.edit (f := (·.removeLinesUp s.scrollRegionTop s.scrollRegionBottom n s.bceStyle))
    (held.active.removeLinesUp closed held.region _)
  refine ⟨scrolled.width, scrolled.height, scrolled.links, scrolled.region, scrolled.main, scrolled.alt, ?_⟩
  unfold State.scrollUpRegion
  dsimp only
  split
  · exact pushRows_hold held.scrollback (held.active.removed _ _ _)
  · exact held.scrollback

theorem Holds.scrollDownRegion (n : Nat) : (s.scrollDownRegion n).Holds F Q :=
  held.edit (held.active.insertBlankLinesDown closed held.region _)

theorem Holds.indexLinefeed : s.indexLinefeed.Holds F Q := by
  unfold State.indexLinefeed
  dsimp only
  split
  · exact held.scrollUpRegion closed 1
  · split
    · exact held
    · exact held

theorem Holds.reverseIndex : s.reverseIndex.Holds F Q := by
  unfold State.reverseIndex
  dsimp only
  split
  · exact held.scrollDownRegion closed 1
  · exact held

theorem Holds.softWrap : s.softWrap.Holds F Q := by
  have marked := held.edit (f := (·.setWrapped s.cursor.position.row true)) (held.active.setWrapped _ _)
  exact marked.indexLinefeed closed

omit closed in
theorem Holds.advanceTo (advanced : Nat) : (s.advanceTo advanced).Holds F Q := by
  unfold State.advanceTo
  split
  · exact held
  · exact held

theorem Holds.place (ch : Char) {w : Nat} (positive : 0 < w) : (s.place ch w).Holds F Q := by
  have written := held.edit
    (f := (·.modifyRow s.cursor.position.row (·.write s.bceStyle s.cursor.position.col w s.modes.insert (s.penCell ch w))))
    (held.active.modifyRow fun before => closed.write before (congrArg Links.current held.links) rfl rfl positive)
  exact Holds.advanceTo (s := State.noteOutputPrint _) written _

theorem Holds.layout (ch : Char) {w : Nat} (positive : 0 < w) : (s.layout ch w).Holds F Q := by
  unfold State.layout
  generalize started : (if s.modes.autoWrap = true ∧ s.cursor.pendingWrap = true then s.softWrap else s).latchWrap false = t
  have held : t.Holds F Q := by
    subst started
    split
    · exact held.softWrap closed
    · exact held
  dsimp only
  split
  · exact held
  · split
    · split
      · exact (held.softWrap closed).place closed ch positive
      · exact held
    · exact held.place closed ch positive

theorem Holds.commitClusterCell {row col w : Nat} {scalar : Char} {cell : Cell} (inside : w ≤ 2)
    (pushed : (s.screensActive.get row col).pushZerowidth scalar = some cell) (allowGrow : Bool) :
    (s.commitClusterCell row col cell w allowGrow).Holds F Q := by
  unfold State.commitClusterCell
  split
  next grows =>
    have widened := held.edit
      (f := (·.modifyRow row (·.widen s.bceStyle col s.modes.insert { cell with width := w })))
      (held.active.modifyRow fun before => closed.widen before pushed grows.2.1 inside (held.width ▸ grows.2.2))
    exact widened.advanceTo _
  next => exact held.edit (held.active.modifyRow fun before => closed.mark before pushed)

variable (tables : UnicodeTables)

omit held closed in
theorem clusterCellWidthParts_le (glyph : Char) (tail : List Char) (ambiguous : AmbiguousWidth) :
    tables.clusterCellWidthParts glyph tail ambiguous ≤ 2 := by
  unfold UnicodeTables.clusterCellWidthParts UnicodeTables.clusterWidth
  dsimp only
  split
  · omega
  · split <;> omega

theorem Holds.extendCluster {row col : Nat} {scalar : Char} {s' : State}
    (extended : s.extendCluster tables row col scalar = some s') : s'.Holds F Q := by
  obtain ⟨cell, pushed, rfl⟩ := Option.map_eq_some_iff.mp extended
  exact held.commitClusterCell closed (clusterCellWidthParts_le tables _ _ _) pushed true

theorem Holds.attachZerowidth (mark : Char) : (s.attachZerowidth tables mark).Holds F Q := by
  unfold State.attachZerowidth
  split
  · exact held
  · split
    · exact held
    next pushed => exact held.commitClusterCell closed (clusterCellWidthParts_le tables _ _ _) pushed _

theorem Holds.printScalar (ch : Char) : (s.printScalar tables ch).Holds F Q := by
  unfold State.printScalar
  dsimp only
  split
  · exact held
  · split
    · exact held.layout closed ch Nat.one_pos
    · split
      · exact held.attachZerowidth closed tables ch
      next visible =>
        cases continues : s.continued tables ch with
        | none => exact held.layout closed ch (Nat.pos_of_ne_zero visible)
        | some s' =>
          obtain ⟨⟨row, col⟩, _, extends_⟩ := Option.bind_eq_some_iff.mp continues
          dsimp only at extends_
          split at extends_
          · exact held.extendCluster closed tables extends_
          · cases extends_

theorem Holds.print (scalar : Char) : (s.print tables scalar).Holds F Q :=
  Holds.printScalar (s := { s with charsets := s.charsets.consumeTranslationTable.2 }) held closed tables
    (Charsets.translate s.charsets.consumeTranslationTable.1 scalar)

theorem Holds.printControl (byte : UInt8) : (s.printControl byte).Holds F Q := by
  have fed : (if s.modes.lineFeedNewLine = true then s.moveCursor s.cursor.position.row 0 else s).indexLinefeed.Holds F Q := by
    split
    · exact Holds.indexLinefeed (s := s.moveCursor _ _) held closed
    · exact held.indexLinefeed closed
  unfold State.printControl
  dsimp only
  split
  · split <;> exact held
  · exact held
  · exact fed
  · exact fed
  · exact fed
  · exact held
  · exact held
  · exact held
  · exact held.indexLinefeed closed
  · exact Holds.indexLinefeed (s := s.moveCursor _ _) held closed
  · exact held.reverseIndex closed
  · exact held

theorem Holds.eraseRange (r start stop : Nat) (style : Style) :
    (s.editActive (·.eraseRangeInRow r start stop style)).Holds F Q :=
  held.edit (held.active.modifyRow fun before => closed.eraseRange before)

theorem Holds.fillRect (top bottom : Nat) (style : Style) :
    (s.editActive (·.fillRect top 0 bottom (s.width - 1) style)).Holds F Q := by
  refine held.edit ?_
  rw [held.width]
  exact held.active.fillRect closed top bottom

theorem Holds.repairRow (r : Nat) (style : Style) : (s.editActive (·.repairRow r style)).Holds F Q :=
  held.edit (held.active.modifyRow fun before => closed.repair before)

theorem Holds.eraseInDisplay (mode : EraseDisplayMode) : (s.eraseInDisplay mode).Holds F Q := by
  unfold State.eraseInDisplay
  dsimp only
  split
  next =>
    have erased := held.eraseRange closed s.cursor.position.row s.cursor.position.col (s.width - 1) s.bceStyle
    split
    · exact erased.fillRect closed (s.cursor.position.row + 1) (s.height - 1) s.bceStyle
    · exact erased
  next =>
    split
    · exact (held.fillRect closed 0 (s.cursor.position.row - 1) s.bceStyle).eraseRange closed _ _ _ _
    · exact held.eraseRange closed _ _ _ _
  next => exact held.fillRect closed 0 (s.height - 1) s.bceStyle
  next => exact ⟨held.width, held.height, held.links, held.region, held.main, held.alt, nofun⟩
  next =>
    split
    · exact held.fillRect closed 0 (s.height - 1) s.bceStyle
    · have entering : ∀ row ∈ s.screensActive.lines.take s.height, Q row.cells := fun row member =>
        held.active.rows row (List.mem_of_mem_take member)
      exact Holds.fillRect (s := { s with scrollback := s.scrollback.pushRows (s.screensActive.lines.take s.height) })
        ⟨held.width, held.height, held.links, held.region, held.main, held.alt, pushRows_hold held.scrollback entering⟩ closed 0 (s.height - 1) s.bceStyle

theorem Holds.eraseInLine (mode : EraseLineMode) : (s.eraseInLine mode).Holds F Q := by
  unfold State.eraseInLine
  dsimp only
  split
  · exact held.eraseRange closed _ _ _ _
  · exact held.eraseRange closed _ _ _ _
  · exact held.eraseRange closed _ _ _ _

theorem Holds.eraseChars (n : Nat) : (s.eraseChars n).Holds F Q :=
  (held.eraseRange closed _ _ _ _).repairRow closed _ _

theorem Holds.insertChars (n : Nat) : (s.insertChars n).Holds F Q := by
  have inserted := held.edit
    (f := (·.insertBlanksInRow s.cursor.position.row s.cursor.position.col (effectiveCount n) s.bceStyle))
    (held.active.modifyRow fun before => closed.insertBlanks before)
  exact inserted.repairRow closed _ _

theorem Holds.deleteChars (n : Nat) : (s.deleteChars n).Holds F Q := by
  have deleted := held.edit
    (f := (·.deleteCharsInRow s.cursor.position.row s.cursor.position.col (effectiveCount n) s.bceStyle))
    (held.active.modifyRow fun before => closed.deleteChars before)
  exact deleted.repairRow closed _ _

theorem Holds.insertLines (n : Nat) : (s.insertLines n).Holds F Q := by
  have region := held.region
  unfold State.insertLines
  dsimp only
  split
  · exact held
  · exact held.edit (held.active.insertBlankLinesDown closed (by omega) _)

theorem Holds.deleteLines (n : Nat) : (s.deleteLines n).Holds F Q := by
  have region := held.region
  unfold State.deleteLines
  dsimp only
  split
  · exact held
  · exact held.edit (held.active.removeLinesUp closed (by omega) _)

theorem Holds.enterAltScreen (variant : AltScreen) : (s.enterAltScreen variant).Holds F Q := by
  unfold State.enterAltScreen
  dsimp only
  split
  · exact ⟨held.width, held.height, held.links, held.region, held.main, held.alt.fillAll (closed.blank _), held.scrollback⟩
  · exact held

omit closed in
theorem Holds.leaveAltScreen (variant : AltScreen) : (s.leaveAltScreen variant).Holds F Q := by
  unfold State.leaveAltScreen
  dsimp only
  split
  · exact held
  · exact held

theorem Holds.switchAltScreen (variant : AltScreen) (enabled : Bool) : (s.switchAltScreen variant enabled).Holds F Q := by
  unfold State.switchAltScreen
  split
  · split
    · exact held.enterAltScreen closed variant
    · exact held
  · split
    · exact held
    · exact held.leaveAltScreen variant

theorem Holds.setMode (mode : Mode) (enabled : Bool) : (s.setMode mode enabled).Holds F Q := by
  unfold State.setMode
  dsimp only
  split
  case h_5 =>
    have cleared := held.fillRect closed 0 (s.height - 1) s.bceStyle
    exact ⟨cleared.width, cleared.height, cleared.links, held.wholeRegion, cleared.main, cleared.alt, cleared.scrollback⟩
  case h_10 => exact held.switchAltScreen closed _ enabled
  case h_11 => exact held.switchAltScreen closed _ enabled
  case h_18 =>
    split
    · exact held
    · split <;> exact held
  all_goals exact held

omit closed in
theorem Holds.fullReset {Q' : List Cell → Prop} (blank : ∀ style, Q' (Row.blank F.cols style).cells) :
    s.fullReset.Holds { F with links := ⟨[], 0, none⟩ } Q' :=
  ⟨held.width, held.height, rfl, held.wholeRegion, held.main.fillAll (blank _), held.alt.fillAll (blank _), nofun⟩

omit closed in
theorem Holds.oscHyperlink (link : Option Hyperlink) :
    (s.oscHyperlink link).Holds { F with links := (s.oscHyperlink link).links } Q :=
  ⟨held.width, held.height, rfl, held.region, held.main, held.alt, held.scrollback⟩

omit closed in
theorem Holds.setScrollRegion (top bottom : Nat) : (s.setScrollRegion top bottom).Holds F Q := by
  have region := held.region
  have height := held.height
  unfold State.setScrollRegion
  dsimp only
  generalize (if bottom = SENTINEL then s.height - 1 else bottom - 1) = lowest
  split
  · exact held
  next ordered =>
    have inside : top - 1 ≤ min lowest (s.height - 1) ∧ min lowest (s.height - 1) < F.rows := by omega
    exact ⟨held.width, held.height, held.links, inside, held.main, held.alt, held.scrollback⟩

theorem Holds.handle {action : TerminalAction} (plain : action ≠ .fullReset) (unlinked : ∀ link, action ≠ .oscHyperlink link) :
    (s.handle tables action).Holds F Q := by
  cases action with
  | print cell => exact held.print closed tables cell
  | printControl control => exact held.printControl closed control
  | cursorMove dir n => cases dir <;> exact held
  | eraseInDisplay mode => exact held.eraseInDisplay closed mode
  | eraseInLine mode => exact held.eraseInLine closed mode
  | eraseChars n => exact held.eraseChars closed n
  | insertLines n => exact held.insertLines closed _
  | deleteLines n => exact held.deleteLines closed _
  | insertChars n => exact held.insertChars closed n
  | deleteChars n => exact held.deleteChars closed n
  | scrollUp n => exact held.scrollUpRegion closed _
  | scrollDown n => exact held.scrollDownRegion closed _
  | cursorSave =>
    unfold State.handle State.cursorSave
    dsimp only
    split <;> exact held
  | setScrollRegion top bottom => exact held.setScrollRegion top bottom
  | setMode mode enabled => exact held.setMode closed mode enabled
  | tabClear targets =>
    cases targets
    exact held
  | enhancedKeyboard op => cases op <;> exact held
  | modifyOtherKeys op => cases op <;> exact held
  | oscHyperlink link => exact absurd rfl (unlinked link)
  | kittyGraphics _ _ _ action cols rows cursorMove _ keys =>
    unfold State.handle State.kittyGraphics
    dsimp only
    split <;> exact held
  | softReset => exact ⟨held.width, held.height, held.links, held.wholeRegion, held.main, held.alt, held.scrollback⟩
  | fullReset => exact absurd rfl plain
  | oscPromptMark kind exitCode =>
    unfold State.handle State.recordZone Holds
    exact held
  | _ => exact held

end Operations

end State

end Bitty.Screen
