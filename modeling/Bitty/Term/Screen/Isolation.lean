import Bitty.Term.Screen.Links
import Bitty.Term.Screen.Shape
import Bitty.Vt.Parser

/-! The screens over whole runs: their shape, and the primary one while a program runs on the alternate one. -/

namespace Bitty.Screen

open Bitty.Vt

/-- A slice of bytes is parsed, and what it means is applied. -/
def processBytes {V : Vte} (inflate : List UInt8 → Nat → Inflated) (m : Meaning) (tables : UnicodeTables)
    (terminal : Parser V × State) (slice : List UInt8) : Parser V × State :=
  let parsed := terminal.1.advance inflate m slice
  (parsed.1, terminal.2.applyAll tables parsed.2)

/-- The part of the terminal that only the primary screen writes. -/
structure Aside where
  width : Nat
  height : Nat
  main : Grid
  altScreen : AltScreen
  primarySave : Option ScreenSave
  savedMain : Option SavedCursor
  scrollback : Scrollback

/-- The actions that reach past the alternate screen: a full reset, an erasure of the scrollback, and an exit. -/
def reachesPrimary : TerminalAction → Bool
  | .fullReset | .eraseInDisplay .scrollback => true
  | .setMode .alternateScreen enabled | .setMode .alternateScreenClearAndRestore enabled => !enabled
  | _ => false

namespace State

/-- Whatever bytes arrive, in whatever slices, the rows keep their width and their pairs, and the cursor stands on the
screen, off the second halves, and in the scroll region while origin mode is on. -/
theorem screen_shape (V : Vte) (inflate : List UInt8 → Nat → Inflated) (m : Meaning) (tables : UnicodeTables) (maxLines : Nat)
    (slices : List (List UInt8)) :
    ∃ s, (slices.foldl (processBytes inflate m tables) (.new V, withScrollbackLines maxLines)).2 = s ∧
      (∀ grid ∈ [s.screens.main, s.screens.alt], grid.lines.length = s.height ∧
        ∀ row ∈ grid.lines, row.cells.length = s.width ∧ WidePairs row.cells) ∧
      (∀ line ∈ s.scrollback.lines, line.cells.length = s.width ∧ WidePairs line.cells) ∧
      s.scrollRegionTop ≤ s.scrollRegionBottom ∧ s.scrollRegionBottom < s.height ∧
      s.cursor.position.row < s.height ∧ s.cursor.position.col < s.width ∧
      (s.modes.origin = true →
        s.scrollRegionTop ≤ s.cursor.position.row ∧ s.cursor.position.row ≤ s.scrollRegionBottom) ∧
      (s.screensActive.get s.cursor.position.row s.cursor.position.col).spacer = false := by
  have run (terminal : Parser V × State) (sound : terminal.2.Sound) :
      (slices.foldl (processBytes inflate m tables) terminal).2.Sound := by
    induction slices generalizing terminal with
    | nil => exact sound
    | cons slice rest ih => exact ih _ (sound.applyAll tables _)
  have sound := run (.new V, withScrollbackLines maxLines) (sound_withScrollbackLines maxLines)
  generalize (slices.foldl (processBytes inflate m tables) (.new V, withScrollbackLines maxLines)).2 = s at sound
  obtain ⟨shape, positive, settled⟩ := sound
  have row := settled.row
  have col := settled.col
  have region : s.scrollRegionTop ≤ s.scrollRegionBottom ∧ s.scrollRegionBottom < s.height := shape.region
  refine ⟨s, rfl, ?_, ?_, region.1, region.2, by omega, by omega, settled.origin, settled.plain⟩
  · intro grid member
    have held : grid.Holds s.width s.height (Shaped s.width) := by
      rcases List.mem_pair.mp member with rfl | rfl
      · exact shape.main
      · exact shape.alt
    exact ⟨held.count, fun row member => ⟨(held.rows row member).length, (held.rows row member).pairs⟩⟩
  · exact fun line member => ⟨(shape.scrollback line member).length, (shape.scrollback line member).pairs⟩

def aside (s : State) : Aside := ⟨s.width, s.height, s.screens.main, s.altScreen, s.primarySave, s.savedMain, s.scrollback⟩

variable {a : Aside} {t : State}

def Over (a : Aside) (t : State) : Prop := a.altScreen ≠ .off ∧ t.aside = a

section Edits

variable (held : t.Over a)

include held

theorem Over.active : t.altScreenActive = true := by
  obtain ⟨shown, same⟩ := held
  rw [← same] at shown
  exact bne_iff_ne.mpr shown

theorem Over.edit (f : Grid → Grid) : (t.editActive f).Over a := by
  obtain ⟨shown, same⟩ := held
  refine ⟨shown, ?_⟩
  rw [← same] at shown ⊢
  unfold editActive aside
  dsimp only
  cases screen : t.altScreen with
  | off => exact absurd screen shown
  | via47 => rfl
  | via1049 => rfl

theorem Over.scrollUpRegion (n : Nat) : (t.scrollUpRegion n).Over a := by
  have edited := held.edit (·.removeLinesUp t.scrollRegionTop t.scrollRegionBottom n t.bceStyle)
  unfold State.scrollUpRegion
  dsimp only
  rw [held.active, if_neg fun captured => absurd captured.1 Bool.false_ne_true]
  exact edited

theorem Over.scrollDownRegion (n : Nat) : (t.scrollDownRegion n).Over a := held.edit _

theorem Over.indexLinefeed : t.indexLinefeed.Over a := by
  unfold State.indexLinefeed
  dsimp only
  split
  · exact held.scrollUpRegion 1
  · split <;> exact held

theorem Over.reverseIndex : t.reverseIndex.Over a := by
  unfold State.reverseIndex
  dsimp only
  split
  · exact held.scrollDownRegion 1
  · exact held

theorem Over.softWrap : t.softWrap.Over a := (held.edit _).indexLinefeed

theorem Over.advanceTo (advanced : Nat) : (t.advanceTo advanced).Over a := by
  unfold State.advanceTo
  split <;> exact held

theorem Over.place (ch : Char) (width : Nat) : (t.place ch width).Over a := by
  have written := held.edit (·.modifyRow t.cursor.position.row
    (·.write t.bceStyle t.cursor.position.col width t.modes.insert (t.penCell ch width)))
  exact Over.advanceTo (t := State.noteOutputPrint _) written _

theorem Over.layout (ch : Char) (width : Nat) : (t.layout ch width).Over a := by
  unfold State.layout
  generalize started : (if t.modes.autoWrap ∧ t.cursor.pendingWrap then t.softWrap else t).latchWrap false = u
  have ready : u.Over a := by
    rw [← started]
    split
    · exact held.softWrap
    · exact held
  dsimp only
  split
  · exact ready
  · split
    · split
      · exact ready.softWrap.place ch width
      · exact ready
    · exact ready.place ch width

theorem Over.commitClusterCell (row col : Nat) (cell : Cell) (width : Nat) (grow : Bool) :
    (t.commitClusterCell row col cell width grow).Over a := by
  unfold State.commitClusterCell
  split
  · exact (held.edit _).advanceTo _
  · exact held.edit _

variable (tables : UnicodeTables)

theorem Over.attachZerowidth (mark : Char) : (t.attachZerowidth tables mark).Over a := by
  unfold State.attachZerowidth
  split
  · exact held
  · split
    · exact held
    · exact held.commitClusterCell _ _ _ _ _

theorem Over.printScalar (ch : Char) : (t.printScalar tables ch).Over a := by
  unfold State.printScalar
  dsimp only
  split
  · exact held
  · split
    · exact held.layout ch 1
    · split
      · exact held.attachZerowidth tables ch
      · cases extended : t.continued tables ch with
        | none => exact held.layout ch _
        | some grown =>
          obtain ⟨⟨row, col⟩, -, found⟩ := Option.bind_eq_some_iff.mp extended
          dsimp only at found
          split at found
          · obtain ⟨cell, -, rfl⟩ := Option.map_eq_some_iff.mp found
            exact held.commitClusterCell row col cell _ true
          · cases found

theorem Over.print (scalar : Char) : (t.print tables scalar).Over a := by
  have consumed : { t with charsets := t.charsets.consumeTranslationTable.2 }.Over a := held
  exact consumed.printScalar tables _

theorem Over.printControl (byte : UInt8) : (t.printControl byte).Over a := by
  unfold State.printControl
  dsimp only
  split
  · split <;> exact held
  all_goals first
    | exact held
    | exact held.reverseIndex
    | exact Over.indexLinefeed held
    | (split <;> exact Over.indexLinefeed held)

theorem Over.eraseInDisplay {mode : EraseDisplayMode} (plain : mode ≠ .scrollback) : (t.eraseInDisplay mode).Over a := by
  cases mode with
  | all => exact held.edit _
  | scrollback => exact absurd rfl plain
  | scrollAndClear =>
    unfold State.eraseInDisplay
    dsimp only
    rw [if_pos held.active]
    exact held.edit _
  | _ =>
    unfold State.eraseInDisplay
    dsimp only
    split
    · exact (held.edit _).edit _
    · exact held.edit _

theorem Over.setMode {mode : Mode} {enabled : Bool} (inside : reachesPrimary (.setMode mode enabled) = false) :
    (t.setMode mode enabled).Over a := by
  have kept {variant : AltScreen} (entry : enabled = true) : (t.switchAltScreen variant enabled).Over a := by
    unfold switchAltScreen
    rw [if_pos entry, if_neg (bne_iff_ne.mp held.active)]
    exact held
  cases mode with
  | column132 => exact held.edit (·.fillRect 0 0 (t.height - 1) (t.width - 1) t.bceStyle)
  | alternateScreen => exact kept (by simpa [reachesPrimary] using inside)
  | alternateScreenClearAndRestore => exact kept (by simpa [reachesPrimary] using inside)
  | mouseCoordinateEncoding encoding =>
    unfold State.setMode
    dsimp only
    split
    · exact held
    · split <;> exact held
  | _ => exact held

theorem Over.handle {action : TerminalAction} (inside : reachesPrimary action = false) :
    (t.handle tables action).Over a := by
  cases action with
  | print cell => exact held.print tables cell
  | printControl control => exact held.printControl control
  | cursorMove dir n => cases dir <;> exact held
  | cursorSave =>
    unfold State.handle State.cursorSave
    dsimp only
    rw [if_pos held.active]
    exact held
  | eraseInDisplay mode => exact held.eraseInDisplay (by rintro rfl; cases inside)
  | eraseInLine mode => cases mode <;> exact held.edit _
  | eraseChars n => exact (held.edit _).edit _
  | insertLines n =>
    unfold State.handle State.insertLines
    dsimp only
    split
    · exact held
    · exact held.edit _
  | deleteLines n =>
    unfold State.handle State.deleteLines
    dsimp only
    split
    · exact held
    · exact held.edit _
  | insertChars n => exact (held.edit _).edit _
  | deleteChars n => exact (held.edit _).edit _
  | scrollUp n => exact held.scrollUpRegion _
  | scrollDown n => exact held.scrollDownRegion _
  | setScrollRegion top bottom =>
    unfold State.handle State.setScrollRegion
    dsimp only
    generalize (if bottom = SENTINEL then t.height - 1 else bottom - 1) = lowest
    split <;> exact held
  | setMode mode enabled => exact held.setMode inside
  | tabClear targets =>
    cases targets
    exact held
  | enhancedKeyboard op => cases op <;> exact held
  | modifyOtherKeys op => cases op <;> exact held
  | kittyGraphics _ _ _ action cols rows cursorMove _ keys =>
    unfold State.handle State.kittyGraphics
    dsimp only
    split <;> exact held
  | oscPromptMark kind exitCode =>
    unfold State.handle State.recordZone Over aside
    exact held
  | fullReset => cases inside
  | _ => exact held

theorem Over.applyAll {actions : List TerminalAction} (inside : ∀ action ∈ actions, reachesPrimary action = false) :
    (t.applyAll tables actions).Over a := by
  induction actions generalizing t with
  | nil => exact held
  | cons action rest ih =>
    rw [List.forall_mem_cons] at inside
    have stepped : (t.apply tables action).Over a := held.handle tables inside.1
    exact ih stepped inside.2

end Edits

variable {s : State}

/-- What the entry of the alternate screen saves. -/
def screenSave (s : State) : ScreenSave :=
  ⟨s.cursor.position, s.cursor.pendingWrap, s.cursor.style, s.cursor.cursorStyle, s.cursor.visible, s.charsets, s.modes⟩

theorem over_enter (primary : s.altScreen = .off) (tables : UnicodeTables) :
    (s.apply tables (.setMode .alternateScreenClearAndRestore true)).Over
      { s.aside with altScreen := .via1049, primarySave := some s.screenSave } := by
  refine ⟨by rintro ⟨⟩, ?_⟩
  change (s.switchAltScreen .via1049 true).aside = _
  unfold switchAltScreen enterAltScreen
  rw [if_pos rfl, if_pos primary]
  rfl

/-- The primary screen once it is shown again, after the alternate one has come to `t`. -/
def returned (s t : State) : State :=
  { t with
    primarySave := none
    cursor := s.cursor
    charsets := s.charsets
    modes := { s.modes with mouseTracking := none }
    enhancedKeyboardStash := t.modes.enhancedKeyboard
    altScreen := .off }

section Return

variable (held : t.Over { s.aside with altScreen := .via1049, primarySave := some s.screenSave })

include held

theorem Over.leave : t.setMode .alternateScreenClearAndRestore false = s.returned t := by
  have screen : t.altScreen = .via1049 := congrArg Aside.altScreen held.2
  have saved : t.primarySave = some s.screenSave := congrArg Aside.primarySave held.2
  change t.switchAltScreen .via1049 false = _
  unfold switchAltScreen leaveAltScreen
  rw [if_neg Bool.false_ne_true, if_neg (by rw [screen]; rintro ⟨⟩), saved, screen]
  rfl

theorem Over.settled (sound : s.Sound) (primary : s.altScreen = .off)
    (region : s.modes.origin = true →
      t.scrollRegionTop ≤ s.cursor.position.row ∧ s.cursor.position.row ≤ t.scrollRegionBottom) : (s.returned t).Settled := by
  have main : t.screens.main = s.screens.main := congrArg Aside.main held.2
  have width : t.width = s.width := congrArg Aside.width held.2
  have height : t.height = s.height := congrArg Aside.height held.2
  refine ⟨?_, ?_, region, ?_⟩
  · change s.cursor.position.row ≤ t.height - 1
    rw [height]
    exact sound.settled.row
  · change s.cursor.position.col ≤ t.width - 1
    rw [width]
    exact sound.settled.col
  · have plain := sound.settled.plain
    unfold screensActive at plain ⊢
    rw [primary] at plain
    change (t.screens.main.get _ _).spacer = false
    rw [main]
    exact plain

end Return

/-- A program on the alternate screen leaves the primary one as it was, and the cursor stands where it stood unless
origin mode holds it inside a scroll region that the program has moved. -/
theorem alternate_screen_isolated (maxLines : Nat) (tables : UnicodeTables) (before : List TerminalAction)
    {within : List TerminalAction} (inside : ∀ action ∈ within, reachesPrimary action = false)
    (primary : s = (withScrollbackLines maxLines).applyAll tables before ∧ s.altScreen = .off) :
    ∃ t, s.applyAll tables ([.setMode .alternateScreenClearAndRestore true] ++ within ++
        [.setMode .alternateScreenClearAndRestore false]) = t ∧
      t.screens.main = s.screens.main ∧ t.scrollback = s.scrollback ∧ t.savedMain = s.savedMain ∧ t.altScreen = .off ∧
      t.charsets = s.charsets ∧ t.modes = { s.modes with mouseTracking := none } ∧
      t.cursor = { s.cursor with position := t.cursor.position } ∧
      (t.cursor = s.cursor ↔ s.modes.origin = true →
        t.scrollRegionTop ≤ s.cursor.position.row ∧ s.cursor.position.row ≤ t.scrollRegionBottom) := by
  obtain ⟨rfl, primary⟩ := primary
  have sound := (sound_withScrollbackLines maxLines).applyAll tables before
  generalize (withScrollbackLines maxLines).applyAll tables before = s at primary sound
  have final := sound.applyAll tables ([.setMode .alternateScreenClearAndRestore true] ++ within ++
    [.setMode .alternateScreenClearAndRestore false])
  have held := (over_enter primary tables).applyAll tables inside
  unfold applyAll at held final ⊢
  rw [List.foldl_append, List.foldl_append] at final ⊢
  simp only [List.foldl_cons, List.foldl_nil] at held final ⊢
  generalize within.foldl (·.apply tables ·) (s.apply tables (.setMode .alternateScreenClearAndRestore true)) = u at held final
  have left : u.apply tables (.setMode .alternateScreenClearAndRestore false) = (s.returned u).enforceCursorInvariants :=
    congrArg enforceCursorInvariants held.leave
  rw [left] at final
  refine ⟨_, left, congrArg Aside.main held.2, congrArg Aside.scrollback held.2, congrArg Aside.savedMain held.2, rfl, rfl,
    rfl, rfl, ?_⟩
  constructor
  · intro restored on
    have region := final.settled.origin on
    rwa [restored] at region
  · intro region
    rw [(held.settled sound primary region).enforce_eq]
    rfl

theorem alternate_screen_isolated_origin : ∃ t, (withScrollbackLines 10).applyAll narrowTables
      [.setMode .alternateScreenClearAndRestore true, .setScrollRegion 3 5, .setMode .origin true, .print 'a', .cursorSave,
        .setMode .alternateScreenClearAndRestore false] = t ∧
      t.screens.main = (withScrollbackLines 10).screens.main ∧ t.cursor = {} := by
  have inside : ∀ action ∈ [TerminalAction.setScrollRegion 3 5, .setMode .origin true, .print 'a', .cursorSave],
      reachesPrimary action = false := by decide
  obtain ⟨t, run, main, -, -, -, -, -, -, cursor⟩ := alternate_screen_isolated 10 narrowTables [] inside ⟨rfl, rfl⟩
  exact ⟨t, run, main, cursor.mpr (by rintro ⟨⟩)⟩

end State

end Bitty.Screen
