import Bitty.Term.Buffer.Search
import Bitty.Ui.Selection

/-! Search results, the one that is navigated to, and the view that follows it. -/

namespace Bitty.Ui

open Bitty.Term PersistentSelection

structure SearchHighlight where
  matchIndex : Nat
  viewRow : Nat
  viewColStart : Nat
  viewColEnd : Nat
  bufferRow : Nat
  isCurrent : Bool
  lineId : Option Nat
  matchedText : Text

structure SearchState where
  pattern : Text
  options : SearchOptions
  results : List SearchMatch
  current : Option Nat
  active : Bool

def checkedSub (a b : Nat) : Option Nat := if b ≤ a then some (a - b) else none

variable {width height : Nat}

def visibleWindow (view : View) (s : State width height) : Option (Nat × Nat) :=
  if view.rows = 0 then none else some (viewStart view s, viewStart view s + view.rows)

def View.setScrollOffset (view : View) (offset maxScrollback : Nat) : View :=
  { view with scrollOffset := min offset maxScrollback, scrollAnchor := none }

namespace SearchState

def new : SearchState := ⟨[], ⟨true, SEARCH_MAX_RESULTS⟩, [], none, false⟩

def setSearch (s : State width height) (pattern : Text) (options : SearchOptions) : SearchState :=
  let pat := truncatePattern pattern
  let maxResults := min options.maxResults SEARCH_MAX_RESULTS
  let opts := SearchOptions.new options.caseSensitive maxResults
  if pat = [] || maxResults = 0 then ⟨pat, opts, [], none, false⟩
  else
    let results := s.search pat opts
    ⟨pat, opts, results, if results = [] then none else some 0, true⟩

variable (search : SearchState)

def refresh (s : State width height) : SearchState :=
  if search.pattern = [] then { search with results := [], current := none }
  else
    let results := s.search search.pattern search.options
    let current := if results = [] then none else some (search.current.elim 0 fun idx => min idx (results.length - 1))
    { search with results, current }

/-- The index wraps around in both directions. -/
def advance (delta : Int) : SearchState :=
  match search.current with
  | none => search
  | some cur =>
    if search.results = [] then search
    else
      let len : Int := search.results.length
      let wrapped := (((cur + delta).tmod len) + len).tmod len
      { search with current := some wrapped.toNat }

def next : SearchState := search.advance 1

def prev : SearchState := search.advance (-1)

def currentMatch : Option SearchMatch := search.current.bind (search.results[·]?)

def visibleHighlights (view : View) (s : State width height) : List SearchHighlight :=
  match visibleWindow view s with
  | none => []
  | some (start, _) =>
    let colWinStart := view.colOffset
    let colWinEnd := view.colOffset + view.cols
    search.results.zipIdx.filterMap fun (m, idx) =>
      if m.bufferRow < start ∨ start + view.rows ≤ m.bufferRow then none
      else if m.colEnd < colWinStart ∨ colWinEnd ≤ m.colStart then none
      else
        let first := max m.colStart colWinStart
        let stop := min (m.colEnd + 1) colWinEnd
        if stop ≤ first then none
        else some {
          matchIndex := idx
          viewRow := m.bufferRow - start
          viewColStart := first - colWinStart
          viewColEnd := min (stop - colWinStart - 1) (view.cols - 1)
          bufferRow := m.bufferRow
          isCurrent := search.current = some idx
          lineId := m.lineId
          matchedText := m.matchedText }

/-- The offset that puts a row above the window to its top, and one below to its bottom. -/
def desiredOffset (m : SearchMatch) (start : Nat) (view : View) (s : State width height) : Option Nat :=
  let total := s.scrollbackLen + height
  if m.bufferRow < start then some (total - view.rows - m.bufferRow)
  else (checkedSub (m.bufferRow + 1) view.rows).map fun newStart => total - view.rows - newStart

def scrollRows (m : SearchMatch) (view : View) (s : State width height) : Option (View × Bool) :=
  match visibleWindow view s with
  | none => some (view, false)
  | some (start, stop) =>
    if m.bufferRow < start ∨ stop ≤ m.bufferRow then
      (desiredOffset m start view s).map fun desired =>
        let clamped := min desired s.scrollbackLen
        if clamped ≠ view.scrollOffset then (view.setScrollOffset clamped s.scrollbackLen, true) else (view, false)
    else some (view, false)

def scrollCols (m : SearchMatch) (stateWidth : Nat) (view : View) : Option (View × Bool) :=
  let winStart := view.colOffset
  let winEnd := view.colOffset + view.cols
  if winEnd ≤ m.colStart ∨ m.colEnd < winStart then
    let maxColOff := stateWidth - view.cols
    let desired := if winEnd ≤ m.colStart then some m.colStart else checkedSub (m.colEnd + 1) view.cols
    desired.map fun desired =>
      let clamped := min desired maxColOff
      if clamped ≠ view.colOffset then ({ view with colOffset := clamped }, true) else (view, false)
  else some (view, false)

/-- The view after the scroll and whether it changed; there is none when a subtraction underflows. -/
def scrollToCurrent (view : View) (s : State width height) : Option (View × Bool) :=
  match search.currentMatch with
  | none => some (view, false)
  | some m =>
    (scrollRows m view s).bind fun (view, rowsChanged) =>
      (scrollCols m width view).map fun (view, colsChanged) => (view, rowsChanged || colsChanged)

def Computed (s : State width height) : Prop := search.results = s.search search.pattern search.options

theorem computed_setSearch (s : State width height) (pattern : Text) (options : SearchOptions) :
    (setSearch s pattern options).Computed s := by
  unfold setSearch Computed
  dsimp only
  split_ifs with idle
  · simp only [Bool.or_eq_true, decide_eq_true_eq] at idle
    unfold State.search
    dsimp only [SearchOptions.new]
    rcases idle with empty | zero
    · rw [if_pos (by rw [empty]; rfl)]
    · split_ifs
      · rfl
      · rw [zero]
        rfl
  · rfl
  · rfl

section

variable {m : SearchMatch} {view : View} {s : State width height}

def RowShown (m : SearchMatch) (view : View) (s : State width height) : Prop :=
  viewStart view s ≤ m.bufferRow ∧ m.bufferRow < viewStart view s + view.rows

def RowShowable (m : SearchMatch) (view : View) (s : State width height) : Prop :=
  ∃ offset ≤ s.scrollbackLen, RowShown m { view with scrollOffset := offset } s

def ColShown (view : View) (col : Nat) : Prop := view.colOffset ≤ col ∧ col < view.colOffset + view.cols

theorem rowShown_congr {later : View} (rows : later.rows = view.rows) (offset : later.scrollOffset = view.scrollOffset) :
    RowShown m later s ↔ RowShown m view s := by
  unfold RowShown viewStart
  rw [rows, offset]

theorem desiredOffset_spec (rows : view.rows ≠ 0) (inside : m.bufferRow < s.scrollbackLen + height) (hidden : ¬RowShown m view s) :
    ∃ desired, desiredOffset m (viewStart view s) view s = some desired ∧
      (RowShowable m view s → RowShown m { view with scrollOffset := min desired s.scrollbackLen } s) ∧
      (¬RowShowable m view s → s.scrollbackLen ≤ desired) := by
  unfold RowShown at hidden
  by_cases above : m.bufferRow < viewStart view s
  · refine ⟨_, if_pos above, ?_, ?_⟩
    · rintro ⟨offset, bound, shown⟩
      unfold RowShown viewStart at shown ⊢
      unfold viewStart at above
      dsimp only at shown ⊢
      omega
    · intro never
      by_contra short
      refine never ⟨s.scrollbackLen + height - view.rows - m.bufferRow, by omega, ?_⟩
      unfold RowShown viewStart
      unfold viewStart at above
      dsimp only
      omega
  · have below : viewStart view s + view.rows ≤ m.bufferRow := by omega
    have fits : view.rows ≤ m.bufferRow + 1 := by omega
    refine ⟨_, by rw [desiredOffset, if_neg above, checkedSub, if_pos fits]; rfl, ?_, ?_⟩
    · rintro ⟨offset, bound, shown⟩
      unfold RowShown viewStart at shown ⊢
      unfold viewStart at below
      dsimp only at shown ⊢
      omega
    · intro never
      exfalso
      refine never ⟨s.scrollbackLen + height - view.rows - (m.bufferRow + 1 - view.rows), ?_, ?_⟩
      · unfold viewStart at below
        omega
      · unfold RowShown viewStart
        unfold viewStart at below
        dsimp only
        omega

theorem scrollRows_of_shown (shown : RowShown m view s) : scrollRows m view s = some (view, false) := by
  unfold scrollRows visibleWindow
  split_ifs
  · rfl
  · dsimp only
    rw [if_neg]
    have above := shown.1
    have below := shown.2
    omega

theorem scrollRows_of_hidden (rows : view.rows ≠ 0) (hidden : ¬RowShown m view s) {desired : Nat}
    (found : desiredOffset m (viewStart view s) view s = some desired) : scrollRows m view s =
      some (if min desired s.scrollbackLen ≠ view.scrollOffset then
        (view.setScrollOffset (min desired s.scrollbackLen) s.scrollbackLen, true) else (view, false)) := by
  have outside : m.bufferRow < viewStart view s ∨ viewStart view s + view.rows ≤ m.bufferRow := by
    unfold RowShown at hidden
    omega
  unfold scrollRows visibleWindow
  rw [if_neg rows]
  dsimp only
  rw [if_pos outside, found]
  rfl

/-- The row of a match is shown after the scroll if it can be, which never underflows and which a second scroll keeps. -/
theorem scrollRows_spec (rows : view.rows ≠ 0) (inside : m.bufferRow < s.scrollbackLen + height) :
    ∃ moved changed, scrollRows m view s = some (moved, changed) ∧
      moved.rows = view.rows ∧ moved.cols = view.cols ∧ moved.colOffset = view.colOffset ∧
      (RowShowable m view s → RowShown m moved s) ∧
      ∀ later : View, later.rows = moved.rows → later.scrollOffset = moved.scrollOffset →
        scrollRows m later s = some (later, false) := by
  by_cases shown : RowShown m view s
  · refine ⟨view, false, scrollRows_of_shown shown, rfl, rfl, rfl, fun _ => shown, fun later sameRows sameOffset => ?_⟩
    exact scrollRows_of_shown ((rowShown_congr sameRows sameOffset).mpr shown)
  · obtain ⟨desired, found, reveals, furthest⟩ := desiredOffset_spec rows inside shown
    have moves := scrollRows_of_hidden rows shown found
    -- Whether the offset changes or not, it is the desired one afterwards.
    obtain ⟨moved, changed, result, sameRows, sameCols, sameColOffset, offset⟩ :
        ∃ moved changed, scrollRows m view s = some (moved, changed) ∧ moved.rows = view.rows ∧ moved.cols = view.cols ∧
          moved.colOffset = view.colOffset ∧ moved.scrollOffset = min desired s.scrollbackLen := by
      by_cases keeps : min desired s.scrollbackLen = view.scrollOffset
      · exact ⟨view, false, by rw [moves, if_neg (not_not.mpr keeps)], rfl, rfl, rfl, keeps.symm⟩
      · refine ⟨view.setScrollOffset (min desired s.scrollbackLen) s.scrollbackLen, true, by rw [moves, if_pos keeps],
          rfl, rfl, rfl, ?_⟩
        exact Nat.min_eq_left (Nat.min_le_right _ _)
    have revealed : RowShowable m view s → RowShown m moved s := by
      intro showable
      have shownThere := reveals showable
      rwa [← @rowShown_congr _ _ m { view with scrollOffset := min desired s.scrollbackLen } s moved sameRows offset]
        at shownThere
    refine ⟨moved, changed, result, sameRows, sameCols, sameColOffset, revealed, fun later rowsLater offsetLater => ?_⟩
    by_cases showable : RowShowable m view s
    · exact scrollRows_of_shown ((rowShown_congr rowsLater offsetLater).mpr (revealed showable))
    · -- No offset shows the row, and the view is at the end already.
      have atEnd : later.scrollOffset = s.scrollbackLen := by
        rw [offsetLater, offset]
        exact Nat.min_eq_right (furthest showable)
      have never : ¬RowShowable m later s := by
        rintro ⟨o, bound, shown'⟩
        refine showable ⟨o, bound, ?_⟩
        rwa [← @rowShown_congr _ _ m { view with scrollOffset := o } s { later with scrollOffset := o }
          (rowsLater.trans sameRows) rfl]
      have hidden : ¬RowShown m later s := fun shown' => never ⟨later.scrollOffset, Nat.le_of_eq atEnd, shown'⟩
      have rows' : later.rows ≠ 0 := by
        rw [rowsLater, sameRows]
        exact rows
      obtain ⟨again, found', _, furthest'⟩ := desiredOffset_spec rows' inside hidden
      rw [scrollRows_of_hidden rows' hidden found', if_neg]
      rw [Nat.min_eq_right (furthest' never), atEnd]
      exact not_not.mpr rfl

theorem scrollCols_spec (cols : view.cols ≠ 0) (ordered : m.colStart ≤ m.colEnd) (inside : m.colEnd < width)
    (ahead : ¬(m.colEnd < view.colOffset ∧ m.colEnd + 1 < view.cols)) :
    ∃ offset changed, scrollCols m width view = some ({ view with colOffset := offset }, changed) ∧
      (view.colOffset + view.cols ≤ m.colStart → offset ≤ m.colStart ∧ m.colStart < offset + view.cols ∧
        (m.colEnd < m.colStart + view.cols → m.colEnd < offset + view.cols)) ∧
      (m.colEnd < view.colOffset → m.colEnd + 1 = offset + view.cols) ∧
      (view.colOffset ≤ m.colEnd ∧ m.colStart < view.colOffset + view.cols → offset = view.colOffset) ∧
      (offset ≤ m.colEnd ∧ m.colStart < offset + view.cols) := by
  unfold scrollCols
  dsimp only
  by_cases right : view.colOffset + view.cols ≤ m.colStart
  · rw [if_pos (.inl right), if_pos right]
    by_cases keeps : min m.colStart (width - view.cols) = view.colOffset
    · exact ⟨view.colOffset, false, by simp [keeps], by omega⟩
    · exact ⟨min m.colStart (width - view.cols), true, by simp [keeps], by omega⟩
  · by_cases left : m.colEnd < view.colOffset
    · have fits : view.cols ≤ m.colEnd + 1 := by omega
      rw [if_pos (.inr left), if_neg right, checkedSub, if_pos fits]
      by_cases keeps : min (m.colEnd + 1 - view.cols) (width - view.cols) = view.colOffset
      · exact ⟨view.colOffset, false, by simp [keeps], by omega⟩
      · exact ⟨min (m.colEnd + 1 - view.cols) (width - view.cols), true, by simp [keeps], by omega⟩
    · rw [if_neg (by omega)]
      exact ⟨view.colOffset, false, rfl, by omega⟩

theorem scrollCols_of_shown (here : view.colOffset ≤ m.colEnd) (there : m.colStart < view.colOffset + view.cols) (w : Nat) :
    scrollCols m w view = some (view, false) := by
  unfold scrollCols
  dsimp only
  rw [if_neg (by omega)]

theorem highlight_of_shown {search : SearchState} {idx : Nat} (current : search.current = some idx)
    (found : search.results[idx]? = some m) (rows : view.rows ≠ 0) (cols : view.cols ≠ 0) (ordered : m.colStart ≤ m.colEnd)
    (row : RowShown m view s) (here : view.colOffset ≤ m.colEnd) (there : m.colStart < view.colOffset + view.cols) :
    ∃ h ∈ search.visibleHighlights view s, h.matchIndex = idx ∧ h.isCurrent = true ∧ h.bufferRow = m.bufferRow ∧
      h.viewRow < view.rows ∧ h.viewColStart ≤ h.viewColEnd ∧ h.viewColEnd < view.cols := by
  obtain ⟨above, below⟩ := row
  unfold visibleHighlights visibleWindow
  rw [if_neg rows]
  dsimp only
  refine ⟨⟨idx, m.bufferRow - viewStart view s, max m.colStart view.colOffset - view.colOffset,
    min (min (m.colEnd + 1) (view.colOffset + view.cols) - view.colOffset - 1) (view.cols - 1), m.bufferRow, true, m.lineId,
    m.matchedText⟩, List.mem_filterMap.mpr ⟨(m, idx), ?_, ?_⟩, rfl, rfl, rfl, ?_, ?_, ?_⟩
  · rw [List.mem_zipIdx_iff_getElem?]
    exact found
  · dsimp only
    rw [if_neg (by omega), if_neg (by omega), if_neg (by omega), current]
    simp
  · dsimp only
    omega
  · dsimp only
    omega
  · dsimp only
    omega

end

/-- Scrolling to the current match shows its row if any offset does and its columns as far as the view moves for them: it
brings in a match that is outside, and lets a match stay of which a column is shown. -/
theorem scrollToCurrent_reveals {s : State width height} (full : s.Full) {search : SearchState} (computed : search.Computed s)
    {m : SearchMatch} (current : search.currentMatch = some m) {view : View} (rows : view.rows ≠ 0) (cols : view.cols ≠ 0)
    (ahead : ¬(m.colEnd < view.colOffset ∧ m.colEnd + 1 < view.cols)) :
    ∃ moved changed, search.scrollToCurrent view s = some (moved, changed) ∧
      (RowShowable m view s → RowShown m moved s) ∧
      (view.colOffset + view.cols ≤ m.colStart → ColShown moved m.colStart ∧
        (m.colEnd < m.colStart + view.cols → ColShown moved m.colEnd)) ∧
      (m.colEnd < view.colOffset → m.colEnd + 1 = moved.colOffset + moved.cols ∧
        (m.colEnd < m.colStart + view.cols → ColShown moved m.colStart)) ∧
      (view.colOffset ≤ m.colEnd ∧ m.colStart < view.colOffset + view.cols → moved.colOffset = view.colOffset) ∧
      (RowShowable m view s → ∃ h ∈ search.visibleHighlights moved s, search.current = some h.matchIndex ∧
        h.isCurrent = true ∧ h.bufferRow = m.bufferRow ∧ h.viewRow < moved.rows ∧ h.viewColStart ≤ h.viewColEnd ∧
        h.viewColEnd < moved.cols) ∧
      search.scrollToCurrent moved s = some (moved, false) := by
  obtain ⟨idx, at_idx, found⟩ := Option.bind_eq_some_iff.mp current
  have member : m ∈ s.search search.pattern search.options := computed ▸ List.mem_of_getElem? found
  obtain ⟨inRows, ordered, inCols⟩ := full.search member
  obtain ⟨first, rowsChanged, movesRows, sameRows, sameCols, sameColOffset, reveals, keepsRows⟩ :=
    scrollRows_spec rows inRows
  have colsFirst : first.cols ≠ 0 := by
    rw [sameCols]
    exact cols
  obtain ⟨offset, colsChanged, movesCols, fromRight, fromLeft, stays, shown⟩ :=
    scrollCols_spec colsFirst ordered inCols (by rw [sameCols, sameColOffset]; exact ahead)
  rw [sameCols, sameColOffset] at fromRight stays
  rw [sameCols] at fromLeft shown
  rw [sameColOffset] at fromLeft
  have colsMoved : ({ first with colOffset := offset } : View).cols = view.cols := sameCols
  have rowsMoved : ({ first with colOffset := offset } : View).rows ≠ 0 := by
    rw [sameRows]
    exact rows
  refine ⟨{ first with colOffset := offset }, rowsChanged || colsChanged, ?_, ?_, ?_, ?_, stays, ?_, ?_⟩
  · simp only [scrollToCurrent, current, movesRows, movesCols, Option.bind_some, Option.map_some]
  · exact fun showable => reveals showable
  · intro right
    obtain ⟨le, lt, whole⟩ := fromRight right
    unfold ColShown
    rw [colsMoved]
    exact ⟨⟨le, lt⟩, fun fits => ⟨by dsimp only; omega, whole fits⟩⟩
  · intro left
    have ends := fromLeft left
    unfold ColShown
    rw [colsMoved]
    exact ⟨ends, fun fits => ⟨by dsimp only; omega, by dsimp only; omega⟩⟩
  · intro showable
    obtain ⟨h, inList, matchIndex, rest⟩ := highlight_of_shown at_idx found rowsMoved colsFirst ordered (reveals showable)
      shown.1 (by rw [colsMoved]; exact shown.2)
    exact ⟨h, inList, by rw [matchIndex, at_idx], rest⟩
  · have again := keepsRows { first with colOffset := offset } rfl rfl
    have colsAgain : scrollCols m width { first with colOffset := offset } = some ({ first with colOffset := offset }, false) :=
      scrollCols_of_shown shown.1 (by rw [colsMoved]; exact shown.2) width
    simp only [scrollToCurrent, current, again, colsAgain, Option.bind_some, Option.map_some, Bool.or_self]

def abRow : Row 4 :=
  ⟨⟨#[⟨'a', 1, false, []⟩, ⟨'b', 1, false, []⟩, ⟨' ', 1, false, []⟩, ⟨' ', 1, false, []⟩], rfl⟩, false⟩

def wordRow (below : Nat) : State 4 (below + 1) where
  main := fun r => if r = 0 then abRow else Row.blank 4
  alt := fun _ => Row.blank 4
  altScreen := false
  scrollback := Scrollback.withMaxLines 0
  scrollRegionTop := 0
  scrollRegionBottom := Fin.last below

def cutWord (cols colOffset : Nat) : View := { View.new 1 cols 1 with colOffset := colOffset }

/-- A match that is cut by the edge of a view wide enough for it stays cut; one wider than the view is shown by its end from
the left; a row that no offset shows has no highlight; and a match short of the view's width on its left underflows. -/
theorem scrollToCurrent_cut :
    let word := setSearch (wordRow 0) ['a', 'b'] ⟨true, 10⟩
    let letter := setSearch (wordRow 0) ['a'] ⟨true, 10⟩
    let above := setSearch (wordRow 1) ['a', 'b'] ⟨true, 10⟩
    (word.currentMatch = some ⟨0, none, 0, 1, ['a', 'b']⟩ ∧
      word.scrollToCurrent (cutWord 2 1) (wordRow 0) = some (cutWord 2 1, false) ∧
      1 < 0 + (cutWord 2 1).cols ∧ ¬ColShown (cutWord 2 1) 0) ∧
    (word.scrollToCurrent (cutWord 1 3) (wordRow 0) = some (cutWord 1 1, true) ∧ ¬ColShown (cutWord 1 1) 0) ∧
    (above.scrollToCurrent (cutWord 4 0) (wordRow 1) = some (cutWord 4 0, false) ∧
      above.visibleHighlights (cutWord 4 0) (wordRow 1) = []) ∧
    letter.scrollToCurrent (cutWord 3 1) (wordRow 0) = none := by
  unfold ColShown
  decide

theorem scrollToCurrent_reveals_cut :
    ∃ moved changed, (setSearch (wordRow 0) ['a', 'b'] ⟨true, 10⟩).scrollToCurrent (cutWord 2 1) (wordRow 0) =
      some (moved, changed) ∧
      (RowShowable ⟨0, none, 0, 1, ['a', 'b']⟩ (cutWord 2 1) (wordRow 0) →
        RowShown ⟨0, none, 0, 1, ['a', 'b']⟩ moved (wordRow 0)) := by
  have full : (wordRow 0).Full := by
    have row : FullRow 4 abRow.cells.toList := ⟨rfl, by decide, by decide⟩
    refine ⟨⟨fun r => ?_, fun _ => FullRow.blank 4⟩, nofun⟩
    change FullRow 4 (if r = 0 then abRow else Row.blank 4).cells.toList
    split
    · exact row
    · exact FullRow.blank 4
  have found : (setSearch (wordRow 0) ['a', 'b'] ⟨true, 10⟩).currentMatch = some ⟨0, none, 0, 1, ['a', 'b']⟩ := by decide
  obtain ⟨moved, changed, result, reveals, _⟩ := scrollToCurrent_reveals full
    (computed_setSearch (wordRow 0) ['a', 'b'] ⟨true, 10⟩) found (by decide : (cutWord 2 1).rows ≠ 0) (by decide) (by decide)
  exact ⟨moved, changed, result, reveals⟩

end SearchState

namespace SearchState

/-- What is asked of a search, with the terminal it is asked on. -/
inductive Request
  | set {width height : Nat} (s : State width height) (pattern : Text) (options : SearchOptions)
  | refresh {width height : Nat} (s : State width height)
  | next
  | prev

def serve (search : SearchState) : Request → SearchState
  | .set s pattern options => setSearch s pattern options
  | .refresh s => search.refresh s
  | .next => search.next
  | .prev => search.prev

/-- There is a current result exactly when there are results, and it is one of them. -/
structure Navigable (search : SearchState) : Prop where
  few : search.results.length ≤ SEARCH_MAX_RESULTS
  idle : search.results = [] → search.current = none
  inside : search.results ≠ [] → ∃ i < search.results.length, search.current = some i

variable {search : SearchState}

theorem advance_eq {cur : Nat} (delta : Int) (here : search.current = some cur) (found : search.results ≠ []) :
    search.advance delta = { search with current := some ((cur + delta) % search.results.length).toNat } := by
  have positive : (0 : Int) < search.results.length := Int.natCast_pos.mpr (List.length_pos_iff.mpr found)
  have least := Int.lt_tmod_of_pos (cur + delta) positive
  unfold advance
  rw [here]
  dsimp only
  rw [if_neg found, Int.tmod_eq_emod_of_nonneg (by omega), Int.add_emod_right]
  conv_rhs => rw [← Int.tmod_add_mul_tdiv (cur + delta) search.results.length, Int.add_mul_emod_self_left]

theorem length_search {width height : Nat} (s : State width height) (pattern : Text) (options : SearchOptions) :
    (s.search pattern options).length ≤ SEARCH_MAX_RESULTS := by
  unfold State.search
  dsimp only
  split_ifs
  · exact Nat.zero_le _
  · exact (List.length_take_le _ _).trans (Nat.min_le_right _ _)

theorem Navigable.advance (navigable : search.Navigable) (delta : Int) : (search.advance delta).Navigable := by
  by_cases found : search.results = []
  · have same : search.advance delta = search := by
      unfold SearchState.advance
      rw [navigable.idle found]
    rwa [same]
  · obtain ⟨i, inside, here⟩ := navigable.inside found
    have positive : (0 : Int) < search.results.length := by omega
    have low := Int.emod_nonneg (i + delta) (Int.ne_of_gt positive)
    have high := Int.emod_lt_of_pos (i + delta) positive
    rw [advance_eq delta here found]
    exact ⟨navigable.few, fun none_ => absurd none_ found, fun _ => ⟨_, by dsimp only; omega, rfl⟩⟩

theorem Navigable.advance_advance (navigable : search.Navigable) (a b : Int) :
    (search.advance a).advance b = search.advance (a + b) := by
  by_cases found : search.results = []
  · have same (delta : Int) : search.advance delta = search := by
      unfold SearchState.advance
      rw [navigable.idle found]
    rw [same, same, same]
  · obtain ⟨i, inside, here⟩ := navigable.inside found
    have low := Int.emod_nonneg (i + a) (show (search.results.length : Int) ≠ 0 by omega)
    rw [advance_eq a here found, advance_eq (a + b) here found]
    refine (@advance_eq { search with current := some _ } _ b rfl found).trans ?_
    dsimp only
    rw [Int.toNat_of_nonneg low, Int.emod_add_emod, Int.add_assoc]

theorem Navigable.advance_around (navigable : search.Navigable) {delta : Int} (around : (search.results.length : Int) ∣ delta) :
    search.advance delta = search := by
  by_cases found : search.results = []
  · unfold SearchState.advance
    rw [navigable.idle found]
  · obtain ⟨i, inside, here⟩ := navigable.inside found
    obtain ⟨k, rfl⟩ := around
    rw [advance_eq _ here found, Int.add_mul_emod_self_left, Int.emod_eq_of_lt (by omega) (by omega), Int.toNat_natCast, ← here]

theorem Navigable.serve (navigable : search.Navigable) (request : Request) : (search.serve request).Navigable := by
  cases request with
  | set s pattern options =>
    change (setSearch s pattern options).Navigable
    unfold setSearch
    dsimp only
    split_ifs with idle none_
    · exact ⟨Nat.zero_le _, fun _ => rfl, fun found => absurd rfl found⟩
    · exact ⟨length_search s _ _, fun _ => rfl, fun found => absurd none_ found⟩
    · exact ⟨length_search s _ _, fun none => absurd none none_, fun _ => ⟨0, List.length_pos_iff.mpr none_, rfl⟩⟩
  | refresh s =>
    change (search.refresh s).Navigable
    unfold refresh
    dsimp only
    split_ifs with idle none_
    · exact ⟨Nat.zero_le _, fun _ => rfl, fun found => absurd rfl found⟩
    · exact ⟨length_search s _ _, fun _ => rfl, fun found => absurd none_ found⟩
    · have positive := List.length_pos_iff.mpr none_
      refine ⟨length_search s _ _, fun none => absurd none none_, fun _ => ⟨_, ?_, rfl⟩⟩
      dsimp only
      cases search.current with
      | none => exact positive
      | some i => exact Nat.lt_of_le_of_lt (Nat.min_le_right _ _) (Nat.sub_lt positive Nat.one_pos)
  | next => exact navigable.advance 1
  | prev => exact navigable.advance (-1)

theorem Navigable.iterate_next (navigable : search.Navigable) (n : Nat) : next^[n] search = search.advance n := by
  induction n with
  | zero => exact (navigable.advance_around (Int.dvd_zero _)).symm
  | succ n ih =>
    rw [Function.iterate_succ_apply', ih]
    exact navigable.advance_advance n 1

end SearchState

end Bitty.Ui
