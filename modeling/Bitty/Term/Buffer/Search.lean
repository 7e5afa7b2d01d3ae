import Bitty.Library.Pattern
import Bitty.Term.Buffer.Rowwise
import Bitty.Vt.Action

/-! Search of the scrollback and the screen for a text. -/

namespace Bitty.Term

def SEARCH_MAX_PATTERN_LEN : Nat := 256

def SEARCH_MAX_RESULTS : Nat := 1000

structure SearchOptions where
  caseSensitive : Bool
  maxResults : Nat

def SearchOptions.new (caseSensitive : Bool) (maxResults : Nat) : SearchOptions :=
  ⟨caseSensitive, min maxResults SEARCH_MAX_RESULTS⟩

/-- Both columns are of the match; a scrollback line is named by its identifier. -/
structure SearchMatch where
  bufferRow : Nat
  lineId : Option Nat
  colStart : Nat
  colEnd : Nat
  matchedText : Text
  deriving DecidableEq

def truncatePattern (pattern : Text) : Text := Vt.truncateUtf8 SEARCH_MAX_PATTERN_LEN pattern

/-- The characters of a row, each with the column of its cell; the column after a wide cell is skipped. -/
def lineTextAndMap : List Cell → Nat → Bool → List (Char × Nat)
  | [], _, _ => []
  | _ :: rest, col, true => lineTextAndMap rest (col + 1) false
  | cell :: rest, col, false =>
    if cell.spacer then lineTextAndMap rest (col + 1) false
    else cell.text.map (·, col) ++ lineTextAndMap rest (col + 1) (cell.width = 2)

def find (needle : Text) : Text → Option Nat
  | [] => if needle = [] then some 0 else none
  | c :: rest => if needle.isPrefixOf (c :: rest) then some 0 else (find needle rest).map (· + 1)

/-- The places of the occurrences from `start` on, each searched behind the one before, as many as there is room for. -/
def occurrences (needle : Text) : Nat → Nat → Text → List Nat
  | 0, _, _ => []
  | room + 1, start, hay =>
    match find needle hay with
    | none => []
    | some rel => (start + rel) :: occurrences needle room (start + rel + needle.length) (hay.drop (rel + needle.length))

/-- Places are counted in characters, as folding the case of ASCII letters keeps every length. -/
def findAllOccurrences (haystack needle : Text) (caseSensitive : Bool) : List Nat :=
  if needle = [] || haystack = [] then []
  else if caseSensitive then occurrences needle SEARCH_MAX_RESULTS 0 haystack
  else occurrences needle.lower SEARCH_MAX_RESULTS 0 haystack.lower

/-- The match at a character of a row, unless it runs past its end. -/
def matchAt (bufferRow : Nat) (lineId : Option Nat) (cells : List Cell) (patChars charIdx : Nat) : Option SearchMatch :=
  let chars := lineTextAndMap cells 0 false
  match chars[charIdx]?, chars[charIdx + patChars - 1]? with
  | some (_, colStart), some (_, lastCol) =>
    let width := (cells[lastCol]?).elim 1 fun cell => if cell.width = 0 then 1 else cell.width
    some ⟨bufferRow, lineId, colStart, lastCol + width - 1, ((chars.map (·.1)).drop charIdx).take patChars⟩
  | _, _ => none

def rowMatches (pattern : Text) (caseSensitive : Bool) (bufferRow : Nat) (lineId : Option Nat) (cells : List Cell) :
    List SearchMatch :=
  (findAllOccurrences ((lineTextAndMap cells 0 false).map (·.1)) pattern caseSensitive).filterMap
    (matchAt bufferRow lineId cells pattern.length)

namespace State

variable {width height : Nat}

/-- The matches of the rows, oldest first; the search ends with the last one that is asked for. -/
def search (s : State width height) (pattern : Text) (options : SearchOptions) : List SearchMatch :=
  let pat := truncatePattern pattern
  let maxResults := min options.maxResults SEARCH_MAX_RESULTS
  if pat = [] then []
  else
    let history := (List.range s.scrollbackLen).flatMap fun idx =>
      (s.scrollbackLine idx).elim [] fun line => rowMatches pat options.caseSensitive idx (some line.id) line.cells
    let screen := (List.finRange height).flatMap fun row =>
      rowMatches pat options.caseSensitive (s.scrollbackLen + row.val) none (s.screensActive row).cells.toList
    (history ++ screen).take maxResults

end State

/-- The cells of a row: as many as the row has columns, one or two columns wide, and no wide one cut. -/
structure FullRow (width : Nat) (cells : List Cell) : Prop where
  length : cells.length = width
  paired : WidePaired cells
  narrow : ∀ cell ∈ cells, cell.width ≤ 2

theorem FullRow.blank (width : Nat) : FullRow width (Row.blank width).cells.toList := by
  have erased : ∀ cell ∈ (Row.blank width).cells.toList, cell = Cell.erased := by
    intro cell member
    rw [Row.blank, Vector.toList_replicate] at member
    exact List.eq_of_mem_replicate member
  refine ⟨Vector.length_toList, ⟨fun {c half} found second => ?_, fun {c first} found wide _ => ?_⟩, fun cell member => ?_⟩
  · rw [erased half (List.mem_of_getElem? found)] at second
    cases second
  · rw [erased first (List.mem_of_getElem? found)] at wide
    cases wide
  · rw [erased cell member]
    decide

structure State.Full {width height : Nat} (s : State width height) : Prop where
  grids : s.Grids (FullRow width)
  history : s.History (FullRow width)

def Action.Full {width height : Nat} (act : Action width height) : Prop := act.Writes (FullRow width) ∧ act.Restores (FullRow width)

theorem State.Full.run {width height : Nat} {s : State width height} (full : s.Full) {acts : List (Action width height)}
    (writes : ∀ act ∈ acts, act.Full) : (acts.foldl State.perform s).Full := by
  induction acts generalizing s with
  | nil => exact full
  | cons act rest ih =>
    have here := writes act List.mem_cons_self
    refine ih ⟨?_, ?_⟩ fun later member => writes later (List.mem_cons_of_mem _ member)
    · exact full.grids.perform (FullRow.blank width) here.1
    · exact full.history.perform full.grids here.2

section

variable {width : Nat} {cells : List Cell}

theorem mem_lineTextAndMap {cells : List Cell} {start : Nat} {skip : Bool} {ch : Char} {col : Nat}
    (member : (ch, col) ∈ lineTextAndMap cells start skip) :
    ∃ c cell, col = start + c ∧ cells[c]? = some cell ∧ cell.spacer = false := by
  induction cells generalizing start skip with
  | nil => cases member
  | cons first rest ih =>
    have later : ∀ skip, (ch, col) ∈ lineTextAndMap rest (start + 1) skip →
        ∃ c cell, col = start + c ∧ (first :: rest)[c]? = some cell ∧ cell.spacer = false := by
      intro skip inRest
      obtain ⟨c, cell, place, found, plain⟩ := ih inRest
      exact ⟨c + 1, cell, by omega, found, plain⟩
    cases skip with
    | true => exact later false member
    | false =>
      rw [lineTextAndMap] at member
      split_ifs at member with half
      · exact later false member
      · rcases List.mem_append.mp member with here | inRest
        · obtain ⟨_, _, same⟩ := List.mem_map.mp here
          obtain ⟨_, rfl⟩ := Prod.mk.inj same
          exact ⟨0, first, rfl, rfl, by simpa using half⟩
        · exact later _ inRest

theorem lineTextAndMap_ascends (cells : List Cell) (start : Nat) (skip : Bool) :
    (lineTextAndMap cells start skip).Pairwise fun x y => x.2 ≤ y.2 := by
  induction cells generalizing start skip with
  | nil => exact List.Pairwise.nil
  | cons first rest ih =>
    cases skip with
    | true => exact ih (start + 1) false
    | false =>
      rw [lineTextAndMap]
      split_ifs with half
      · exact ih (start + 1) false
      · refine List.pairwise_append.mpr ⟨?_, ih _ _, fun x inHere y inRest => ?_⟩
        · exact List.pairwise_map.mpr (List.pairwise_of_forall fun _ _ => Nat.le_refl _)
        · obtain ⟨_, _, rfl⟩ := List.mem_map.mp inHere
          obtain ⟨c, _, place, _⟩ := @mem_lineTextAndMap _ _ _ y.1 y.2 inRest
          dsimp only
          omega

theorem matchAt_columns (full : FullRow width cells) {bufferRow patChars charIdx : Nat} {lineId : Option Nat}
    {m : SearchMatch} (chars : patChars ≠ 0) (found : matchAt bufferRow lineId cells patChars charIdx = some m) :
    m.bufferRow = bufferRow ∧ m.colStart ≤ m.colEnd ∧ m.colEnd < width := by
  unfold matchAt at found
  dsimp only at found
  split at found
  next first colStart last lastCol atFirst atLast =>
    obtain ⟨c, cell, place, here, plain⟩ := mem_lineTextAndMap (List.mem_of_getElem? atLast)
    rw [Nat.zero_add] at place
    subst place
    have ascends : colStart ≤ lastCol := by
      rcases Nat.lt_or_ge charIdx (charIdx + patChars - 1) with before | same
      · obtain ⟨boundFirst, eqFirst⟩ := List.getElem?_eq_some_iff.mp atFirst
        obtain ⟨boundLast, eqLast⟩ := List.getElem?_eq_some_iff.mp atLast
        have le := List.pairwise_iff_getElem.mp (lineTextAndMap_ascends cells 0 false) _ _ boundFirst boundLast before
        rw [eqFirst, eqLast] at le
        exact le
      · have eq : charIdx + patChars - 1 = charIdx := by omega
        rw [eq, atFirst] at atLast
        exact Nat.le_of_eq (congrArg Prod.snd (Option.some.inj atLast))
    have bound := (List.getElem?_eq_some_iff.mp here).1
    rw [full.length] at bound
    rw [here, Option.elim_some] at found
    have narrow := full.narrow cell (List.mem_of_getElem? here)
    obtain rfl := (Option.some.inj found).symm
    refine ⟨rfl, ?_, ?_⟩
    · dsimp only
      split_ifs <;> omega
    · dsimp only
      by_cases wide : cell.width = 2
      · -- The second half stands in the row as well.
        obtain ⟨half, there, _⟩ := full.paired.spacer here wide plain
        have next := (List.getElem?_eq_some_iff.mp there).1
        rw [full.length] at next
        rw [if_neg (by omega)]
        omega
      · split_ifs <;> omega
  next => cases found

end

namespace State

variable {width height : Nat} {s : State width height}

theorem Full.search (full : s.Full) {pattern : Text} {options : SearchOptions} {m : SearchMatch}
    (member : m ∈ s.search pattern options) :
    m.bufferRow < s.scrollbackLen + height ∧ m.colStart ≤ m.colEnd ∧ m.colEnd < width := by
  unfold State.search at member
  dsimp only at member
  split_ifs at member with empty
  · cases member
  · have chars : (truncatePattern pattern).length ≠ 0 := fun none => empty (List.eq_nil_of_length_eq_zero none)
    rcases List.mem_append.mp (List.mem_of_mem_take member) with inHistory | inScreen
    · obtain ⟨idx, inRange, inRow⟩ := List.mem_flatMap.mp inHistory
      have bound := List.mem_range.mp inRange
      have here : s.scrollbackLine idx = some _ := List.getElem?_eq_getElem bound
      rw [here, Option.elim_some] at inRow
      obtain ⟨charIdx, _, found⟩ := List.mem_filterMap.mp inRow
      obtain ⟨row, columns⟩ := matchAt_columns (full.history _ (List.mem_of_getElem? here)) chars found
      exact ⟨by omega, columns⟩
    · obtain ⟨r, _, inRow⟩ := List.mem_flatMap.mp inScreen
      obtain ⟨charIdx, _, found⟩ := List.mem_filterMap.mp inRow
      obtain ⟨row, columns⟩ := matchAt_columns (full.grids.active r) chars found
      have below := r.isLt
      exact ⟨by omega, columns⟩

end State

/-! A search is a scan of the rows, from left to right. -/

/-- The places found from a place on: each the first behind the one before. -/
inductive Greedy (occurs : Nat → Prop) (length : Nat) : Nat → List Nat → Prop
  | done {start} : (∀ p, start ≤ p → ¬occurs p) → Greedy occurs length start []
  | next {start p places} : start ≤ p → occurs p → (∀ q, start ≤ q → q < p → ¬occurs q) →
      Greedy occurs length (p + length) places → Greedy occurs length start (p :: places)

def folded (caseSensitive : Bool) (text : Text) : Text := if caseSensitive then text else text.lower

/-- The pattern stands at a place of the text. An empty one stands nowhere. -/
def Occurs (caseSensitive : Bool) (pattern hay : Text) (p : Nat) : Prop :=
  pattern ≠ [] ∧ folded caseSensitive ((hay.drop p).take pattern.length) = folded caseSensitive pattern

structure BufferRow where
  index : Nat
  lineId : Option Nat
  cells : List Cell

def BufferRow.chars (row : BufferRow) : List (Char × Nat) :=
  row.cells.zipIdx.flatMap fun x => if x.1.spacer then [] else (x.1.glyph :: x.1.zerowidth).map (·, x.2)

def State.bufferRows {width height : Nat} (s : State width height) : List BufferRow :=
  ((List.range s.scrollbackLen).filterMap fun idx => (s.scrollbackLine idx).map fun line => ⟨idx, some line.id, line.cells⟩) ++
    (List.finRange height).map fun row => ⟨s.scrollbackLen + row.val, none, (s.screensActive row).cells.toList⟩

structure SearchMatch.Marks (m : SearchMatch) (row : BufferRow) (p n : Nat) : Prop where
  bufferRow : m.bufferRow = row.index
  lineId : m.lineId = row.lineId
  matchedText : m.matchedText = ((row.chars.drop p).take n).map (·.1)
  columns : ∀ c, m.colStart ≤ c ∧ c ≤ m.colEnd ↔ ∃ x ∈ (row.chars.drop p).take n, ∃ cell, row.cells[x.2]? = some cell ∧
    (c = x.2 ∨ cell.width = 2 ∧ c = x.2 + 1)

def Scans (caseSensitive : Bool) (pattern : Text) (row : BufferRow) (found : List SearchMatch) : Prop :=
  ∃ places, Greedy (Occurs caseSensitive pattern (row.chars.map (·.1))) pattern.length 0 places ∧
    List.Forall₂ (fun p m => m.Marks row p pattern.length) places found

def State.Finds {width height : Nat} (s : State width height) (pattern : Text) (options : SearchOptions)
    (answer : List SearchMatch) : Prop :=
  ∃ found, List.Forall₂ (Scans options.caseSensitive (truncatePattern pattern)) s.bufferRows found ∧
    answer = found.flatten.take (min options.maxResults SEARCH_MAX_RESULTS)

section

variable {needle pattern hay : Text} {caseSensitive : Bool}

theorem find_cases (filled : needle ≠ []) (hay : Text) :
    (find needle hay = none ∧ ∀ q, ¬needle <+: hay.drop q) ∨
      ∃ r, find needle hay = some r ∧ needle <+: hay.drop r ∧ ∀ q < r, ¬needle <+: hay.drop q := by
  induction hay with
  | nil =>
    refine .inl ⟨if_neg filled, fun q found => filled ?_⟩
    rw [List.drop_nil] at found
    exact List.prefix_nil.mp found
  | cons c rest ih =>
    unfold find
    by_cases here : needle.isPrefixOf (c :: rest) = true
    · exact .inr ⟨0, if_pos here, List.isPrefixOf_iff_prefix.mp here, nofun⟩
    · have first : ¬needle <+: c :: rest := fun found => here (List.isPrefixOf_iff_prefix.mpr found)
      rw [if_neg here]
      rcases ih with ⟨none, never⟩ | ⟨r, found, stands, before⟩
      · refine .inl ⟨by rw [none]; rfl, fun q => ?_⟩
        cases q with
        | zero => exact first
        | succ q => exact never q
      · refine .inr ⟨r + 1, by rw [found]; rfl, stands, fun q less => ?_⟩
        cases q with
        | zero => exact first
        | succ q => exact before q (by omega)

theorem occurrences_greedy (filled : needle ≠ []) (hay : Text) (start : Nat) :
    ∃ places, Greedy (fun p => needle <+: hay.drop p) needle.length start places ∧
      ∀ room, occurrences needle room start (hay.drop start) = places.take room := by
  rcases find_cases filled (hay.drop start) with ⟨none, never⟩ | ⟨r, found, stands, before⟩
  · refine ⟨[], .done fun p later stands => never (p - start) ?_, fun room => ?_⟩
    · rwa [List.drop_drop, Nat.add_sub_of_le later]
    · cases room with
      | zero => rfl
      | succ room => rw [occurrences, none, List.take_nil]
  · have long := List.length_pos_of_ne_nil filled
    have inside := stands.length_le
    rw [List.drop_drop, List.length_drop] at inside
    have shorter : hay.length - (start + r + needle.length) < hay.length - start := by omega
    obtain ⟨places, greedy, rest⟩ := occurrences_greedy filled hay (start + r + needle.length)
    refine ⟨(start + r) :: places, .next (Nat.le_add_right _ _) (by rwa [← List.drop_drop]) (fun q later less here => ?_) greedy,
      fun room => ?_⟩
    · refine before (q - start) (by omega) ?_
      rwa [List.drop_drop, Nat.add_sub_of_le later]
    · cases room with
      | zero => rfl
      | succ room =>
        rw [occurrences, found]
        dsimp only
        rw [List.take_succ_cons, ← rest room, List.drop_drop, ← Nat.add_assoc]
termination_by hay.length - start

theorem length_folded (text : Text) : (folded caseSensitive text).length = text.length := by
  unfold folded
  split_ifs
  · rfl
  · exact List.length_map _

theorem folded_part (text : Text) (p n : Nat) :
    folded caseSensitive ((text.drop p).take n) = ((folded caseSensitive text).drop p).take n := by
  unfold folded
  split_ifs
  · rfl
  · rw [Text.lower, Text.lower, List.map_take, List.map_drop]

theorem occurs_iff (filled : pattern ≠ []) {p : Nat} :
    Occurs caseSensitive pattern hay p ↔ folded caseSensitive pattern <+: (folded caseSensitive hay).drop p := by
  rw [Occurs, folded_part, List.prefix_iff_eq_take, length_folded, eq_comm]
  exact and_iff_right filled

theorem findAllOccurrences_greedy (filled : pattern ≠ []) (hay : Text) :
    ∃ places, Greedy (Occurs caseSensitive pattern hay) pattern.length 0 places ∧
      findAllOccurrences hay pattern caseSensitive = places.take SEARCH_MAX_RESULTS := by
  have filled' : folded caseSensitive pattern ≠ [] := by
    intro none
    have length := congrArg List.length none
    rw [length_folded] at length
    exact filled (List.eq_nil_of_length_eq_zero length)
  obtain ⟨places, greedy, found⟩ := occurrences_greedy filled' (folded caseSensitive hay) 0
  have same : (fun p => folded caseSensitive pattern <+: (folded caseSensitive hay).drop p) = Occurs caseSensitive pattern hay :=
    funext fun p => propext (occurs_iff filled).symm
  rw [same, length_folded] at greedy
  refine ⟨places, greedy, ?_⟩
  unfold findAllOccurrences
  by_cases empty : hay = []
  · subst empty
    rw [if_pos (by simp)]
    cases greedy with
    | done => rfl
    | next _ here =>
      have length := congrArg List.length here.2
      rw [length_folded, length_folded, List.drop_nil, List.take_nil] at length
      exact absurd (List.eq_nil_of_length_eq_zero length.symm) filled
  · rw [if_neg (by simp [filled, empty]), ← found, List.drop_zero]
    unfold folded
    split_ifs
    · rfl
    · rfl

end

section

variable {cells : List Cell} {width : Nat} {row : BufferRow} {caseSensitive : Bool} {pattern : Text}

theorem Cell.text_eq (cell : Cell) : cell.text = cell.glyph :: cell.zerowidth := by
  unfold Cell.text
  split_ifs with blank
  · simp only [Cell.isBlank, Bool.and_eq_true, beq_iff_eq, List.isEmpty_iff] at blank
    rw [blank.1.2, blank.2]
  · rfl

theorem lineTextAndMap_eq {cells : List Cell} {skip : Bool}
    (wide : ∀ c cell, cells[c]? = some cell → cell.width = 2 → cell.spacer = false →
      ∃ half, cells[c + 1]? = some half ∧ half.spacer = true)
    (first : skip = true → ∀ cell, cells[0]? = some cell → cell.spacer = true) (start : Nat) :
    lineTextAndMap cells start skip = (cells.zipIdx start).flatMap fun x =>
      if x.1.spacer then [] else (x.1.glyph :: x.1.zerowidth).map (·, x.2) := by
  induction cells generalizing start skip with
  | nil => rfl
  | cons cell rest ih =>
    have later : ∀ c cell, rest[c]? = some cell → cell.width = 2 → cell.spacer = false →
        ∃ half, rest[c + 1]? = some half ∧ half.spacer = true := fun c => wide (c + 1)
    rw [List.zipIdx_cons, List.flatMap_cons]
    cases skip with
    | true =>
      rw [if_pos (first rfl cell rfl), List.nil_append]
      exact ih later (by nofun) (start + 1)
    | false =>
      rw [lineTextAndMap]
      split_ifs with half
      · exact ih later (by nofun) (start + 1)
      · rw [cell.text_eq, ih later fun second next found => ?_]
        obtain ⟨half', there, spacer⟩ := wide 0 cell rfl (of_decide_eq_true second) (by simpa using half)
        obtain rfl := Option.some.inj (found.symm.trans there)
        exact spacer

theorem chars_eq (paired : WidePaired row.cells) : lineTextAndMap row.cells 0 false = row.chars :=
  lineTextAndMap_eq (fun _ _ => paired.spacer) (by nofun) 0

theorem mem_chars {c : Nat} {cell : Cell} (here : row.cells[c]? = some cell) (plain : cell.spacer = false) :
    (cell.glyph, c) ∈ row.chars := by
  refine List.mem_flatMap.mpr ⟨(cell, c), List.mem_zipIdx_iff_getElem?.mpr here, ?_⟩
  rw [if_neg (by simp [plain])]
  exact List.mem_cons_self

theorem getElem_window {α : Type} {l : List α} {p n i : Nat} {x : α} (inside : p ≤ i) (before : i < p + n)
    (here : l[i]? = some x) : x ∈ (l.drop p).take n := by
  refine List.mem_of_getElem? (i := i - p) ?_
  rw [List.getElem?_take_of_lt (by omega), List.getElem?_drop, Nat.add_sub_of_le inside, here]

theorem getElem_of_window {α : Type} {l : List α} {p n : Nat} {x : α} (member : x ∈ (l.drop p).take n) :
    ∃ i, p ≤ i ∧ i < p + n ∧ l[i]? = some x := by
  obtain ⟨i, here⟩ := List.mem_iff_getElem?.mp member
  have short : i < n := by
    by_contra long
    rw [List.getElem?_eq_none (by rw [List.length_take]; omega)] at here
    cases here
  rw [List.getElem?_take_of_lt short, List.getElem?_drop] at here
  exact ⟨p + i, Nat.le_add_right _ _, by omega, here⟩

theorem chars_ascend (paired : WidePaired row.cells) {i j : Nat} {x y : Char × Nat} (first : row.chars[i]? = some x)
    (second : row.chars[j]? = some y) (le : i ≤ j) : x.2 ≤ y.2 := by
  rcases Nat.lt_or_eq_of_le le with less | rfl
  · obtain ⟨boundFirst, rfl⟩ := List.getElem?_eq_some_iff.mp first
    obtain ⟨boundSecond, rfl⟩ := List.getElem?_eq_some_iff.mp second
    have ascends := lineTextAndMap_ascends row.cells 0 false
    rw [chars_eq paired] at ascends
    exact List.pairwise_iff_getElem.mp ascends i j boundFirst boundSecond less
  · rw [Option.some.inj (first.symm.trans second)]

theorem cell_of_chars (paired : WidePaired row.cells) {i : Nat} {x : Char × Nat} (here : row.chars[i]? = some x) :
    ∃ cell, row.cells[x.2]? = some cell ∧ cell.spacer = false := by
  have member := List.mem_of_getElem? here
  rw [← chars_eq paired] at member
  obtain ⟨c, cell, place, found, plain⟩ := @mem_lineTextAndMap _ _ _ x.1 x.2 member
  rw [Nat.zero_add] at place
  exact ⟨cell, place ▸ found, plain⟩

/-- The columns from the first to the last character of a stretch are those of its characters. -/
theorem columns_iff (full : FullRow width row.cells) {p n : Nat} {x y : Char × Nat} {last : Cell}
    (first : row.chars[p]? = some x) (second : row.chars[p + n]? = some y) (final : row.cells[y.2]? = some last) (c : Nat) :
    x.2 ≤ c ∧ c ≤ y.2 + (if last.width = 0 then 1 else last.width) - 1 ↔
      ∃ z ∈ (row.chars.drop p).take (n + 1), ∃ cell, row.cells[z.2]? = some cell ∧
        (c = z.2 ∨ cell.width = 2 ∧ c = z.2 + 1) := by
  have narrow := full.narrow last (List.mem_of_getElem? final)
  obtain ⟨lead, there, plainFirst⟩ := cell_of_chars full.paired first
  obtain ⟨last', there', plainLast⟩ := cell_of_chars full.paired second
  obtain rfl := Option.some.inj (there'.symm.trans final)
  -- The character of a cell between the ends is one of the stretch.
  have between {d : Nat} {cell : Cell} (here : row.cells[d]? = some cell) (plain : cell.spacer = false) (low : x.2 ≤ d)
      (high : d ≤ y.2) : ∃ z ∈ (row.chars.drop p).take (n + 1), z.2 = d := by
    rcases Nat.lt_or_eq_of_le low with low | rfl
    · rcases Nat.lt_or_eq_of_le high with high | rfl
      · obtain ⟨i, found⟩ := List.mem_iff_getElem?.mp (mem_chars here plain)
        refine ⟨_, getElem_window ?_ ?_ found, rfl⟩
        · by_contra less
          exact absurd (chars_ascend full.paired found first (by omega)) (by dsimp only; omega)
        · by_contra more
          exact absurd (chars_ascend full.paired second found (by omega)) (by dsimp only; omega)
      · exact ⟨y, getElem_window (Nat.le_add_right _ _) (by omega) second, rfl⟩
    · exact ⟨x, getElem_window (Nat.le_refl _) (by omega) first, rfl⟩
  constructor
  · rintro ⟨low, high⟩
    have ends : x.2 ≤ y.2 := chars_ascend full.paired first second (Nat.le_add_right _ _)
    have inside : c < row.cells.length := by
      rcases Nat.lt_or_ge y.2 c with beyond | within
      · have wide : last'.width = 2 := by
          split_ifs at high <;> omega
        obtain ⟨half, next, -⟩ := full.paired.spacer final wide plainLast
        have bound := (List.getElem?_eq_some_iff.mp next).1
        split_ifs at high <;> omega
      · have bound := (List.getElem?_eq_some_iff.mp final).1
        omega
    have here := List.getElem?_eq_getElem inside
    cases spacer : row.cells[c].spacer with
    | true =>
      -- A second half is of the cell on its left.
      obtain ⟨b, lead', rfl, left, wide, plain⟩ := full.paired.lead here spacer
      have apart : x.2 ≠ b + 1 := by
        intro same
        rw [same, here] at there
        rw [Option.some.inj there, plainFirst] at spacer
        cases spacer
      obtain ⟨z, member, place⟩ := between left plain (by omega) (by split_ifs at high <;> omega)
      exact ⟨z, member, lead', place ▸ left, .inr ⟨wide, by omega⟩⟩
    | false =>
      have within : c ≤ y.2 := by
        by_contra beyond
        have wide : last'.width = 2 := by
          split_ifs at high <;> omega
        obtain ⟨half, next, second⟩ := full.paired.spacer final wide plainLast
        have same : c = y.2 + 1 := by
          split_ifs at high <;> omega
        rw [← same, here] at next
        rw [Option.some.inj next, second] at spacer
        cases spacer
      obtain ⟨z, member, place⟩ := between here spacer low within
      exact ⟨z, member, _, by rw [place]; exact here, .inl place.symm⟩
  · rintro ⟨z, member, cell, here, column⟩
    obtain ⟨i, after, before, found⟩ := getElem_of_window member
    have low := chars_ascend full.paired first found after
    have high := chars_ascend full.paired found second (by omega)
    rcases column with rfl | ⟨wide, rfl⟩
    · exact ⟨low, by split_ifs <;> omega⟩
    · rcases Nat.lt_or_eq_of_le high with less | same
      · exact ⟨by omega, by split_ifs <;> omega⟩
      · rw [same] at here
        obtain rfl := Option.some.inj (here.symm.trans final)
        rw [if_neg (by omega)]
        omega

theorem matchAt_marks (full : FullRow width row.cells) {p n : Nat} (inside : p + (n + 1) ≤ row.chars.length) :
    ∃ m, matchAt row.index row.lineId row.cells (n + 1) p = some m ∧ m.Marks row p (n + 1) := by
  obtain ⟨x, first⟩ : ∃ x, row.chars[p]? = some x := ⟨_, List.getElem?_eq_getElem (by omega)⟩
  obtain ⟨y, second⟩ : ∃ y, row.chars[p + n]? = some y := ⟨_, List.getElem?_eq_getElem (by omega)⟩
  obtain ⟨last, final, -⟩ := cell_of_chars full.paired second
  unfold matchAt
  dsimp only
  rw [chars_eq full.paired, show p + (n + 1) - 1 = p + n from rfl, first, second]
  refine ⟨_, rfl, rfl, rfl, ?_, fun c => ?_⟩
  · rw [List.map_take, List.map_drop]
  · dsimp only
    rw [final, Option.elim_some]
    exact columns_iff full first second final c

theorem Greedy.occurs {occurs : Nat → Prop} {length start : Nat} {places : List Nat} (greedy : Greedy occurs length start places) :
    ∀ p ∈ places, occurs p := by
  induction greedy with
  | done => exact nofun
  | next _ here _ _ ih => exact List.forall_mem_cons.mpr ⟨here, ih⟩

theorem Occurs.inside {hay : Text} {p : Nat} (occurs : Occurs caseSensitive pattern hay p) :
    ∃ n, pattern.length = n + 1 ∧ p + (n + 1) ≤ hay.length := by
  have filled := List.length_pos_of_ne_nil occurs.1
  have length := congrArg List.length occurs.2
  rw [length_folded, length_folded, List.length_take, List.length_drop] at length
  exact ⟨pattern.length - 1, by omega, by omega⟩

theorem filterMap_take {α β : Type} {f : α → Option β} {R : α → β → Prop} {l : List α}
    (each : ∀ a ∈ l, ∃ b, f a = some b ∧ R a b) :
    ∃ found, List.Forall₂ R l found ∧ ∀ k, (l.take k).filterMap f = found.take k := by
  induction l with
  | nil => exact ⟨[], .nil, fun k => by rw [List.take_nil, List.take_nil]; rfl⟩
  | cons a l ih =>
    obtain ⟨⟨b, value, related⟩, later⟩ := List.forall_mem_cons.mp each
    obtain ⟨found, all, takes⟩ := ih later
    refine ⟨b :: found, .cons related all, fun k => ?_⟩
    cases k with
    | zero => rfl
    | succ k => rw [List.take_succ_cons, List.filterMap_cons_some value, takes, List.take_succ_cons]

theorem rowMatches_scans (filled : pattern ≠ []) (full : FullRow width row.cells) :
    ∃ found, Scans caseSensitive pattern row found ∧
      rowMatches pattern caseSensitive row.index row.lineId row.cells = found.take SEARCH_MAX_RESULTS := by
  obtain ⟨places, greedy, all⟩ := @findAllOccurrences_greedy pattern caseSensitive filled (row.chars.map (·.1))
  obtain ⟨found, marks, takes⟩ := @filterMap_take _ _ (matchAt row.index row.lineId row.cells pattern.length)
    (fun p m => m.Marks row p pattern.length) places fun p member => by
      obtain ⟨n, length, inside⟩ := (greedy.occurs p member).inside
      rw [List.length_map] at inside
      rw [length]
      exact matchAt_marks full inside
  refine ⟨found, ⟨places, greedy, marks⟩, ?_⟩
  rw [rowMatches, chars_eq full.paired, all, takes]

theorem flatMap_take {α β : Type} {R : α → List β → Prop} {g : α → List β} {cap : Nat} {rows : List α}
    (each : ∀ a ∈ rows, ∃ found, R a found ∧ g a = found.take cap) :
    ∃ found, List.Forall₂ R rows found ∧ ∀ k ≤ cap, (rows.flatMap g).take k = found.flatten.take k := by
  induction rows with
  | nil => exact ⟨[], .nil, fun _ _ => rfl⟩
  | cons a rows ih =>
    obtain ⟨⟨here, related, first⟩, later⟩ := List.forall_mem_cons.mp each
    obtain ⟨found, all, takes⟩ := ih later
    refine ⟨here :: found, .cons related all, fun k room => ?_⟩
    rw [List.flatMap_cons, List.flatten_cons, List.take_append, List.take_append, first, List.take_take,
      Nat.min_eq_left room, takes _ (by omega), List.length_take]
    rcases Nat.le_total here.length cap with short | long
    · rw [Nat.min_eq_right short]
    · rw [Nat.min_eq_left long, Nat.sub_eq_zero_of_le room, Nat.sub_eq_zero_of_le (room.trans long)]

end

namespace State

variable {width height : Nat} {s : State width height}

theorem Full.bufferRows (full : s.Full) : ∀ row ∈ s.bufferRows, FullRow width row.cells := by
  intro row member
  rcases List.mem_append.mp member with inHistory | inScreen
  · obtain ⟨idx, _, found⟩ := List.mem_filterMap.mp inHistory
    obtain ⟨line, here, rfl⟩ := Option.map_eq_some_iff.mp found
    exact full.history line (List.mem_of_getElem? here)
  · obtain ⟨r, _, rfl⟩ := List.mem_map.mp inScreen
    exact full.grids.active r

theorem search_eq (pattern : Text) (options : SearchOptions) (filled : truncatePattern pattern ≠ []) :
    s.search pattern options = (s.bufferRows.flatMap fun row => rowMatches (truncatePattern pattern) options.caseSensitive
      row.index row.lineId row.cells).take (min options.maxResults SEARCH_MAX_RESULTS) := by
  unfold State.search State.bufferRows
  dsimp only
  rw [if_neg filled, List.flatMap_append, List.flatMap_map, List.filterMap_eq_flatMap_toList, List.flatMap_assoc]
  congr 3
  funext idx
  cases s.scrollbackLine idx with
  | none => rfl
  | some line => exact (List.append_nil _).symm

theorem Full.finds (full : s.Full) (pattern : Text) (options : SearchOptions) :
    s.Finds pattern options (s.search pattern options) := by
  have room := Nat.min_le_right options.maxResults SEARCH_MAX_RESULTS
  by_cases empty : truncatePattern pattern = []
  · obtain ⟨found, all, takes⟩ := @flatMap_take _ _ (Scans options.caseSensitive (truncatePattern pattern)) (fun _ => [])
      SEARCH_MAX_RESULTS s.bufferRows fun row _ => ⟨[], ⟨[], .done fun _ _ here => here.1 empty, .nil⟩, rfl⟩
    refine ⟨found, all, ?_⟩
    rw [← takes _ room, List.flatMap_eq_nil_iff.mpr fun _ _ => rfl, List.take_nil]
    exact if_pos empty
  · obtain ⟨found, all, takes⟩ := @flatMap_take _ _ (Scans options.caseSensitive (truncatePattern pattern)) _
      SEARCH_MAX_RESULTS s.bufferRows fun row member => rowMatches_scans empty (full.bufferRows row member)
    exact ⟨found, all, by rw [← takes _ room, search_eq pattern options empty]⟩

/-- Where no step of a run tears a wide cell, a search finds the matches of the scans of all rows. -/
theorem search_scans (full : s.Full) {acts : List (Action width height)} (writes : ∀ act ∈ acts, act.Full) (pattern : Text)
    (options : SearchOptions) :
    (acts.foldl State.perform s).Finds pattern options ((acts.foldl State.perform s).search pattern options) :=
  (full.run writes).finds pattern options

def threeColumns : State 3 1 where
  main := fun _ => Row.blank 3
  alt := fun _ => Row.blank 3
  altScreen := false
  scrollback := Scrollback.withMaxLines 0
  scrollRegionTop := 0
  scrollRegionBottom := 0

theorem full_threeColumns : threeColumns.Full := ⟨⟨fun _ => FullRow.blank 3, fun _ => FullRow.blank 3⟩, nofun⟩

def wideRow : Row 3 := ⟨#v[⟨'a', 2, false, []⟩, ⟨' ', 2, true, []⟩, Cell.erased], false⟩

theorem search_scans_wide : (threeColumns.perform (.write 0 wideRow)).Finds ['a', ' '] ⟨true, 10⟩
    ((threeColumns.perform (.write 0 wideRow)).search ['a', ' '] ⟨true, 10⟩) := by
  have whole : (Action.write 0 wideRow : Action 3 1).Full := ⟨⟨rfl, by decide, by decide⟩, trivial⟩
  exact search_scans full_threeColumns (List.forall_mem_singleton.mpr whole) ['a', ' '] ⟨true, 10⟩

def tornRow : Row 3 := ⟨#v[Cell.erased, ⟨' ', 2, true, []⟩, Cell.erased], false⟩

/-- The second half stays in the columns of a match that has no character there. -/
theorem search_torn : ¬ (threeColumns.perform (.write 0 tornRow)).Finds [' ', ' '] ⟨true, 10⟩
    ((threeColumns.perform (.write 0 tornRow)).search [' ', ' '] ⟨true, 10⟩) := by
  rintro ⟨found, all, answer⟩
  have rows : (threeColumns.perform (.write 0 tornRow)).bufferRows = [⟨0, none, tornRow.cells.toList⟩] := rfl
  have one : (threeColumns.perform (.write 0 tornRow)).search [' ', ' '] ⟨true, 10⟩ = [⟨0, none, 0, 2, [' ', ' ']⟩] := by
    decide
  rw [rows] at all
  obtain ⟨ms, _, ⟨places, greedy, marks⟩, none, rfl⟩ := List.forall₂_cons_left_iff.mp all
  cases none
  rw [one, List.flatten_singleton] at answer
  cases marks with
  | nil => cases answer
  | @cons p m _ _ here later =>
    obtain ⟨rfl, -⟩ := List.cons.inj answer
    obtain ⟨x, member, cell, found, column⟩ := (here.columns 1).mp ⟨by decide, by decide⟩
    have chars : x ∈ [(' ', 0), (' ', 2)] := List.mem_of_mem_drop (List.mem_of_mem_take member)
    rcases List.mem_pair.mp chars with rfl | rfl
    all_goals
      cases found
      exact absurd column (by decide)

end State

end Bitty.Term
