import Bitty.Library.Stretch
import Bitty.Ui.Selection

/-! The word around a position of the screen. -/

namespace Bitty.Ui

open Bitty.Term Stretch

-- Which characters are letters or digits is left to the character tables.
variable (isAlphanumeric : Char → Bool) (snap : Snapshot)

def isWordChar (ch : Char) : Bool := isAlphanumeric ch || ch = '_'

def endsWord (cell : Cell) : Bool := cell.isBlank || !isWordChar isAlphanumeric cell.glyph || cell.spacer

def wordLeft (row : Nat) : Nat → Nat
  | 0 => 0
  | l + 1 =>
    let col := (snapToLeading snap ⟨row, l⟩).col
    match cellAt snap ⟨row, col⟩ with
    | none => l + 1
    | some c => if endsWord isAlphanumeric c then l + 1 else wordLeft row col
termination_by l => l
decreasing_by exact Nat.lt_succ_of_le (snapToLeading_col_le snap ⟨row, l⟩)

def isWideLead (cell : Option Cell) : Bool := cell.elim false fun cur => cur.width = 2 && !cur.spacer

/-- The right scan from a column; it jumps over the second half of a wide cell. -/
def wordRight (row r : Nat) : Nat :=
  if isWideLead (cellAt snap ⟨row, r⟩) && r + 1 < snap.width then
    if _ : r + 2 < snap.width then
      match cellAt snap ⟨row, r + 2⟩ with
      | none => r
      | some after => if endsWord isAlphanumeric after then r else wordRight row (r + 2)
    else r
  else if _ : r + 1 < snap.width then
    if (snapToLeading snap ⟨row, r + 1⟩).col ≠ r + 1 then r
    else
      match cellAt snap ⟨row, r + 1⟩ with
      | none => r
      | some c => if endsWord isAlphanumeric c then r else wordRight row (r + 1)
  else r
termination_by snap.width - r

def wordAt (pos : CellPos) : SelectionRange :=
  let origin := snapToLeading snap (clampPos snap pos)
  if snap.height ≤ origin.row then .new origin origin
  else
    match cellAt snap origin with
    | none => .new origin origin
    | some cell =>
      if cell.isBlank || !isWordChar isAlphanumeric cell.glyph then .new origin origin
      else
        .new ⟨origin.row, wordLeft isAlphanumeric snap origin.row origin.col⟩
          ⟨origin.row, wordRight isAlphanumeric snap origin.row origin.col⟩

/-- Whether the cell at a column, or the one it is the second half of, belongs to a word. -/
def InWord (row col : Nat) : Prop :=
  Inside snap ⟨row, col⟩ ∧ ∃ cell, cellAt snap (snapToLeading snap ⟨row, col⟩) = some cell ∧
    endsWord isAlphanumeric cell = false

variable {isAlphanumeric snap} {row o l : Nat}

theorem inWord_of_leading {cell : Cell} (found : cellAt snap ⟨row, o⟩ = some cell)
    (plain : cell.spacer = false) : InWord isAlphanumeric snap row o ↔ endsWord isAlphanumeric cell = false := by
  have leading : Leading snap ⟨row, o⟩ := ⟨cell, found, plain⟩
  rw [InWord, leading.snapToLeading_eq]
  constructor
  · rintro ⟨_, other, same, word⟩
    rw [found] at same
    exact Option.some.inj same ▸ word
  · exact fun word => ⟨leading.inside, cell, found, word⟩

theorem inWord_of_spacer (paired : snap.Paired) {half : Cell} (found : cellAt snap ⟨row, o + 1⟩ = some half)
    (second : half.spacer = true) (inside : Inside snap ⟨row, o + 1⟩) :
    InWord isAlphanumeric snap row (o + 1) ↔ InWord isAlphanumeric snap row o := by
  obtain ⟨b, first, next, there, wide, plain⟩ := lead_of_spacer paired found second inside
  obtain rfl : o = b := by omega
  have leading : Leading snap ⟨row, o⟩ := ⟨first, there, plain⟩
  have moved : snapToLeading snap ⟨row, o + 1⟩ = ⟨row, o⟩ := by
    rw [inside.snapToLeading_eq found, second]
    simp
  rw [InWord, InWord, moved, leading.snapToLeading_eq]
  exact ⟨fun h => ⟨leading.inside, h.2⟩, fun h => ⟨inside, h.2⟩⟩

/-- The left scan stops on a first half; what it passed is all of words, and what it stopped at is not. -/
theorem wordLeft_spec (paired : snap.Paired) (leading : Leading snap ⟨row, l⟩) (le : l ≤ o)
    (passed : ∀ c, l ≤ c → c ≤ o → InWord isAlphanumeric snap row c) :
    let a := wordLeft isAlphanumeric snap row l
    a ≤ l ∧ Leading snap ⟨row, a⟩ ∧ (∀ c, a ≤ c → c ≤ o → InWord isAlphanumeric snap row c) ∧
      (a = 0 ∨ ∃ b, a = b + 1 ∧ ¬InWord isAlphanumeric snap row b) := by
  induction l using Nat.strong_induction_on with
  | _ l ih =>
    match l with
    | 0 =>
      unfold wordLeft
      exact ⟨Nat.le_refl 0, leading, passed, .inl rfl⟩
    | l + 1 =>
      have inRow := leading.inside
      have before : Inside snap ⟨row, l⟩ := ⟨inRow.row, Nat.lt_of_succ_lt inRow.col⟩
      obtain ⟨there, sameRow, moved⟩ := before.snapped paired
      have at_eq : snapToLeading snap ⟨row, l⟩ = ⟨row, (snapToLeading snap ⟨row, l⟩).col⟩ :=
        congrArg (fun r => (⟨r, (snapToLeading snap ⟨row, l⟩).col⟩ : CellPos)) sameRow
      rw [at_eq] at there
      obtain ⟨cell, found, plain⟩ := there
      unfold wordLeft
      simp only [found]
      split_ifs with ends
      · refine ⟨Nat.le_refl _, leading, passed, .inr ⟨l, rfl, ?_⟩⟩
        rintro ⟨_, other, same, word⟩
        rw [at_eq, found] at same
        rw [← Option.some.inj same, ends] at word
        cases word
      · have word : InWord isAlphanumeric snap row l := by
          refine ⟨before, cell, ?_, by simpa using ends⟩
          rw [at_eq]
          exact found
        have first := (inWord_of_leading found plain).mpr (by simpa using ends)
        have short := snapToLeading_col_le snap ⟨row, l⟩
        simp only at short moved
        obtain ⟨below, edge, all, stop⟩ :=
          ih (snapToLeading snap ⟨row, l⟩).col (by omega) ⟨cell, found, plain⟩ (by omega) fun c above under => by
            rcases Nat.lt_or_ge l c with later | sooner
            · exact passed c later under
            · rcases Nat.lt_or_ge c l with earlier | same
              · obtain rfl : c = (snapToLeading snap ⟨row, l⟩).col := by omega
                exact first
              · obtain rfl : c = l := by omega
                exact word
        exact ⟨by omega, edge, all, stop⟩

theorem isWideLead_iff {cell : Option Cell} :
    isWideLead cell = true ↔ ∃ cur, cell = some cur ∧ cur.width = 2 ∧ cur.spacer = false := by
  cases cell with
  | none => simp [isWideLead]
  | some cur => simp [isWideLead]

/-- The right scan stops on a first half; it passed only words, and no later first half is reached without a gap. -/
theorem wordRight_spec (paired : snap.Paired) {r : Nat} (word : InWord isAlphanumeric snap row r)
    (leading : Leading snap ⟨row, r⟩) :
    let b := wordRight isAlphanumeric snap row r
    r ≤ b ∧ Leading snap ⟨row, b⟩ ∧ (∀ c, r ≤ c → c ≤ b → InWord isAlphanumeric snap row c) ∧
      ∀ d, b < d → Leading snap ⟨row, d⟩ → ∃ e, b < e ∧ e ≤ d ∧ ¬InWord isAlphanumeric snap row e := by
  have alone : ∀ c, r ≤ c → c ≤ r → InWord isAlphanumeric snap row c := by
    intro c above below
    rw [Nat.le_antisymm below above]
    exact word
  unfold wordRight
  split_ifs with jump after next
  · -- The cell is wide: its second half belongs to the same word, so the next cell decides.
    obtain ⟨wide, _⟩ := Bool.and_eq_true_iff.mp jump
    obtain ⟨cur, found, two, plain⟩ := isWideLead_iff.mp wide
    obtain ⟨half, second, isHalf⟩ := spacer_of_lead paired found two plain
    have inHalf : Inside snap ⟨row, r + 1⟩ := ⟨leading.inside.row, by simp only; omega⟩
    have inNext : Inside snap ⟨row, r + 2⟩ := ⟨leading.inside.row, after⟩
    have wordHalf := (inWord_of_spacer paired second isHalf inHalf).mpr word
    have further : ∀ d, r < d → Leading snap ⟨row, d⟩ → r + 2 ≤ d := by
      rintro d later ⟨cell, there, first⟩
      by_contra sooner
      obtain rfl : d = r + 1 := by omega
      rw [second, Option.some.injEq] at there
      rw [← there, isHalf] at first
      cases first
    obtain ⟨next, atNext⟩ := inNext.cellAt_isSome
    have firstNext : next.spacer = false := by
      by_contra isSpacer
      obtain ⟨b, first, eq, there, _, plain'⟩ := lead_of_spacer paired atNext (by simpa using isSpacer) inNext
      obtain rfl : b = r + 1 := by omega
      rw [second, Option.some.injEq] at there
      rw [← there, isHalf] at plain'
      cases plain'
    simp only [atNext]
    split_ifs with ends
    · refine ⟨Nat.le_refl r, leading, alone, fun d later edge => ⟨r + 2, by omega, further d later edge, ?_⟩⟩
      rw [inWord_of_leading atNext firstNext, ends]
      exact Bool.noConfusion
    · have wordNext := (inWord_of_leading atNext firstNext).mpr (by simpa using ends)
      obtain ⟨above, edge, all, stop⟩ := wordRight_spec paired wordNext ⟨next, atNext, firstNext⟩
      refine ⟨by omega, edge, fun c from_r until_b => ?_, stop⟩
      rcases Nat.lt_or_ge c (r + 2) with early | late
      · rcases Nat.lt_or_ge c (r + 1) with here | there
        · exact alone c from_r (by omega)
        · obtain rfl : c = r + 1 := by omega
          exact wordHalf
      · exact all c late until_b
  · -- The wide cell is the last of its row.
    obtain ⟨wide, inRow⟩ := Bool.and_eq_true_iff.mp jump
    obtain ⟨cur, found, two, plain⟩ := isWideLead_iff.mp wide
    obtain ⟨half, second, isHalf⟩ := spacer_of_lead paired found two plain
    refine ⟨Nat.le_refl r, leading, alone, fun d later edge => ?_⟩
    have last := edge.inside.col
    simp only at last
    obtain rfl : d = r + 1 := by omega
    obtain ⟨cell, there, first⟩ := edge
    rw [second, Option.some.injEq] at there
    rw [← there, isHalf] at first
    cases first
  · -- The next column is a second half, of a first half that is not there.
    rename_i moved
    have inNext : Inside snap ⟨row, r + 1⟩ := ⟨leading.inside.row, next⟩
    obtain ⟨cell, found⟩ := inNext.cellAt_isSome
    have isSpacer : cell.spacer = true := by
      by_contra plain
      rw [Leading.snapToLeading_eq ⟨cell, found, by simpa using plain⟩] at moved
      exact moved rfl
    obtain ⟨b, first, eq, there, two, plain⟩ := lead_of_spacer paired found isSpacer inNext
    obtain rfl : r = b := by omega
    refine absurd ?_ jump
    rw [Bool.and_eq_true_iff]
    exact ⟨isWideLead_iff.mpr ⟨first, there, two, plain⟩, by simpa using next⟩
  · -- The next column is a cell of its own.
    rename_i still
    have inNext : Inside snap ⟨row, r + 1⟩ := ⟨leading.inside.row, next⟩
    obtain ⟨cell, found⟩ := inNext.cellAt_isSome
    have plain : cell.spacer = false := by
      by_contra isSpacer
      rw [inNext.snapToLeading_eq found] at still
      simp [Bool.eq_true_of_not_eq_false isSpacer] at still
    simp only [found]
    split_ifs with ends
    · refine ⟨Nat.le_refl r, leading, alone, fun d later _ => ⟨r + 1, by omega, later, ?_⟩⟩
      rw [inWord_of_leading found plain, ends]
      exact Bool.noConfusion
    · have wordNext := (inWord_of_leading found plain).mpr (by simpa using ends)
      obtain ⟨above, edge, all, stop⟩ := wordRight_spec paired wordNext ⟨cell, found, plain⟩
      refine ⟨by omega, edge, fun c from_r until_b => ?_, stop⟩
      rcases Nat.lt_or_ge c (r + 1) with here | there
      · exact alone c from_r (by omega)
      · exact all c there until_b
  · refine ⟨Nat.le_refl r, leading, alone, fun d later edge => ?_⟩
    have last := edge.inside.col
    simp only at last
    omega
termination_by snap.width - r

variable {p q : CellPos}

theorem wordAt_of_delimiter (paired : snap.Paired) (inside : Inside snap p)
    (outside : ¬InWord isAlphanumeric snap p.row (snapToLeading snap p).col) :
    wordAt isAlphanumeric snap p = ⟨snapToLeading snap p, snapToLeading snap p⟩ := by
  obtain ⟨leading, sameRow, _⟩ := inside.snapped paired
  obtain ⟨cell, found, plain⟩ := leading
  have ends : (cell.isBlank || !isWordChar isAlphanumeric cell.glyph) = true := by
    have there : cellAt snap ⟨(snapToLeading snap p).row, (snapToLeading snap p).col⟩ = some cell := found
    rw [← sameRow, inWord_of_leading there plain, endsWord, plain, Bool.or_false] at outside
    exact Bool.eq_true_of_not_eq_false outside
  have single : SelectionRange.new (snapToLeading snap p) (snapToLeading snap p) =
      ⟨snapToLeading snap p, snapToLeading snap p⟩ := SelectionRange.new_of_le (Nat.le_refl _)
  unfold wordAt
  simp only [inside.clampPos_eq, found, ends, if_true, single, ite_self]

theorem wordAt_of_inWord (paired : snap.Paired) (inside : Inside snap p)
    (word : InWord isAlphanumeric snap p.row (snapToLeading snap p).col) :
    ∃ a b, wordAt isAlphanumeric snap p = ⟨⟨p.row, a⟩, ⟨p.row, b⟩⟩ ∧
      Longest (InWord isAlphanumeric snap p.row) (fun c => Leading snap ⟨p.row, c⟩) (snapToLeading snap p).col a b := by
  obtain ⟨leading, sameRow, _⟩ := inside.snapped paired
  obtain ⟨cell, found, plain⟩ := leading
  have passes : (cell.isBlank || !isWordChar isAlphanumeric cell.glyph) = false := by
    have there : cellAt snap ⟨(snapToLeading snap p).row, (snapToLeading snap p).col⟩ = some cell := found
    rw [← sameRow, inWord_of_leading there plain, endsWord, plain, Bool.or_false] at word
    exact word
  have inRow : ¬snap.height ≤ p.row := Nat.not_le_of_lt inside.row
  have start : Leading snap ⟨p.row, (snapToLeading snap p).col⟩ := by
    rw [← sameRow]
    exact ⟨cell, found, plain⟩
  have alone : ∀ c, (snapToLeading snap p).col ≤ c → c ≤ (snapToLeading snap p).col →
      InWord isAlphanumeric snap p.row c := by
    intro c above below
    rw [Nat.le_antisymm below above]
    exact word
  obtain ⟨leftLe, leftEdge, leftAll, leftStop⟩ := wordLeft_spec paired start (Nat.le_refl _) alone
  obtain ⟨rightGe, rightEdge, rightAll, rightStop⟩ := wordRight_spec paired word start
  refine ⟨wordLeft isAlphanumeric snap p.row (snapToLeading snap p).col,
    wordRight isAlphanumeric snap p.row (snapToLeading snap p).col, ?_, ?_⟩
  · unfold wordAt
    simp only [inside.clampPos_eq, found, passes, Bool.false_eq_true, if_false, inRow, sameRow]
    exact SelectionRange.new_of_le (leftLe.trans rightGe)
  · refine Longest.of_blocked ⟨leftLe.trans rightGe, leftEdge, rightEdge, fun c above below => ?_⟩ leftLe rightGe ?_ ?_
    · rcases Nat.le_total c (snapToLeading snap p).col with left | right
      · exact leftAll c above left
      · exact rightAll c right below
    · intro d before _
      rcases leftStop with zero | ⟨e, next, outside⟩
      · omega
      · exact ⟨e, by omega, by omega, outside⟩
    · exact rightStop

theorem wordAt_congr (insideP : Inside snap p) (insideQ : Inside snap q)
    (same : snapToLeading snap q = snapToLeading snap p) : wordAt isAlphanumeric snap q = wordAt isAlphanumeric snap p := by
  unfold wordAt
  rw [insideP.clampPos_eq, insideQ.clampPos_eq, same]

theorem wordAt_of_covered (paired : snap.Paired) (insideP : Inside snap p) (insideQ : Inside snap q)
    (covered : (wordAt isAlphanumeric snap p).contains (snapToLeading snap q)) :
    wordAt isAlphanumeric snap q = wordAt isAlphanumeric snap p := by
  obtain ⟨leadingQ, rowQ, _⟩ := insideQ.snapped paired
  obtain ⟨leadingP, rowP, _⟩ := insideP.snapped paired
  by_cases word : InWord isAlphanumeric snap p.row (snapToLeading snap p).col
  · obtain ⟨a, b, at_p, longest⟩ := wordAt_of_inWord paired insideP word
    rw [at_p, SelectionRange.contains_row] at covered
    obtain ⟨sameRow, above, below⟩ := covered
    rw [rowQ] at sameRow
    have around := longest.of_mem above below
    have wordQ := longest.run.all _ above below
    rw [← sameRow] at wordQ around
    obtain ⟨a', b', at_q, longest'⟩ := wordAt_of_inWord paired insideQ wordQ
    obtain ⟨eqA, eqB⟩ := around.unique longest'
    rw [at_p, at_q, eqA, eqB, sameRow]
  · rw [wordAt_of_delimiter paired insideP word] at covered
    refine wordAt_congr insideP insideQ ?_
    obtain ⟨sameRow, above, below⟩ := SelectionRange.contains_row.mp covered
    exact CellPos.ext sameRow (Nat.le_antisymm below above)

theorem contains_snapToLeading (paired : snap.Paired) (inside : Inside snap q) {row a b : Nat}
    (edge : Leading snap ⟨row, a⟩) (covered : SelectionRange.contains ⟨⟨row, a⟩, ⟨row, b⟩⟩ q) :
    SelectionRange.contains ⟨⟨row, a⟩, ⟨row, b⟩⟩ (snapToLeading snap q) := by
  obtain ⟨_, sameRow, moved⟩ := inside.snapped paired
  rw [SelectionRange.contains_row] at covered ⊢
  obtain ⟨rfl, above, below⟩ := covered
  refine ⟨sameRow, ?_, by omega⟩
  rcases moved with same | ⟨next, half, found, second⟩
  · omega
  · by_contra short
    obtain rfl : a = q.col := by omega
    obtain ⟨cell, there, plain⟩ := edge
    rw [found, Option.some.injEq] at there
    rw [← there, second] at plain
    cases plain

theorem wordAt_partitions (isAlphanumeric : Char → Bool) {snap : Snapshot} (paired : snap.Paired) {p : CellPos}
    (inside : Inside snap p) :
    let word := wordAt isAlphanumeric snap p
    let origin := snapToLeading snap p
    word.start.row = p.row ∧ word.stop.row = p.row ∧ Leading snap word.start ∧ Leading snap word.stop ∧
      (InWord isAlphanumeric snap p.row origin.col →
        Longest (InWord isAlphanumeric snap p.row) (fun c => Leading snap ⟨p.row, c⟩) origin.col
          word.start.col word.stop.col) ∧
      (¬InWord isAlphanumeric snap p.row origin.col → word = ⟨origin, origin⟩) ∧
      (∀ q, Inside snap q → word.contains q ∨ word.contains (snapToLeading snap q) →
        wordAt isAlphanumeric snap q = word) ∧
      ∀ q, Inside snap q → wordAt isAlphanumeric snap q = word ∨
        ∀ pos, ¬(word.contains pos ∧ (wordAt isAlphanumeric snap q).contains pos) := by
  have shape : ∀ {q}, Inside snap q → ∃ a b, wordAt isAlphanumeric snap q = ⟨⟨q.row, a⟩, ⟨q.row, b⟩⟩ ∧
      Leading snap ⟨q.row, a⟩ ∧ Leading snap ⟨q.row, b⟩ := by
    intro q insideQ
    by_cases word : InWord isAlphanumeric snap q.row (snapToLeading snap q).col
    · obtain ⟨a, b, at_q, longest⟩ := wordAt_of_inWord paired insideQ word
      exact ⟨a, b, at_q, longest.run.left, longest.run.right⟩
    · obtain ⟨leading, sameRow, _⟩ := insideQ.snapped paired
      have at_q := wordAt_of_delimiter paired insideQ word
      refine ⟨(snapToLeading snap q).col, (snapToLeading snap q).col, ?_, ?_, ?_⟩
      · rw [at_q, ← sameRow]
      · rw [← sameRow]
        exact leading
      · rw [← sameRow]
        exact leading
  have closed : ∀ {p q}, Inside snap p → Inside snap q → (wordAt isAlphanumeric snap p).contains q →
      wordAt isAlphanumeric snap q = wordAt isAlphanumeric snap p := by
    intro p q insideP insideQ covered
    obtain ⟨a, b, at_p, edge, _⟩ := shape insideP
    refine wordAt_of_covered paired insideP insideQ ?_
    rw [at_p] at covered ⊢
    exact contains_snapToLeading paired insideQ edge covered
  obtain ⟨a, b, at_p, edgeA, edgeB⟩ := shape inside
  dsimp only
  refine ⟨by rw [at_p], by rw [at_p], by rw [at_p]; exact edgeA, by rw [at_p]; exact edgeB, fun word => ?_,
    wordAt_of_delimiter paired inside, fun q insideQ covered => ?_, fun q insideQ => ?_⟩
  · obtain ⟨a', b', at_p', longest⟩ := wordAt_of_inWord paired inside word
    rw [at_p']
    exact longest
  · rcases covered with raw | snapped
    · exact closed inside insideQ raw
    · exact wordAt_of_covered paired inside insideQ snapped
  · by_cases apart : ∀ pos, ¬((wordAt isAlphanumeric snap p).contains pos ∧ (wordAt isAlphanumeric snap q).contains pos)
    · exact .inr apart
    · push Not at apart
      obtain ⟨pos, inP, inQ⟩ := apart
      have insidePos : Inside snap pos := by
        rw [at_p, SelectionRange.contains_row] at inP
        have last := edgeB.inside
        exact ⟨by rw [inP.1]; exact last.row, Nat.lt_of_le_of_lt inP.2.2 last.col⟩
      exact .inl ((closed insideQ insidePos inQ).symm.trans (closed inside insidePos inP))

/-- One row: two words about a stop, the first of them a single wide cell. -/
def wideWord : Snapshot where
  width := 4
  height := 1
  cells := [⟨'中', 2, false, []⟩, ⟨' ', 2, true, []⟩, ⟨'.', 1, false, []⟩, ⟨'a', 1, false, []⟩]
  whole := rfl
  narrow := by decide
  low := by decide

theorem wordAt_partitions_wide :
    wideWord.Paired ∧ Inside wideWord ⟨0, 1⟩ ∧ InWord (fun ch => ch.isAlphanum || ch = '中') wideWord 0 0 ∧
      Longest (InWord (fun ch => ch.isAlphanum || ch = '中') wideWord 0) (fun c => Leading wideWord ⟨0, c⟩) 0
        (wordAt (fun ch => ch.isAlphanum || ch = '中') wideWord ⟨0, 1⟩).start.col
        (wordAt (fun ch => ch.isAlphanum || ch = '中') wideWord ⟨0, 1⟩).stop.col := by
  have paired : wideWord.Paired := by decide
  have inside : Inside wideWord ⟨0, 1⟩ := ⟨by decide, by decide⟩
  have word : InWord (fun ch => ch.isAlphanum || ch = '中') wideWord 0 0 :=
    ⟨⟨by decide, by decide⟩, ⟨'中', 2, false, []⟩, rfl, by decide⟩
  exact ⟨paired, inside, word, (wordAt_partitions (fun ch => ch.isAlphanum || ch = '中') paired inside).2.2.2.2.1 word⟩

end Bitty.Ui
