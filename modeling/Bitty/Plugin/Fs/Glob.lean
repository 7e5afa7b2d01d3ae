import Bitty.Plugin.Fs.Policy

/-! What the globs of a filesystem scope are to cover, and where they do. -/

namespace Bitty.Plugin.Fs

open Text

inductive Symbol
  | star
  | any
  | class (negated : Bool) (ranges : List (UInt8 × UInt8))
  | byte (b : UInt8)
  deriving DecidableEq

/-- The ranges of a class up to its closing bracket, with what follows it. A byte of its own is a range from it to it. -/
def ranges : List UInt8 → Option (List (UInt8 × UInt8) × List UInt8)
  | [] => none
  | b :: rest =>
    if b = byteOf ']' then some ([], rest)
    else
      match rest with
      | dash :: high :: others =>
        if dash = byteOf '-' ∧ high ≠ byteOf ']' then (ranges others).map fun r => ((b, high) :: r.1, r.2)
        else (ranges (dash :: high :: others)).map fun r => ((b, b) :: r.1, r.2)
      | others => (ranges others).map fun r => ((b, b) :: r.1, r.2)
termination_by bytes => bytes.length

theorem ranges_cons (b : UInt8) (rest : List UInt8) : ranges (b :: rest) =
    if b = byteOf ']' then some ([], rest)
    else
      match rest with
      | dash :: high :: others =>
        if dash = byteOf '-' ∧ high ≠ byteOf ']' then (ranges others).map fun r => ((b, high) :: r.1, r.2)
        else (ranges (dash :: high :: others)).map fun r => ((b, b) :: r.1, r.2)
      | others => (ranges others).map fun r => ((b, b) :: r.1, r.2) := by
  rw [ranges.eq_def]

theorem ranges_suffix {bytes rest : List UInt8} {members : List (UInt8 × UInt8)} (read : ranges bytes = some (members, rest)) :
    rest <:+ bytes := by
  fun_induction ranges bytes generalizing members with
  | case1 => cases read
  | case2 rest' =>
    cases read
    exact List.suffix_cons _ _
  | case3 b _ dash high others _ ih =>
    obtain ⟨r, found, same⟩ := Option.map_eq_some_iff.mp read
    cases same
    exact (ih found).trans (((List.suffix_cons _ _).trans (List.suffix_cons _ _)).trans (List.suffix_cons _ _))
  | case4 b _ dash high others _ ih =>
    obtain ⟨r, found, same⟩ := Option.map_eq_some_iff.mp read
    cases same
    exact (ih found).trans (List.suffix_cons _ _)
  | case5 b rest' _ _ ih =>
    obtain ⟨r, found, same⟩ := Option.map_eq_some_iff.mp read
    cases same
    exact (ih found).trans (List.suffix_cons _ _)

def negates (bytes : List UInt8) : Bool := bytes.head? = some (byteOf '^') ∨ bytes.head? = some (byteOf '!')

def readClass (bytes : List UInt8) : Option (Symbol × List UInt8) :=
  (ranges (if negates bytes then bytes.drop 1 else bytes)).bind fun r =>
    if r.1 = [] then none else some (.class (negates bytes) r.1, r.2)

theorem readClass_suffix {bytes rest : List UInt8} {symbol : Symbol} (read : readClass bytes = some (symbol, rest)) :
    rest <:+ bytes := by
  obtain ⟨r, found, kept⟩ := Option.bind_eq_some_iff.mp read
  split at kept
  next => cases kept
  next =>
    cases kept
    have within := ranges_suffix found
    split at within
    next => exact within.trans (List.drop_suffix _ _)
    next => exact within

/-- The symbols of a segment of a pattern. A bracket that opens no class is a byte like any other. -/
def symbols : List UInt8 → List Symbol
  | [] => []
  | b :: rest =>
    if b = byteOf '[' then
      match _read : readClass rest with
      | some (symbol, after) => symbol :: symbols after
      | none => .byte b :: symbols rest
    else (if b = byteOf '*' then .star else if b = byteOf '?' then .any else .byte b) :: symbols rest
termination_by bytes => bytes.length
decreasing_by
  · exact Nat.lt_succ_of_le (readClass_suffix _read).length_le
  · exact Nat.lt_succ_self _
  · exact Nat.lt_succ_self _

def inRange (byte : UInt8) (range : UInt8 × UInt8) : Bool := range.1 ≤ byte && byte ≤ range.2

def Symbol.Accepts (symbol : Symbol) (b : UInt8) : Prop :=
  match symbol with
  | .star => False
  | .any => True
  | .class negated ranges => ranges.any (inRange b) ≠ negated
  | .byte c => c = b

instance (symbol : Symbol) (b : UInt8) : Decidable (symbol.Accepts b) :=
  match symbol with
  | .star => inferInstanceAs (Decidable False)
  | .any => inferInstanceAs (Decidable True)
  | .class negated ranges => inferInstanceAs (Decidable (ranges.any (inRange b) ≠ negated))
  | .byte c => inferInstanceAs (Decidable (c = b))

def SegmentCovers (pattern segment : Text) : Prop :=
  Glob.Matches (· = Symbol.star) Symbol.Accepts (fun _ => False) (symbols (lowerBytes pattern)) (lowerBytes segment)

def Covers (pattern path : List Text) : Prop := Glob.Matches (· = ['*', '*']) SegmentCovers (fun _ => False) pattern path

def Symbol.AcceptsPlainly (symbol : Symbol) (b : UInt8) : Prop := symbol ≠ .byte (byteOf '[') ∧ symbol.Accepts b

/-- A match in which a star that stands at a star of the name takes just this one, and no bracket opens nothing. -/
def SegmentCoversPlainly (pattern segment : Text) : Prop :=
  Glob.Matches (· = Symbol.star) Symbol.AcceptsPlainly (· = byteOf '*') (symbols (lowerBytes pattern)) (lowerBytes segment)

def CoversPlainly (pattern path : List Text) : Prop :=
  Glob.Matches (· = ['*', '*']) SegmentCoversPlainly (fun _ => False) pattern path

theorem inRange_self (byte b : UInt8) : inRange byte (b, b) = decide (b = byte) := by
  rw [inRange, ← Bool.decide_and, decide_eq_decide]
  exact ⟨fun both => UInt8.le_antisymm both.1 both.2, fun same => same ▸ ⟨UInt8.le_refl _, UInt8.le_refl _⟩⟩

def classResult (byte : UInt8) (bytes : List UInt8) (matched consumedAny : Bool) (i : Nat) : Option (Bool × Nat) :=
  (ranges bytes).bind fun r =>
    if consumedAny = false ∧ r.1 = [] then none else some (matched || r.1.any (inRange byte), i + (bytes.length - r.2.length))

theorem classResult_step (byte : UInt8) {taken rest : List UInt8} {range : UInt8 × UInt8}
    (read : ranges (taken ++ rest) = (ranges rest).map fun r => (range :: r.1, r.2)) (matched consumedAny : Bool) (i : Nat) :
    classResult byte rest (matched || inRange byte range) true (i + taken.length) =
      classResult byte (taken ++ rest) matched consumedAny i := by
  unfold classResult
  rw [read]
  cases found : ranges rest with
  | none => rfl
  | some r =>
    have shorter := (ranges_suffix found).length_le
    have reached : i + taken.length + (rest.length - r.2.length) = i + ((taken ++ rest).length - r.2.length) := by
      rw [List.length_append]
      omega
    simp [reached, Bool.or_assoc]

theorem classFrom_eq (byte : UInt8) (bytes : List UInt8) (matched consumedAny : Bool) (i : Nat) :
    classFrom byte bytes matched consumedAny i = classResult byte bytes matched consumedAny i := by
  fun_induction classFrom byte bytes matched consumedAny i with
  | case1 => simp [classResult, ranges]
  | case2 rest matched i => simp [classResult, ranges_cons]
  | case3 rest matched consumedAny i closed => simp [classResult, ranges_cons, closed]
  | case4 b matched consumedAny i inside dash high others range ih =>
    have read : ranges ([b, dash, high] ++ others) = (ranges others).map fun r => ((b, high) :: r.1, r.2) := by
      rw [List.cons_append, ranges_cons, if_neg inside]
      exact if_pos range
    exact ih.trans (classResult_step byte read matched consumedAny i)
  | case5 b matched consumedAny i inside dash high others single ih =>
    have read : ranges ([b] ++ dash :: high :: others) = (ranges (dash :: high :: others)).map fun r => ((b, b) :: r.1, r.2) := by
      rw [List.cons_append, ranges_cons, if_neg inside]
      exact if_neg single
    rw [ih, ← inRange_self byte b]
    exact classResult_step byte read matched consumedAny i
  | case6 b matched consumedAny i inside rest short ih =>
    have read : ranges ([b] ++ rest) = (ranges rest).map fun r => ((b, b) :: r.1, r.2) := by
      rw [List.cons_append, ranges_cons, if_neg inside]
      match rest with
      | [] => rfl
      | [_] => rfl
      | dash :: high :: others => exact absurd rfl (short dash high others)
    rw [ih, ← inRange_self byte b]
    exact classResult_step byte read matched consumedAny i

theorem matchClass_eq (pattern : List UInt8) (byte : UInt8) : matchClass (byteOf '[' :: pattern) byte =
    (readClass pattern).bind fun r => if r.1.Accepts byte then some (pattern.length + 1 - r.2.length) else none := by
  have start : (if negates pattern then pattern.drop 1 else pattern).length + (if negates pattern then 2 else 1) =
      pattern.length + 1 := by
    by_cases negated : negates pattern = true
    · have some : pattern ≠ [] := by
        rintro rfl
        cases negated
      have positive := List.length_pos_of_ne_nil some
      rw [if_pos negated, if_pos negated, List.length_drop]
      omega
    · rw [if_neg negated, if_neg negated]
  have unfolded : matchClass (byteOf '[' :: pattern) byte =
      (classResult byte (if negates pattern then pattern.drop 1 else pattern) false false (if negates pattern then 2 else 1)).bind
        fun r => if r.1 ≠ negates pattern then some r.2 else none := by
    rw [← classFrom_eq]
    simp only [matchClass, negates, List.drop_one, List.tail_cons, decide_eq_true_eq]
    rfl
  rw [unfolded, classResult, readClass]
  generalize (if negates pattern = true then pattern.drop 1 else pattern) = body at start ⊢
  generalize (if negates pattern = true then 2 else 1) = i at start ⊢
  cases found : ranges body with
  | none => rfl
  | some r =>
    have shorter := (ranges_suffix found).length_le
    by_cases empty : r.1 = []
    · simp [empty]
    · have reached : i + (body.length - r.2.length) = pattern.length + 1 - r.2.length := by omega
      by_cases outside : r.1.any (inRange byte) = negates pattern
      · simp [empty, Symbol.Accepts, outside]
      · simp [empty, reached, Symbol.Accepts, outside]

theorem symbols_cons (b : UInt8) (rest : List UInt8) : symbols (b :: rest) =
    if b = byteOf '[' then
      match readClass rest with
      | some (symbol, after) => symbol :: symbols after
      | none => .byte b :: symbols rest
    else (if b = byteOf '*' then .star else if b = byteOf '?' then .any else .byte b) :: symbols rest := by
  rw [symbols.eq_def]
  dsimp only
  split
  next =>
    split
    next found => rw [found]
    next found => rw [found]
  next => rfl

theorem readClass_plain {bytes rest : List UInt8} {symbol : Symbol} (read : readClass bytes = some (symbol, rest)) :
    symbol ≠ .star ∧ symbol ≠ .byte (byteOf '[') := by
  obtain ⟨r, -, kept⟩ := Option.bind_eq_some_iff.mp read
  split at kept
  next => cases kept
  next =>
    cases kept
    exact ⟨nofun, nofun⟩

theorem all_star_iff (pattern : List UInt8) :
    pattern.all (· = byteOf '*') = true ↔ ∀ symbol ∈ symbols pattern, symbol = .star := by
  induction pattern with
  | nil => simp [symbols]
  | cons b rest ih =>
    rw [List.all_cons, Bool.and_eq_true, ih, decide_eq_true_eq]
    by_cases star : b = byteOf '*'
    · rw [symbols_cons, if_neg (by rw [star]; decide), if_pos star, List.forall_mem_cons]
      exact and_congr (iff_of_true star rfl) Iff.rfl
    · have first : ∃ symbol after, symbols (b :: rest) = symbol :: after ∧ symbol ≠ .star := by
        rw [symbols_cons]
        split
        next =>
          split
          next found => exact ⟨_, _, rfl, (readClass_plain found).1⟩
          next => exact ⟨_, _, rfl, nofun⟩
        next =>
          exact ⟨_, _, rfl, by split <;> nofun⟩
      obtain ⟨symbol, after, split, plain⟩ := first
      rw [split, List.forall_mem_cons]
      exact iff_of_false (fun all => star all.1) fun all => plain all.1

theorem segmentFront_cases (b : UInt8) (rest : List UInt8) (byte : UInt8) :
    ∃ symbol after, symbols (b :: rest) = symbol :: symbols after ∧
    (segmentFront (b :: rest) byte = .star ∧ symbol = .star ∧ after = rest ∧ byte ≠ byteOf '*' ∨
      (∃ count, segmentFront (b :: rest) byte = .consume count ∧ after = (b :: rest).drop count ∧
        Glob.Takes (· = .star) Symbol.AcceptsPlainly (· = byteOf '*') symbol byte) ∨
      segmentFront (b :: rest) byte = .refuse ∧ symbol ≠ .star ∧ ¬symbol.AcceptsPlainly byte) := by
  by_cases bracket : b = byteOf '['
  · subst bracket
    have verdict : segmentFront (byteOf '[' :: rest) byte = (matchClass (byteOf '[' :: rest) byte).elim .refuse .consume := by
      rw [segmentFront, if_pos rfl]
    rw [symbols_cons, if_pos rfl, verdict, matchClass_eq]
    cases read : readClass rest with
    | none => exact ⟨_, _, rfl, .inr (.inr ⟨rfl, by rintro ⟨⟩, fun plain => plain.1 rfl⟩)⟩
    | some r =>
      obtain ⟨symbol, after⟩ := r
      obtain ⟨plain, other⟩ := readClass_plain read
      refine ⟨symbol, after, rfl, .inr ?_⟩
      by_cases accepted : symbol.Accepts byte
      · refine .inl ⟨rest.length + 1 - after.length, by simp [accepted], ?_, .inr ⟨plain, other, accepted⟩⟩
        exact List.suffix_iff_eq_drop.mp ((readClass_suffix read).trans (List.suffix_cons _ _))
      · exact .inr ⟨by simp [accepted], plain, fun both => accepted both.2⟩
  · rw [symbols_cons, if_neg bracket]
    refine ⟨_, _, rfl, ?_⟩
    rw [segmentFront, if_neg bracket]
    by_cases star : b = byteOf '*'
    · subst star
      by_cases held : byte = byteOf '*'
      · subst held
        exact .inr (.inl ⟨1, rfl, rfl, .inl ⟨rfl, rfl⟩⟩)
      · refine .inl ⟨?_, rfl, rfl, held⟩
        rw [if_neg (by rintro (other | same); exacts [absurd other (by decide), held same.symm]), if_pos rfl]
    · rw [if_neg star, if_neg star]
      by_cases any : b = byteOf '?'
      · rw [if_pos (.inl any), if_pos any]
        exact .inr (.inl ⟨1, rfl, rfl, .inr ⟨by rintro ⟨⟩, by rintro ⟨⟩, trivial⟩⟩)
      · rw [if_neg any]
        by_cases same : b = byte
        · rw [if_pos (.inr same)]
          refine .inr (.inl ⟨1, rfl, rfl, .inr ⟨by rintro ⟨⟩, fun lone => bracket ?_, same⟩⟩)
          exact (Symbol.byte.inj lone)
        · rw [if_neg (by rintro (other | other); exacts [any other, same other])]
          exact .inr (.inr ⟨rfl, by rintro ⟨⟩, fun both => same both.2⟩)

theorem reads_segmentFront :
    Glob.Reads (· = byteOf '*') segmentFront symbols (· = .star) Symbol.AcceptsPlainly (· = byteOf '*') where
  ended := all_star_iff
  accept {pattern b} verdict := by
    cases pattern with
    | nil => cases verdict
    | cons a rest =>
      obtain ⟨_, _, -, ⟨other, -⟩ | ⟨_, other, -⟩ | ⟨other, -⟩⟩ := segmentFront_cases a rest b <;> cases verdict.symm.trans other
  star {pattern b} verdict := by
    cases pattern with
    | nil => cases verdict
    | cons a rest =>
      obtain ⟨symbol, after, split, ⟨-, star, rfl, free⟩ | ⟨_, other, -⟩ | ⟨other, -⟩⟩ := segmentFront_cases a rest b
      · exact ⟨a, _, symbol, rfl, split, star, free⟩
      · cases verdict.symm.trans other
      · cases verdict.symm.trans other
  consume {pattern b count} verdict := by
    cases pattern with
    | nil => cases verdict
    | cons a rest =>
      obtain ⟨symbol, after, split, ⟨other, -⟩ | ⟨count', same, rfl, takes⟩ | ⟨other, -⟩⟩ := segmentFront_cases a rest b
      · cases verdict.symm.trans other
      · cases verdict.symm.trans same
        exact ⟨symbol, split, takes⟩
      · cases verdict.symm.trans other
  refuse {pattern b} verdict := by
    cases pattern with
    | nil =>
      intro symbol first
      rw [symbols, List.head?_nil] at first
      cases first
    | cons a rest =>
      obtain ⟨symbol, after, split, ⟨other, -⟩ | ⟨_, other, -⟩ | ⟨-, plain, refused⟩⟩ := segmentFront_cases a rest b
      · cases verdict.symm.trans other
      · cases verdict.symm.trans other
      · rw [split]
        rintro _ ⟨⟩
        exact ⟨plain, refused⟩

theorem segmentGlobMatch_iff {pattern segment : Text} :
    segmentGlobMatch pattern segment = true ↔ SegmentCoversPlainly pattern segment := by
  unfold segmentGlobMatch segmentMatch
  rw [Glob.greedy_iff reads_segmentFront (by rintro _ ⟨⟩), or_iff_left]
  · rfl
  · rintro ⟨_, ⟨⟩, _⟩

theorem globFront_cons (front segment : Text) (rest : List Text) : globFront (front :: rest) segment =
    if front = ['*', '*'] then if rest = [] then .accept else .star
    else if segmentGlobMatch front segment then .consume 1 else .refuse := rfl

theorem reads_globFront : Glob.Reads (· = ['*', '*']) globFront id (· = ['*', '*']) SegmentCoversPlainly (fun _ => False) where
  ended pattern := by simp [List.all_eq_true]
  accept {pattern segment} verdict := by
    cases pattern with
    | nil => cases verdict
    | cons front rest =>
      rw [globFront_cons] at verdict
      split_ifs at verdict with stars alone
      exact ⟨front, by rw [id, alone], stars, id⟩
  star {pattern segment} verdict := by
    cases pattern with
    | nil => cases verdict
    | cons front rest =>
      rw [globFront_cons] at verdict
      split_ifs at verdict with stars
      exact ⟨front, rest, front, rfl, rfl, stars, id⟩
  consume {pattern segment count} verdict := by
    cases pattern with
    | nil => cases verdict
    | cons front rest =>
      rw [globFront_cons] at verdict
      split_ifs at verdict with stars _ found
      cases verdict
      exact ⟨front, rfl, .inr ⟨stars, segmentGlobMatch_iff.mp found⟩⟩
  refuse {pattern segment} verdict := by
    cases pattern with
    | nil => rintro _ ⟨⟩
    | cons front rest =>
      rw [globFront_cons] at verdict
      split_ifs at verdict with stars _ other
      rintro _ ⟨⟩
      exact ⟨stars, fun found => other (segmentGlobMatch_iff.mpr found)⟩

theorem globSegmentsCover_iff {pattern path : List Text} :
    globSegmentsCover pattern path = true ↔ CoversPlainly pattern path := by
  unfold globSegmentsCover
  rw [Glob.greedy_iff reads_globFront (by rintro _ ⟨⟩), or_iff_left]
  · rfl
  · rintro ⟨_, ⟨⟩, _⟩

theorem SegmentCoversPlainly.covers {pattern segment : Text} (found : SegmentCoversPlainly pattern segment) :
    SegmentCovers pattern segment :=
  Glob.Matches.mono (fun _ _ accepted => accepted.2) found

theorem CoversPlainly.covers {pattern path : List Text} (found : CoversPlainly pattern path) : Covers pattern path :=
  Glob.Matches.mono (fun _ _ => SegmentCoversPlainly.covers) found

/-- A scope covers what its globs match plainly: no star of a pattern takes more than the star of a name that it stands at, and
no bracket without a class takes part. That is what they are to cover where each match can be had in this way. -/
theorem globSegmentsCover_covers_iff (pattern path : List Text) :
    (globSegmentsCover pattern path = true ↔ CoversPlainly pattern path) ∧
      ((globSegmentsCover pattern path = true ↔ Covers pattern path) ↔ (Covers pattern path → CoversPlainly pattern path)) := by
  rw [globSegmentsCover_iff]
  exact ⟨Iff.rfl, fun same => same.mpr, fun plainly => ⟨CoversPlainly.covers, plainly⟩⟩

/-- The star of the pattern is to take the first two bytes of the name, of which the first is a star. -/
theorem globSegmentsCover_starred :
    ¬(globSegmentsCover ["*a".toList] ["*ba".toList] = true ↔ Covers ["*a".toList] ["*ba".toList]) := by
  have read : symbols (lowerBytes "*a".toList) = [.star, .byte (byteOf 'a')] := by decide +kernel
  have name : lowerBytes "*ba".toList = byteOf '*' :: [byteOf 'b', byteOf 'a'] := by decide +kernel
  have matched : SegmentCovers "*a".toList "*ba".toList := by
    rw [SegmentCovers, read, name]
    exact .run [byteOf '*', byteOf 'b'] rfl (fun _ _ => id) (.item nofun rfl .nil)
  have missed : ¬SegmentCoversPlainly "*a".toList "*ba".toList := by
    have takes : Glob.Takes (· = Symbol.star) Symbol.AcceptsPlainly (· = byteOf '*') .star (byteOf '*') := .inl ⟨rfl, rfl⟩
    rw [SegmentCoversPlainly, read, name, Glob.Matches.takes_iff takes]
    refine Glob.Matches.of_refused ?_
    rintro _ ⟨⟩
    exact ⟨nofun, fun both => absurd both.2 (by decide)⟩
  have covered : Covers ["*a".toList] ["*ba".toList] := .item (by decide) matched .nil
  intro same
  have plainly := globSegmentsCover_iff.mp (same.mpr covered)
  refine Glob.Matches.of_refused ?_ plainly
  rintro _ ⟨⟩
  exact ⟨by decide, missed⟩

end Bitty.Plugin.Fs
