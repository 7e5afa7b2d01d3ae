import Bitty.Package.Precedence

/-! What the texts of requirements say. -/

namespace Bitty.Package

open Text Checks

/-! Versions. -/

/-- A version as a requirement writes it: zeros at the end of the numbers may be left out. -/
inductive Shorthand (p : Semver.Version) : Text → Prop
  | full : Shorthand p p.text
  | minor (zero : p.patch = 0) : Shorthand p (number p.major ++ '.' :: number p.minor ++ p.suffixes)
  | major (zero : p.minor = 0) (zero' : p.patch = 0) : Shorthand p (number p.major ++ p.suffixes)

def inCore (c : Char) : Bool := c ≠ '-' ∧ c ≠ '+'

theorem inCore_of_isDigit {c : Char} (digit : c.isDigit = true) : inCore c = true := by
  unfold inCore
  rw [decide_eq_true_eq]
  constructor
  · rintro rfl
    exact absurd digit (by decide)
  · rintro rfl
    exact absurd digit (by decide)

theorem inCore_number {n : Nat} {c : Char} (member : c ∈ number n) : inCore c = true :=
  inCore_of_isDigit (isDigit_of_mem_number member)

theorem inCore_core {p : Semver.Version} {c : Char} (member : c ∈ p.core) : inCore c = true := by
  rcases mem_core member with rfl | digit
  · decide
  · exact inCore_of_isDigit digit

theorem takeWhile_suffixes (p : Semver.Version) : p.suffixes.takeWhile inCore = [] := by
  unfold Semver.Version.suffixes
  simp only [suffix_eq]
  cases joined (p.prerelease.map Semver.Identifier.text) with
  | none =>
    cases joined p.build with
    | none => rfl
    | some b => rfl
  | some pre => rfl

theorem span_inCore {numbers rest : Text} (plain : ∀ c ∈ numbers, inCore c = true) (marked : rest.takeWhile inCore = []) :
    (numbers ++ rest).takeWhile inCore = numbers ∧ (numbers ++ rest).dropWhile inCore = rest := by
  have taken : (numbers ++ rest).takeWhile inCore = numbers := by
    rw [List.takeWhile_append_of_pos plain, marked, List.append_nil]
  refine ⟨taken, ?_⟩
  have whole := List.takeWhile_append_dropWhile (p := inCore) (l := numbers ++ rest)
  rw [taken] at whole
  exact List.append_cancel_left whole

theorem count_point_number (n : Nat) : (number n).count '.' = 0 := List.count_eq_zero.mpr (not_mem_number_point n)

theorem core_splitOn (p : Semver.Version) : p.core.splitOn '.' = [number p.major, number p.minor, number p.patch] :=
  splitOn_eq_three.mpr ⟨⟨not_mem_number_point _, not_mem_number_point _, not_mem_number_point _⟩, rfl⟩

theorem zero_of_number {n : Nat} (zero : number n = ['0']) : n = 0 := head_number (by rw [zero]; rfl)

theorem core_eq_minor {p : Semver.Version} {numbers : Text} (same : p.core = numbers ++ ".0".toList) :
    p.patch = 0 ∧ numbers = number p.major ++ '.' :: number p.minor := by
  have split := core_splitOn p
  rw [same, show ".0".toList = '.' :: ['0'] from rfl, List.splitOn_append_cons_self] at split
  have zero : ['0'].splitOn '.' = [['0']] := by decide
  rw [zero, show [number p.major, number p.minor, number p.patch] = [number p.major, number p.minor] ++ [number p.patch]
    from rfl] at split
  obtain ⟨before, last⟩ := List.append_inj' split rfl
  refine ⟨zero_of_number (List.cons.inj last).1.symm, ?_⟩
  rw [← dotted_splitOn numbers, before]
  simp [dotted, List.intercalate]

theorem core_eq_major {p : Semver.Version} {numbers : Text} (same : p.core = numbers ++ ".0.0".toList) :
    p.minor = 0 ∧ p.patch = 0 ∧ numbers = number p.major := by
  have split := core_splitOn p
  rw [same, show ".0.0".toList = '.' :: ['0', '.', '0'] from rfl, List.splitOn_append_cons_self] at split
  have zeros : ['0', '.', '0'].splitOn '.' = [['0'], ['0']] := by decide
  rw [zeros, show [number p.major, number p.minor, number p.patch] = [number p.major] ++ [number p.minor, number p.patch]
    from rfl] at split
  obtain ⟨before, last⟩ := List.append_inj' split rfl
  obtain ⟨minor, patch⟩ := List.cons.inj last
  refine ⟨zero_of_number minor.symm, zero_of_number (List.cons.inj patch).1.symm, ?_⟩
  rw [← dotted_splitOn numbers, before]
  simp [dotted, List.intercalate]

theorem takeWhile_dropWhile (text : Text) : (text.dropWhile inCore).takeWhile inCore = [] := by
  cases rest : text.dropWhile inCore with
  | nil => rfl
  | cons c tail =>
    have first := List.head?_dropWhile_not inCore text
    rw [rest] at first
    exact List.takeWhile_cons_of_neg (by simpa using first)

theorem core_eq_of_text {p : Semver.Version} {text pad : Text} (plain : ∀ c ∈ pad, inCore c = true)
    (same : text.takeWhile inCore ++ pad ++ text.dropWhile inCore = p.text) :
    p.core = text.takeWhile inCore ++ pad ∧ text = text.takeWhile inCore ++ p.suffixes := by
  have ours : ∀ c ∈ text.takeWhile inCore ++ pad, inCore c = true := by
    intro c member
    rcases List.mem_append.mp member with left | right
    · exact List.mem_takeWhile_imp left
    · exact plain c right
  obtain ⟨taken, dropped⟩ := span_inCore ours (takeWhile_dropWhile text)
  obtain ⟨core, suffixes⟩ := span_inCore (fun c => inCore_core) (takeWhile_suffixes p)
  rw [same] at taken dropped
  rw [Semver.Version.core_append_suffixes] at core suffixes
  refine ⟨core.symm.trans taken, ?_⟩
  rw [← suffixes, dropped, List.takeWhile_append_dropWhile]

theorem normalizeVersionStr_ok {p : Semver.Version} {text : Text} :
    normalizeVersionStr text = .ok p.text ↔ Shorthand p text := by
  unfold normalizeVersionStr
  dsimp only
  rw [show (fun c : Char => decide (c ≠ '-' ∧ c ≠ '+')) = inCore from rfl]
  constructor
  · intro normalized
    split at normalized
    · rw [List.takeWhile_append_dropWhile] at normalized
      exact Except.ok.inj normalized ▸ .full
    · obtain ⟨core, whole⟩ := core_eq_of_text (by decide) (Except.ok.inj normalized)
      obtain ⟨zero, numbers⟩ := core_eq_minor core
      rw [whole, numbers]
      exact .minor zero
    · obtain ⟨core, whole⟩ := core_eq_of_text (by decide) (Except.ok.inj normalized)
      obtain ⟨zero, zero', numbers⟩ := core_eq_major core
      rw [whole, numbers]
      exact .major zero zero'
    · cases normalized
  · intro written
    have suffixes := takeWhile_suffixes p
    cases written with
    | full =>
      obtain ⟨taken, dropped⟩ := span_inCore (fun c => inCore_core) suffixes
      rw [Semver.Version.core_append_suffixes] at taken dropped
      have points : p.core.count '.' = 2 := by simp [Semver.Version.core, count_point_number]
      rw [taken, dropped, points]
      exact congrArg _ (Semver.Version.core_append_suffixes p)
    | minor zero =>
      have plain : ∀ c ∈ number p.major ++ '.' :: number p.minor, inCore c = true := by
        intro c member
        rcases List.mem_append.mp member with left | right
        · exact inCore_number left
        · rcases List.mem_cons.mp right with rfl | inside
          · decide
          · exact inCore_number inside
      obtain ⟨taken, dropped⟩ := span_inCore plain suffixes
      have points : (number p.major ++ '.' :: number p.minor).count '.' = 1 := by simp [count_point_number]
      rw [taken, dropped, points]
      refine congrArg Except.ok ?_
      rw [← Semver.Version.core_append_suffixes, Semver.Version.core, zero]
      simp [number]
    | major zero zero' =>
      obtain ⟨taken, dropped⟩ := span_inCore (fun c => inCore_number (n := p.major)) suffixes
      rw [taken, dropped, count_point_number]
      refine congrArg Except.ok ?_
      rw [← Semver.Version.core_append_suffixes, Semver.Version.core, zero, zero']
      simp [number]

theorem mem_text_of_suffixes {p : Semver.Version} {c : Char} (member : c ∈ p.suffixes) : c ∈ p.text := by
  rw [← Semver.Version.core_append_suffixes]
  exact List.mem_append_right _ member

namespace Shorthand

variable {p : Semver.Version} {text : Text}

theorem subset (short : Shorthand p text) {c : Char} (member : c ∈ text) : c ∈ p.text := by
  have core {d : Char} (inside : d ∈ p.core) : d ∈ p.text := by
    rw [← Semver.Version.core_append_suffixes]
    exact List.mem_append_left _ inside
  cases short with
  | full => exact member
  | minor _ =>
    rcases List.mem_append.mp member with numbers | suffixes
    · refine core ?_
      rcases List.mem_append.mp numbers with major | minor
      · exact List.mem_append_left _ major
      · refine List.mem_append_right _ ?_
        rcases List.mem_cons.mp minor with rfl | inside
        · exact List.mem_cons_self
        · exact List.mem_cons_of_mem _ (List.mem_append_left _ inside)
    · exact mem_text_of_suffixes suffixes
  | major _ _ =>
    rcases List.mem_append.mp member with numbers | suffixes
    · exact core (List.mem_append_left _ numbers)
    · exact mem_text_of_suffixes suffixes

theorem byteLen_le (short : Shorthand p text) : byteLen text ≤ byteLen p.text := by
  rw [← Semver.Version.core_append_suffixes, Semver.Version.core]
  cases short with
  | full => rw [← Semver.Version.core_append_suffixes, Semver.Version.core]
  | minor _ =>
    simp only [byteLen_append, byteLen_cons]
    omega
  | major _ _ =>
    simp only [byteLen_append, byteLen_cons]
    omega

theorem head (short : Shorthand p text) : ∃ c rest, text = c :: rest ∧ c.isDigit = true := by
  have first (rest : Text) : ∃ c tail, number p.major ++ rest = c :: tail ∧ c.isDigit = true := by
    cases shape : number p.major with
    | nil => exact absurd shape Nat.toDigits_ne_nil
    | cons c tail => exact ⟨c, tail ++ rest, rfl, isDigit_of_mem_number (shape ▸ List.mem_cons_self)⟩
  cases short with
  | full =>
    obtain ⟨c, tail, shape, digit⟩ := first ('.' :: (number p.minor ++ '.' :: number p.patch) ++ p.suffixes)
    refine ⟨c, tail, ?_, digit⟩
    rw [← shape, ← Semver.Version.core_append_suffixes, Semver.Version.core, List.append_assoc]
  | minor _ =>
    obtain ⟨c, tail, shape, digit⟩ := first ('.' :: number p.minor ++ p.suffixes)
    refine ⟨c, tail, ?_, digit⟩
    rw [← shape, List.append_assoc]
  | major _ _ => exact first p.suffixes

end Shorthand

theorem isVersionChar_bound {c : Char} (version : isVersionChar c = true) : 0x2B ≤ c.toNat ∧ c.toNat ≤ 0x7A := by
  simp only [isVersionChar, Char.isAlphanum, Char.isAlpha, Char.isUpper, Char.isLower, Char.isDigit, Bool.or_eq_true,
    Bool.and_eq_true, decide_eq_true_eq, ge_iff_le, UInt32.le_iff_toNat_le] at version
  rcases version with ((⟨low, high⟩ | ⟨low, high⟩) | ⟨low, high⟩) | rfl | rfl | rfl | rfl
  · exact ⟨le_trans (by decide) low, le_trans high (by decide)⟩
  · exact ⟨le_trans (by decide) low, le_trans high (by decide)⟩
  · exact ⟨le_trans (by decide) low, le_trans high (by decide)⟩
  all_goals decide

theorem isWhitespace_of_isVersionChar {c : Char} (version : isVersionChar c = true) : isWhitespace c = false := by
  obtain ⟨low, high⟩ := isVersionChar_bound version
  simp only [isWhitespace, decide_eq_false_iff_not, List.mem_cons, List.not_mem_nil, or_false]
  omega

theorem Accepted.isVersionChar {p : Semver.Version} (accepted : Accepted p) {c : Char} (member : c ∈ p.text) :
    isVersionChar c = true := by
  obtain ⟨_, _, _, _, _, _, _, stages, -⟩ := parse_ok_iff_stages.mp (parse_ok_iff.mpr ⟨p, accepted, rfl, rfl⟩)
  exact stages.chars c member

theorem Shorthand.isVersionChar {p : Semver.Version} {text : Text} (short : Shorthand p text) (accepted : Accepted p) {c : Char}
    (member : c ∈ text) : isVersionChar c = true := accepted.isVersionChar (short.subset member)

theorem Shorthand.ne_nil {p : Semver.Version} {text : Text} (short : Shorthand p text) : text ≠ [] := by
  obtain ⟨c, rest, rfl, -⟩ := short.head
  exact List.cons_ne_nil c rest

theorem Shorthand.solid {p : Semver.Version} {text : Text} (short : Shorthand p text) (accepted : Accepted p) : Solid text :=
  solid_of_dark short.ne_nil fun _ member => isWhitespace_of_isVersionChar (short.isVersionChar accepted member)

theorem requiredVersion_ok {text missing : Text} {v : Version} :
    requiredVersion text missing = .ok v ↔ ∃ p, Accepted p ∧ Shorthand p text ∧ v = .of p := by
  rw [requiredVersion, seq_ok, refuseIf_ok, seq_ok, bounded_ok, bind_ok_iff]
  simp only [parse_ok_iff]
  constructor
  · rintro ⟨-, -, _, normalized, p, accepted, rfl, rfl⟩
    exact ⟨p, accepted, normalizeVersionStr_ok.mp normalized, rfl⟩
  · rintro ⟨p, accepted, short, rfl⟩
    exact ⟨short.ne_nil, short.byteLen_le.trans accepted.short, p.text, normalizeVersionStr_ok.mpr short, p, accepted, rfl, rfl⟩

/-! Comparators. -/

structure Bound where
  op : ComparatorOp
  version : Semver.Version

namespace Bound

def compiled (b : Bound) : Comparator := ⟨b.op, .of b.version⟩

/-- A bound is written with white space anywhere but in its operator and its version; equality needs no operator. -/
def Writes (b : Bound) (text : Text) : Prop :=
  ∃ gap version, Blank gap ∧ Shorthand b.version version ∧
    (Padded (b.op.label ++ gap ++ version) text ∨ b.op = .equal ∧ Padded version text)

end Bound

theorem findSome_label {op : ComparatorOp} {rest : Text} (bare : rest.head? ≠ some '=') :
    (comparatorOps.findSome? fun op' => (stripPrefix op'.label (op.label ++ rest)).map fun left => (op', left)) =
      some (op, rest) := by
  cases op with
  | equal => simp [comparatorOps, ComparatorOp.label, stripPrefix]
  | greaterEq => simp [comparatorOps, ComparatorOp.label, stripPrefix]
  | lessEq => simp [comparatorOps, ComparatorOp.label, stripPrefix]
  | greater =>
    cases rest with
    | nil => rfl
    | cons c rest =>
      have other : '=' ≠ c := fun same => bare (congrArg some same.symm)
      simp [comparatorOps, ComparatorOp.label, stripPrefix, other]
  | less =>
    cases rest with
    | nil => rfl
    | cons c rest =>
      have other : '=' ≠ c := fun same => bare (congrArg some same.symm)
      simp [comparatorOps, ComparatorOp.label, stripPrefix, other]

theorem findSome_digit {c : Char} {rest : Text} (digit : c.isDigit = true) :
    (comparatorOps.findSome? fun op => (stripPrefix op.label (c :: rest)).map fun left => (op, left)) = none := by
  have other {d : Char} (none : d.isDigit = false) : d ≠ c := by
    rintro rfl
    rw [none] at digit
    cases digit
  simp [comparatorOps, ComparatorOp.label, stripPrefix, other (d := '>') (by decide), other (d := '<') (by decide),
    other (d := '=') (by decide)]

theorem label_solid (op : ComparatorOp) : Solid op.label := by
  cases op
  all_goals exact ⟨⟨_, rfl, by decide⟩, ⟨_, rfl, by decide⟩⟩

theorem parseSingleComparator_ok {segment : Text} {c : Comparator} :
    parseSingleComparator segment = .ok c ↔ ∃ b : Bound, Accepted b.version ∧ b.Writes segment ∧ c = b.compiled := by
  rcases opened : (comparatorOps.findSome? fun op => (stripPrefix op.label (trim segment)).map fun rest => (op, rest)).getD
    (.equal, trim segment) with ⟨op, rest⟩
  have reads : parseSingleComparator segment = .ok c ↔ ∃ p, Accepted p ∧ Shorthand p (trim rest) ∧ c = ⟨op, .of p⟩ := by
    simp only [parseSingleComparator, opened, bind_ok_iff, requiredVersion_ok, Except.ok.injEq]
    constructor
    · rintro ⟨_, ⟨p, accepted, short, rfl⟩, rfl⟩
      exact ⟨p, accepted, short, rfl⟩
    · rintro ⟨p, accepted, short, rfl⟩
      exact ⟨_, ⟨p, accepted, short, rfl⟩, rfl⟩
  rw [reads]
  constructor
  · rintro ⟨p, accepted, short, rfl⟩
    refine ⟨⟨op, p⟩, accepted, ?_, rfl⟩
    obtain ⟨l, r, blankL, blankR, whole⟩ := padded_trim rest
    cases found : comparatorOps.findSome? fun op => (stripPrefix op.label (trim segment)).map fun rest => (op, rest) with
    | none =>
      rw [found, Option.getD_none, Prod.mk.injEq] at opened
      obtain ⟨rfl, rfl⟩ := opened
      rw [trim_trim] at short
      exact ⟨[], _, .nil, short, .inr ⟨rfl, padded_trim segment⟩⟩
    | some opening =>
      rw [found, Option.getD_some] at opened
      subst opened
      obtain ⟨op', -, opens⟩ := List.exists_of_findSome?_eq_some found
      obtain ⟨rest', stripped, same⟩ := Option.map_eq_some_iff.mp opens
      obtain ⟨rfl, rfl⟩ := Prod.mk.inj same
      have trimmed := eq_append_of_stripPrefix stripped
      refine ⟨l, trim rest', blankL, short, .inl (.trans ⟨[], r, .nil, blankR, ?_⟩ (padded_trim segment))⟩
      rw [trimmed]
      conv_lhs => rw [whole]
      simp
  · rintro ⟨⟨op', p⟩, accepted, ⟨gap, version, blank, short, written⟩, rfl⟩
    have solid := short.solid accepted
    obtain ⟨d, tail, rfl, digit⟩ := short.head
    have bare : (gap ++ d :: tail).head? ≠ some '=' := by
      cases gap with
      | nil =>
        intro same
        rw [List.nil_append, List.head?_cons, Option.some_inj] at same
        rw [same] at digit
        exact absurd digit (by decide)
      | cons e gap =>
        intro same
        have white := blank e List.mem_cons_self
        rw [List.cons_append, List.head?_cons, Option.some_inj] at same
        rw [same] at white
        exact absurd white (by decide)
    rcases written with padded | ⟨equal, padded⟩
    · have trimmed := ((label_solid op').append gap solid).padded_iff.mp padded
      rw [trimmed, List.append_assoc, findSome_label bare, Option.getD_some, Prod.mk.injEq] at opened
      obtain ⟨rfl, rfl⟩ := opened
      refine ⟨p, accepted, ?_, rfl⟩
      rw [trim_append_left blank, solid.trim_eq]
      exact short
    · have trimmed := solid.padded_iff.mp padded
      rw [trimmed, findSome_digit digit, Option.getD_none, Prod.mk.injEq] at opened
      obtain ⟨rfl, rfl⟩ := opened
      refine ⟨p, accepted, ?_, ?_⟩
      · rw [solid.trim_eq]
        exact short
      · rw [Bound.compiled, show op' = ComparatorOp.equal from equal]

theorem parseComparators_ok {parts : List Text} {cs : List Comparator} : parseComparators parts = .ok cs ↔
    List.Forall₂ (fun part c => parseSingleComparator part = .ok c) parts cs := by
  induction parts generalizing cs with
  | nil =>
    rw [parseComparators, List.forall₂_nil_left_iff, Except.ok.injEq]
    exact eq_comm
  | cons part rest ih =>
    have trimmed : parseSingleComparator (trim part) = parseSingleComparator part := by
      unfold parseSingleComparator
      rw [trim_trim]
    rw [parseComparators, seq_ok, refuseIf_ok, bind_ok_iff, trimmed]
    simp only [bind_ok_iff, ih, Except.ok.injEq]
    constructor
    · rintro ⟨-, c, first, others, read, rfl⟩
      exact .cons first read
    · intro read
      cases read with
      | @cons _ c _ others first read =>
        refine ⟨fun blank => ?_, c, first, others, read, rfl⟩
        obtain ⟨b, accepted, ⟨gap, version, -, short, written⟩, -⟩ := parseSingleComparator_ok.mp first
        have solid := short.solid accepted
        rcases written with padded | ⟨-, padded⟩
        · have whole := (label_solid b.op).append gap solid
          exact whole.ne_nil (whole.padded_iff.mp padded ▸ blank)
        · exact solid.ne_nil (solid.padded_iff.mp padded ▸ blank)

/-! Requirements. -/

inductive Requirement
  | caret (base : Semver.Version)
  | tilde (base : Semver.Version)
  | all (bounds : List Bound)

def caretLimit (p : Semver.Version) : Semver.Version :=
  if 0 < p.major then .release (p.major + 1) 0 0
  else if 0 < p.minor then .release 0 (p.minor + 1) 0
  else .release 0 0 (p.patch + 1)

def tildeLimit (p : Semver.Version) : Semver.Version := .release p.major (p.minor + 1) 0

namespace Requirement

/-- Before the first minor version only the base itself is compatible. -/
def bounds : Requirement → List Bound
  | caret p => if p.major = 0 ∧ p.minor = 0 then [⟨.equal, p⟩] else [⟨.greaterEq, p⟩, ⟨.less, caretLimit p⟩]
  | tilde p => [⟨.greaterEq, p⟩, ⟨.less, tildeLimit p⟩]
  | all bs => bs

def Writes : Requirement → Text → Prop
  | caret p, text => ∃ gap version, Blank gap ∧ Shorthand p version ∧ Padded ('^' :: gap ++ version) text
  | tilde p, text => ∃ gap version, Blank gap ∧ Shorthand p version ∧ Padded ('~' :: gap ++ version) text
  | all bs, text => List.Forall₂ Bound.Writes bs (text.splitOn ',')

structure Fits (r : Requirement) : Prop where
  versions : ∀ b ∈ r.bounds, Accepted b.version
  few : r.bounds.length ≤ MAX_COMPARATORS

theorem Fits.base_caret {p : Semver.Version} (fits : (caret p).Fits) : Accepted p := by
  by_cases unstable : p.major = 0 ∧ p.minor = 0
  · exact fits.versions ⟨.equal, p⟩ (by rw [bounds, if_pos unstable]; exact List.mem_cons_self)
  · exact fits.versions ⟨.greaterEq, p⟩ (by rw [bounds, if_neg unstable]; exact List.mem_cons_self)

theorem Fits.base_tilde {p : Semver.Version} (fits : (tilde p).Fits) : Accepted p :=
  fits.versions ⟨.greaterEq, p⟩ List.mem_cons_self

def compiled : Requirement → List Comparator
  | caret p => (caret p).bounds.map Bound.compiled
  | tilde p => (tilde p).bounds.map Bound.compiled
  | all bs => (bs.map Bound.compiled).insertionSort fun a b => a.ordering b ≠ .gt

end Requirement

theorem accepted_release {a b c : Nat} (smallA : a ≤ U32_MAX) (smallB : b ≤ U32_MAX) (smallC : c ≤ U32_MAX) :
    Accepted (.release a b c) := by
  refine ⟨⟨nofun, nofun⟩, smallA, smallB, smallC, ?_⟩
  have digits {n : Nat} (small : n ≤ U32_MAX) : byteLen (number n) ≤ 10 :=
    (byteLen_number_mono small).trans (by decide)
  have x := digits smallA
  have y := digits smallB
  have z := digits smallC
  have point : Char.utf8Size '.' = 1 := rfl
  show byteLen ((number a ++ '.' :: (number b ++ '.' :: number c)) ++ [] ++ []) ≤ 64
  simp only [List.append_nil, byteLen_append, byteLen_cons, point]
  omega

theorem upperBound_ok {kind part : String} {value : Nat} {text : Nat → Text} {v : Version} {p : Semver.Version}
    (same : text (value + 1) = p.text) (fits : value + 1 ≤ U32_MAX → Accepted p) :
    upperBound kind part value text = .ok v ↔ value + 1 ≤ U32_MAX ∧ v = .of p := by
  unfold upperBound
  split_ifs with small
  · have reads : Version.parse p.text = .ok (.of p) := parse_ok_iff.mpr ⟨p, fits small, rfl, rfl⟩
    rw [same, mapError_ok, reads, Except.ok.injEq]
    exact ⟨fun done => ⟨small, done.symm⟩, fun done => done.2.symm⟩
  · exact ⟨nofun, fun done => absurd done.1 small⟩

theorem release_text (a b c : Nat) :
    (Semver.Version.release a b c).text = number a ++ '.' :: (number b ++ '.' :: number c) := by
  show (number a ++ '.' :: (number b ++ '.' :: number c)) ++ [] ++ [] = _
  rw [List.append_nil, List.append_nil]

section

variable {p : Semver.Version} {cs : List Comparator}

theorem expandCaret_ok (accepted : Accepted p) :
    expandCaret (.of p) = .ok cs ↔ (Requirement.caret p).Fits ∧ cs = (Requirement.caret p).compiled := by
  have major : (Version.of p).major = p.major := rfl
  have minor : (Version.of p).minor = p.minor := rfl
  unfold expandCaret
  rw [major, minor, Requirement.compiled]
  by_cases unstable : p.major = 0 ∧ p.minor = 0
  · have bounds : (Requirement.caret p).bounds = [⟨.equal, p⟩] := if_pos unstable
    have fits : (Requirement.caret p).Fits := by
      constructor
      · rw [bounds]
        intro b member
        rw [List.mem_singleton.mp member]
        exact accepted
      · rw [bounds]
        exact (by decide : 1 ≤ 16)
    rw [if_pos unstable, bounds, Except.ok.injEq]
    exact ⟨fun done => ⟨fits, done.symm⟩, fun done => done.2.symm⟩
  · have bounds : (Requirement.caret p).bounds = [⟨.greaterEq, p⟩, ⟨.less, caretLimit p⟩] := if_neg unstable
    have fits : (Requirement.caret p).Fits ↔ Accepted (caretLimit p) := by
      constructor
      · intro fits
        exact fits.versions ⟨.less, caretLimit p⟩ (by rw [bounds]; exact List.mem_cons_of_mem _ List.mem_cons_self)
      · intro limit
        constructor
        · rw [bounds]
          intro b member
          rcases List.mem_cons.mp member with rfl | other
          · exact accepted
          · rw [List.mem_singleton.mp other]
            exact limit
        · rw [bounds]
          exact (by decide : 2 ≤ 16)
    have zero : 0 ≤ U32_MAX := Nat.zero_le _
    rw [if_neg unstable, fits, bounds]
    dsimp only
    by_cases stable : 0 < p.major
    · have limit : caretLimit p = .release (p.major + 1) 0 0 := if_pos stable
      have reads (v : Version) : (upperBound "caret" "major" p.major fun next => number next ++ ".0.0".toList) = .ok v ↔
          p.major + 1 ≤ U32_MAX ∧ v = .of (.release (p.major + 1) 0 0) :=
        upperBound_ok (release_text _ 0 0).symm fun small => accepted_release small zero zero
      rw [if_pos stable, limit, bind_ok_iff]
      simp only [reads, Except.ok.injEq]
      constructor
      · rintro ⟨_, ⟨small, rfl⟩, rfl⟩
        exact ⟨accepted_release small zero zero, rfl⟩
      · rintro ⟨small, rfl⟩
        exact ⟨_, ⟨small.major, rfl⟩, rfl⟩
    · have early : 0 < p.minor := by omega
      have limit : caretLimit p = .release 0 (p.minor + 1) 0 := (if_neg stable).trans (if_pos early)
      have reads (v : Version) :
          (upperBound "caret" "minor" p.minor fun next => "0.".toList ++ number next ++ ".0".toList) = .ok v ↔
            p.minor + 1 ≤ U32_MAX ∧ v = .of (.release 0 (p.minor + 1) 0) := by
        refine upperBound_ok ?_ fun small => accepted_release zero small zero
        rw [release_text]
        simp [number]
      rw [if_neg stable, limit, bind_ok_iff]
      simp only [reads, Except.ok.injEq]
      constructor
      · rintro ⟨_, ⟨small, rfl⟩, rfl⟩
        exact ⟨accepted_release zero small zero, rfl⟩
      · rintro ⟨small, rfl⟩
        exact ⟨_, ⟨small.minor, rfl⟩, rfl⟩

theorem expandTilde_ok (accepted : Accepted p) :
    expandTilde (.of p) = .ok cs ↔ (Requirement.tilde p).Fits ∧ cs = (Requirement.tilde p).compiled := by
  have fits : (Requirement.tilde p).Fits ↔ Accepted (tildeLimit p) := by
    constructor
    · exact fun fits => fits.versions ⟨.less, tildeLimit p⟩ (List.mem_cons_of_mem _ List.mem_cons_self)
    · intro limit
      constructor
      · intro b member
        rcases List.mem_cons.mp member with rfl | other
        · exact accepted
        · rw [List.mem_singleton.mp other]
          exact limit
      · show 2 ≤ 16
        decide
  have zero : 0 ≤ U32_MAX := Nat.zero_le _
  have reads (v : Version) : (upperBound "tilde" "minor" (Version.of p).minor fun next =>
      number (Version.of p).major ++ ".".toList ++ number next ++ ".0".toList) = .ok v ↔
      p.minor + 1 ≤ U32_MAX ∧ v = .of (tildeLimit p) := by
    refine upperBound_ok ?_ fun small => accepted_release accepted.major small zero
    rw [tildeLimit, release_text]
    simp [Version.of, number]
  rw [expandTilde, bind_ok_iff, fits]
  simp only [reads, Except.ok.injEq]
  constructor
  · rintro ⟨_, ⟨small, rfl⟩, rfl⟩
    exact ⟨accepted_release accepted.major small zero, rfl⟩
  · rintro ⟨small, rfl⟩
    exact ⟨_, ⟨small.minor, rfl⟩, rfl⟩

end

theorem marked_iff {mark : Char} {raw : Text} {p : Semver.Version} (dark : isWhitespace mark = false)
    (accepted : Accepted p) :
    (∃ gap version, Blank gap ∧ Shorthand p version ∧ Padded (mark :: gap ++ version) raw) ↔
      (trim raw).head? = some mark ∧ Shorthand p (trim ((trim raw).drop 1)) := by
  constructor
  · rintro ⟨gap, version, blank, short, padded⟩
    have solid := short.solid accepted
    have single : Solid [mark] := ⟨⟨mark, rfl, dark⟩, ⟨mark, rfl, dark⟩⟩
    have trimmed := (single.append gap solid).padded_iff.mp padded
    rw [trimmed]
    refine ⟨rfl, ?_⟩
    show Shorthand p (trim (gap ++ version))
    rw [trim_append_left blank, solid.trim_eq]
    exact short
  · rintro ⟨start, short⟩
    obtain ⟨rest, trimmed⟩ := List.head?_eq_some_iff.mp start
    rw [trimmed, List.drop_succ_cons, List.drop_zero] at short
    obtain ⟨l, r, blankL, blankR, whole⟩ := padded_trim rest
    refine ⟨l, trim rest, blankL, short, .trans ⟨[], r, .nil, blankR, ?_⟩ (padded_trim raw)⟩
    rw [trimmed]
    conv_lhs => rw [whole]
    simp

theorem comma_not_mem {mark : Char} {raw : Text} {p : Semver.Version} (other : mark ≠ ',') (accepted : Accepted p)
    (start : (trim raw).head? = some mark) (short : Shorthand p (trim ((trim raw).drop 1))) : ',' ∉ trim raw := by
  obtain ⟨rest, trimmed⟩ := List.head?_eq_some_iff.mp start
  rw [trimmed, List.drop_succ_cons, List.drop_zero] at short
  obtain ⟨l, r, blankL, blankR, whole⟩ := padded_trim rest
  rw [trimmed, whole]
  intro comma
  rcases List.mem_cons.mp comma with same | inside
  · exact other same.symm
  · rcases List.mem_append.mp inside with front | back
    · rcases List.mem_append.mp front with white | version
      · exact absurd (blankL _ white) (by decide)
      · exact absurd (short.isVersionChar accepted version) (by decide)
    · exact absurd (blankR _ back) (by decide)

theorem Bound.Writes.head {b : Bound} {segment : Text} (accepted : Accepted b.version) (written : b.Writes segment) :
    ∃ c, (trim segment).head? = some c ∧ c ≠ '^' ∧ c ≠ '~' := by
  obtain ⟨gap, version, -, short, written⟩ := written
  have solid := short.solid accepted
  rcases written with padded | ⟨-, padded⟩
  · rw [((label_solid b.op).append gap solid).padded_iff.mp padded]
    cases b.op
    all_goals exact ⟨_, rfl, by decide, by decide⟩
  · rw [solid.padded_iff.mp padded]
    obtain ⟨c, rest, rfl, digit⟩ := short.head
    refine ⟨c, rfl, ?_, ?_⟩
    · rintro rfl
      exact absurd digit (by decide)
    · rintro rfl
      exact absurd digit (by decide)

theorem head_trim_splitOn {sep c : Char} {text : Text} (dark : isWhitespace sep = false)
    (start : (trim text).head? = some c) (other : c ≠ sep) :
    ∃ piece pieces, text.splitOn sep = piece :: pieces ∧ (trim piece).head? = some c := by
  obtain ⟨rest, trimmed⟩ := List.head?_eq_some_iff.mp start
  have first := List.head?_dropWhile_not isWhitespace text
  rw [← head_trim, start] at first
  have maps := map_trim_splitOn_trim dark text
  rw [trimmed, List.splitOn_cons_eq_if_modifyHead, if_neg (by simpa using other)] at maps
  cases split : text.splitOn sep with
  | nil => exact absurd split (List.splitOn_ne_nil _ _)
  | cons piece pieces =>
    refine ⟨piece, pieces, rfl, ?_⟩
    cases tail : rest.splitOn sep with
    | nil => exact absurd tail (List.splitOn_ne_nil _ _)
    | cons piece' pieces' =>
      rw [split, tail] at maps
      rw [← (List.cons.inj maps).1, head_trim, List.dropWhile_cons_of_neg (by simpa using first)]
      rfl

theorem parseComparators_trim {raw : Text} {cs : List Comparator} : parseComparators ((trim raw).splitOn ',') = .ok cs ↔
    ∃ bs, (∀ b ∈ bs, Accepted b.version) ∧ List.Forall₂ Bound.Writes bs (raw.splitOn ',') ∧ cs = bs.map Bound.compiled := by
  have trimmed (part : Text) : parseSingleComparator (trim part) = parseSingleComparator part := by
    unfold parseSingleComparator
    rw [trim_trim]
  have same : (List.Forall₂ (fun part c => parseSingleComparator part = .ok c) ((trim raw).splitOn ',') cs) ↔
      List.Forall₂ (fun part c => parseSingleComparator part = .ok c) (raw.splitOn ',') cs := by
    have maps : ((trim raw).splitOn ',').map trim = (raw.splitOn ',').map trim := map_trim_splitOn_trim (by decide) raw
    have pieces (parts : List Text) : List.Forall₂ (fun part c => parseSingleComparator part = .ok c) parts cs ↔
        List.Forall₂ (fun part c => parseSingleComparator part = .ok c) (parts.map trim) cs := by
      rw [List.forall₂_map_left_iff]
      simp only [trimmed]
    rw [pieces, maps, ← pieces]
  rw [parseComparators_ok, same]
  clear same
  generalize raw.splitOn ',' = parts
  constructor
  · intro read
    induction read with
    | nil => exact ⟨[], nofun, .nil, rfl⟩
    | cons first _ ih =>
      obtain ⟨b, accepted, written, rfl⟩ := parseSingleComparator_ok.mp first
      obtain ⟨bs, all, writes, rfl⟩ := ih
      exact ⟨b :: bs, List.forall_mem_cons.mpr ⟨accepted, all⟩, .cons written writes, rfl⟩
  · rintro ⟨bs, all, writes, rfl⟩
    induction writes with
    | nil => exact .nil
    | cons written _ ih =>
      obtain ⟨accepted, others⟩ := List.forall_mem_cons.mp all
      exact .cons (parseSingleComparator_ok.mpr ⟨_, accepted, written, rfl⟩) (ih others)

structure Written (r : Requirement) (raw : Text) : Prop where
  short : byteLen raw ≤ MAX_REQUIREMENT_LEN
  chars : ∀ c ∈ raw, isRequirementChar c = true
  fits : r.Fits
  writes : r.Writes raw

namespace Requirement

theorem Writes.start {r : Requirement} {raw : Text} (fits : r.Fits) (writes : r.Writes raw) :
    match r with
    | caret _ => (trim raw).head? = some '^'
    | tilde _ => (trim raw).head? = some '~'
    | all _ => (trim raw).head? ≠ some '^' ∧ (trim raw).head? ≠ some '~' := by
  cases r with
  | caret p => exact ((marked_iff (by decide) fits.base_caret).mp writes).1
  | tilde p => exact ((marked_iff (by decide) fits.base_tilde).mp writes).1
  | all bs =>
    have unmarked (mark : Char) (start : (trim raw).head? = some mark) (other : mark ≠ ',') : mark ≠ '^' ∧ mark ≠ '~' := by
      obtain ⟨piece, pieces, split, first⟩ := head_trim_splitOn (by decide) start other
      change List.Forall₂ Bound.Writes bs (raw.splitOn ',') at writes
      rw [split] at writes
      cases writes with
      | @cons b _ _ _ written _ =>
        obtain ⟨c, start', apart⟩ := written.head (fits.versions b List.mem_cons_self)
        rw [first, Option.some_inj] at start'
        exact start' ▸ apart
    exact ⟨fun start => (unmarked _ start (by decide)).1 rfl, fun start => (unmarked _ start (by decide)).2 rfl⟩

end Requirement

theorem Written.trim_ne_nil {r : Requirement} {raw : Text} (written : Written r raw) : trim raw ≠ [] := by
  intro empty
  have start := written.writes.start written.fits
  cases r with
  | caret p => exact absurd (empty ▸ start) nofun
  | tilde p => exact absurd (empty ▸ start) nofun
  | all bs =>
    have maps : ((trim raw).splitOn ',').map trim = (raw.splitOn ',').map trim := map_trim_splitOn_trim (by decide) raw
    have writes : List.Forall₂ Bound.Writes bs (raw.splitOn ',') := written.writes
    rw [empty, List.splitOn_nil] at maps
    cases split : raw.splitOn ',' with
    | nil => exact List.splitOn_ne_nil _ _ split
    | cons piece pieces =>
      rw [split] at maps writes
      cases writes with
      | @cons b _ _ _ first _ =>
        obtain ⟨c, begins, -⟩ := first.head (written.fits.versions b List.mem_cons_self)
        rw [← (List.cons.inj maps).1] at begins
        cases begins

theorem marked_ok {raw : Text} {req : VersionReq} {mark : Char} {make : Semver.Version → Requirement} {e : PackageError}
    {missing : Text} {expand : Version → Except PackageError (List Comparator)} (dark : isWhitespace mark = false)
    (other : mark ≠ ',') (start : (trim raw).head? = some mark) (base : ∀ p, (make p).Fits → Accepted p)
    (spec : ∀ p cs, Accepted p → (expand (.of p) = .ok cs ↔ (make p).Fits ∧ cs = (make p).compiled))
    (writes : ∀ p, (make p).Writes raw ↔ ∃ gap version, Blank gap ∧ Shorthand p version ∧ Padded (mark :: gap ++ version) raw) :
    (do
      refuseIf (',' ∈ trim raw) e
      let ver ← requiredVersion (trim ((trim raw).drop 1)) missing
      let comparators ← expand ver
      .ok { comparators, raw } : Except PackageError VersionReq) = .ok req ↔
      ∃ p, (make p).Fits ∧ (make p).Writes raw ∧ req = ⟨(make p).compiled, raw⟩ := by
  rw [seq_ok, refuseIf_ok, bind_ok_iff]
  simp only [bind_ok_iff, requiredVersion_ok, Except.ok.injEq]
  constructor
  · rintro ⟨-, _, ⟨p, accepted, short, rfl⟩, cs, expanded, rfl⟩
    obtain ⟨fits, rfl⟩ := (spec p cs accepted).mp expanded
    exact ⟨p, fits, (writes p).mpr ((marked_iff dark accepted).mpr ⟨start, short⟩), rfl⟩
  · rintro ⟨p, fits, written, rfl⟩
    have accepted := base p fits
    have short := ((marked_iff dark accepted).mp ((writes p).mp written)).2
    exact ⟨comma_not_mem other accepted start short, _, ⟨p, accepted, short, rfl⟩, _, (spec p _ accepted).mpr ⟨fits, rfl⟩, rfl⟩

namespace VersionReq

theorem parse_ok {raw : Text} {req : VersionReq} :
    VersionReq.parse raw = .ok req ↔ ∃ r, Written r raw ∧ req = ⟨r.compiled, raw⟩ := by
  have chars : raw.all isRequirementChar = true ↔ ∀ c ∈ raw, isRequirementChar c = true := List.all_eq_true
  have nonempty {r : Requirement} (written : Written r raw) : trim raw ≠ [] := written.trim_ne_nil
  have whole {r : Requirement} (written : Written r raw) : raw ≠ [] := by
    rintro rfl
    exact nonempty written rfl
  have star {r : Requirement} (written : Written r raw) : '*' ∉ raw :=
    fun member => absurd (written.chars _ member) (by decide)
  have bar {r : Requirement} (written : Written r raw) : '|' ∉ raw :=
    fun member => absurd (written.chars _ member) (by decide)
  simp only [VersionReq.parse, seq_ok, refuseIf_ok, bounded_ok, Decidable.not_not, chars]
  by_cases caret : (trim raw).head? = some '^'
  · have marked : (trim raw).head? = some '^' ∨ (trim raw).head? = some '~' := .inl caret
    simp only [if_pos marked, if_pos caret]
    rw [@marked_ok raw req '^' .caret _ _ _ (by decide) (by decide) caret (fun p fits => fits.base_caret)
      (fun p cs accepted => expandCaret_ok accepted) fun p => Iff.rfl]
    constructor
    · rintro ⟨-, short, allowed, -, -, -, p, fits, writes, rfl⟩
      exact ⟨.caret p, ⟨short, allowed, fits, writes⟩, rfl⟩
    · rintro ⟨r, written, rfl⟩
      refine ⟨whole written, written.short, written.chars, star written, bar written, nonempty written, ?_⟩
      have start := written.writes.start written.fits
      cases r with
      | caret p => exact ⟨p, written.fits, written.writes, rfl⟩
      | tilde p => exact absurd (caret.symm.trans start) (by decide)
      | all bs => exact absurd caret start.1
  · by_cases tilde : (trim raw).head? = some '~'
    · have marked : (trim raw).head? = some '^' ∨ (trim raw).head? = some '~' := .inr tilde
      simp only [if_pos marked, if_neg caret]
      rw [@marked_ok raw req '~' .tilde _ _ _ (by decide) (by decide) tilde (fun p fits => fits.base_tilde)
        (fun p cs accepted => expandTilde_ok accepted) fun p => Iff.rfl]
      constructor
      · rintro ⟨-, short, allowed, -, -, -, p, fits, writes, rfl⟩
        exact ⟨.tilde p, ⟨short, allowed, fits, writes⟩, rfl⟩
      · rintro ⟨r, written, rfl⟩
        refine ⟨whole written, written.short, written.chars, star written, bar written, nonempty written, ?_⟩
        have start := written.writes.start written.fits
        cases r with
        | caret p => exact absurd start caret
        | tilde p => exact ⟨p, written.fits, written.writes, rfl⟩
        | all bs => exact absurd tilde start.2
    · have unmarked : ¬((trim raw).head? = some '^' ∨ (trim raw).head? = some '~') := not_or.mpr ⟨caret, tilde⟩
      simp only [if_neg unmarked]
      rw [seq_ok, refuseIf_ok, bind_ok_iff]
      simp only [parseComparators_trim, Except.ok.injEq, Nat.not_lt]
      have pieces : ((trim raw).splitOn ',').length = (raw.splitOn ',').length := by
        have dark : isWhitespace ',' = false := by decide
        have maps := congrArg List.length (map_trim_splitOn_trim dark raw)
        rwa [List.length_map, List.length_map] at maps
      rw [pieces]
      constructor
      · rintro ⟨-, short, allowed, -, -, -, few, _, ⟨bs, accepted, writes, rfl⟩, rfl⟩
        refine ⟨.all bs, ⟨short, allowed, ⟨accepted, ?_⟩, writes⟩, rfl⟩
        show bs.length ≤ MAX_COMPARATORS
        rwa [writes.length_eq]
      · rintro ⟨r, written, rfl⟩
        refine ⟨whole written, written.short, written.chars, star written, bar written, nonempty written, ?_⟩
        have start := written.writes.start written.fits
        cases r with
        | caret p => exact absurd start caret
        | tilde p => exact absurd start tilde
        | all bs =>
          have writes : List.Forall₂ Bound.Writes bs (raw.splitOn ',') := written.writes
          refine ⟨?_, _, ⟨bs, written.fits.versions, writes, rfl⟩, rfl⟩
          rw [← writes.length_eq]
          exact written.fits.few

end VersionReq

end Bitty.Package
