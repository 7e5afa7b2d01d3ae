import Bitty.Library.Assign
import Bitty.Library.Numeral
import Bitty.Library.Semver
import Bitty.Package.Version

namespace Bitty.Package

open Text Checks

def isVersionLetter (c : Char) : Bool := c.isAlphanum ∨ c = '-' ∨ c = '_'

/-! Marks and points. -/

theorem splitOnce_elim_eq_iff {mark : Char} {text before : Text} {after : Option Text} :
    ((splitOnce mark text).elim (text, none) fun (a, b) => (a, some b)) = (before, after) ↔
      mark ∉ before ∧ text = before ++ after.elim [] (mark :: ·) := by
  constructor
  · intro split
    by_cases marked : mark ∈ text
    · obtain ⟨a, b, rfl, absent⟩ := List.eq_append_cons_of_mem marked
      rw [splitOnce_append b absent] at split
      obtain ⟨rfl, rfl⟩ := Prod.mk.inj split
      exact ⟨absent, rfl⟩
    · rw [splitOnce, if_neg marked] at split
      obtain ⟨rfl, rfl⟩ := Prod.mk.inj split
      exact ⟨marked, by simp⟩
  · rintro ⟨absent, rfl⟩
    cases after with
    | none =>
      rw [Option.elim_none, List.append_nil, splitOnce, if_neg absent]
      rfl
    | some b =>
      rw [Option.elim_some, splitOnce_append b absent]
      rfl

theorem splitOn_eq_three {text x y z : Text} :
    text.splitOn '.' = [x, y, z] ↔ ('.' ∉ x ∧ '.' ∉ y ∧ '.' ∉ z) ∧ text = x ++ '.' :: (y ++ '.' :: z) := by
  have joined : List.intercalate ['.'] [x, y, z] = x ++ '.' :: (y ++ '.' :: z) := by simp [List.intercalate]
  constructor
  · intro split
    have whole : List.intercalate ['.'] (text.splitOn '.') = text := List.intercalate_splitOn '.'
    have pointless : ∀ part ∈ text.splitOn '.', '.' ∉ part := fun part member => not_mem_of_mem_splitOn member
    rw [split] at whole pointless
    exact ⟨by simpa using pointless, whole.symm.trans joined⟩
  · rintro ⟨pointless, rfl⟩
    rw [← joined]
    exact List.splitOn_intercalate '.' (by simpa using pointless) (by simp)

/-! Numbers and identifiers. -/

theorem number_ok {part : Text} {n : Nat} {e e' e'' e''' : PackageError} :
    (do
      refuseIf (part = []) e
      refuseIf (¬part.all Char.isDigit) e'
      refuseIf (1 < byteLen part ∧ part.head? = some '0') e''
      match parseUnsigned U32_MAX part with
      | some n => .ok n
      | none => .error e''' : Except PackageError Nat) = .ok n ↔ part = number n ∧ n ≤ U32_MAX := by
  simp only [seq_ok, refuseIf_ok, Decidable.not_not]
  constructor
  · rintro ⟨nonempty, digits, plain, read⟩
    rw [List.all_eq_true] at digits
    obtain ⟨m, rfl⟩ := exists_number nonempty digits fun zero => by
      rw [byteLen_digits digits] at plain
      exact Nat.le_of_not_lt fun long => plain ⟨long, zero⟩
    rw [parseUnsigned_number_eq] at read
    split_ifs at read with small
    obtain rfl := Except.ok.inj read
    exact ⟨rfl, small⟩
  · rintro ⟨rfl, small⟩
    refine ⟨Nat.toDigits_ne_nil, List.all_eq_true.mpr fun c => isDigit_of_mem_number, ?_, ?_⟩
    · rintro ⟨long, zero⟩
      rw [head_number zero] at long
      exact absurd long (by decide)
    · rw [parseUnsigned_number_eq, if_pos small]

def IsPrerelease (id : Semver.Identifier) : Prop :=
  ∀ t, id = .alphanumeric t → Semver.IsIdentifier isVersionLetter t ∧ t.all Char.isDigit = false

variable {c : Char}

theorem isVersionLetter_of_isDigit (digit : c.isDigit = true) : isVersionLetter c = true := by
  simp [isVersionLetter, Char.isAlphanum, digit]

theorem isIdentifier_number (n : Nat) : Semver.IsIdentifier isVersionLetter (number n) :=
  ⟨Nat.toDigits_ne_nil, fun _ member => isVersionLetter_of_isDigit (isDigit_of_mem_number member)⟩

theorem IsPrerelease.isIdentifier {id : Semver.Identifier} (written : IsPrerelease id) :
    Semver.IsIdentifier isVersionLetter id.text := by
  cases id with
  | numeric n => exact isIdentifier_number n
  | alphanumeric t => exact (written t rfl).1

variable {t : Text}

theorem isPrerelease_iff :
    (Semver.IsIdentifier isVersionLetter t ∧ ¬(t.all Char.isDigit = true ∧ 1 < byteLen t ∧ t.head? = some '0')) ↔
      ∃ id, IsPrerelease id ∧ id.text = t := by
  constructor
  · rintro ⟨identifier, plain⟩
    by_cases digits : t.all Char.isDigit = true
    · have digit := List.all_eq_true.mp digits
      obtain ⟨n, rfl⟩ := exists_number identifier.1 digit fun zero => by
        rw [byteLen_digits digit] at plain
        exact Nat.le_of_not_lt fun long => plain ⟨digits, long, zero⟩
      exact ⟨.numeric n, nofun, rfl⟩
    · refine ⟨.alphanumeric t, ?_, rfl⟩
      rintro _ ⟨⟩
      exact ⟨identifier, Bool.eq_false_iff.mpr digits⟩
  · rintro ⟨id, written, rfl⟩
    refine ⟨written.isIdentifier, ?_⟩
    rintro ⟨digits, long, zero⟩
    cases id with
    | numeric n =>
      rw [Semver.Identifier.text, head_number zero] at long
      exact absurd long (by decide)
    | alphanumeric t => exact absurd digits (by simp [(written t rfl).2, Semver.Identifier.text])

variable {raw : Text}

theorem validateIdentifiers_ok {kind : String} {strict : Bool} (nonempty : raw ≠ []) (short : byteLen raw ≤ 64) :
    validateIdentifiers raw kind strict = .ok () ↔ ∀ id ∈ raw.splitOn '.', Semver.IsIdentifier isVersionLetter id ∧
      ¬(strict = true ∧ id.all Char.isDigit = true ∧ 1 < byteLen id ∧ id.head? = some '0') := by
  have letters (id : Text) : (id.all fun c => c.isAlphanum ∨ c = '-' ∨ c = '_') = true ↔
      ∀ c ∈ id, isVersionLetter c = true := List.all_eq_true
  simp only [validateIdentifiers, seq_ok, refuseIf_ok, bounded_ok, each_ok, Decidable.not_not, letters, short, nonempty,
    not_false_eq_true, true_and, Semver.IsIdentifier, ne_eq, and_assoc]

def dotted (ids : List Text) : Text := List.intercalate ['.'] ids

theorem not_isVersionLetter_point : isVersionLetter '.' = false := by decide

theorem pointless_of_isIdentifier (identifier : Semver.IsIdentifier isVersionLetter t) : '.' ∉ t := fun member => by
  have letter := identifier.2 _ member
  rw [not_isVersionLetter_point] at letter
  cases letter

variable {ids : List Text}

theorem splitOn_dotted (identifiers : ∀ id ∈ ids, Semver.IsIdentifier isVersionLetter id)
    (nonempty : ids ≠ []) : (dotted ids).splitOn '.' = ids :=
  List.splitOn_intercalate '.' (fun id member => pointless_of_isIdentifier (identifiers id member)) nonempty

theorem dotted_splitOn (text : Text) : dotted (text.splitOn '.') = text := List.intercalate_splitOn '.'

theorem exists_map_eq {α : Type} {P : α → Prop} {write : α → Text} {ts : List Text}
    (each : ∀ t ∈ ts, ∃ a, P a ∧ write a = t) : ∃ as : List α, (∀ a ∈ as, P a) ∧ as.map write = ts := by
  induction ts with
  | nil => exact ⟨[], nofun, rfl⟩
  | cons t ts ih =>
    obtain ⟨a, first, rfl⟩ := each t List.mem_cons_self
    obtain ⟨as, others, rfl⟩ := ih fun u member => each u (List.mem_cons_of_mem _ member)
    exact ⟨a :: as, List.forall_mem_cons.mpr ⟨first, others⟩, rfl⟩

/-! Versions. -/

def joined (ids : List Text) : Option Text := if ids = [] then none else some (dotted ids)

theorem suffix_eq (mark : Char) (ids : List Text) : Semver.suffix mark ids = (joined ids).elim [] (mark :: ·) := by
  unfold Semver.suffix joined dotted
  split_ifs <;> rfl

def Version.of (p : Semver.Version) : Version where
  major := p.major
  minor := p.minor
  patch := p.patch
  prerelease := joined (p.prerelease.map Semver.Identifier.text)
  build := joined p.build
  raw := p.text

structure Accepted (p : Semver.Version) : Prop where
  wellFormed : p.WellFormed isVersionLetter
  major : p.major ≤ U32_MAX
  minor : p.minor ≤ U32_MAX
  patch : p.patch ≤ U32_MAX
  short : byteLen p.text ≤ MAX_VERSION_LEN

def isVersionChar (c : Char) : Bool := c.isAlphanum ∨ c = '.' ∨ c = '-' ∨ c = '+' ∨ c = '_'

structure Stages (raw withoutBuild core : Text) (build prerelease : Option Text) : Prop where
  nonempty : raw ≠ []
  short : byteLen raw ≤ MAX_VERSION_LEN
  chars : ∀ c ∈ raw, isVersionChar c = true
  unmarked : '+' ∉ withoutBuild
  built : raw = withoutBuild ++ build.elim [] ('+' :: ·)
  build : ∀ b ∈ build, b ≠ [] ∧ '+' ∉ b ∧ ∀ id ∈ b.splitOn '.', Semver.IsIdentifier isVersionLetter id
  undashed : '-' ∉ core
  prereleased : withoutBuild = core ++ prerelease.elim [] ('-' :: ·)
  prerelease : ∀ pre ∈ prerelease, pre ≠ [] ∧ ∀ id ∈ pre.splitOn '.', ∃ i, IsPrerelease i ∧ i.text = id

theorem not_mem_number_point (n : Nat) : '.' ∉ number n := not_mem_number (by decide)

variable {v : Version}

theorem core_ok {core : Text} {read : Text → Except PackageError Nat} {e : PackageError} {f : Nat → Nat → Nat → Version}
    (spec : ∀ part n, read part = .ok n ↔ part = number n ∧ n ≤ U32_MAX) :
    (match core.splitOn '.' with
      | [x, y, z] => do
        let a ← read x
        let b ← read y
        let c ← read z
        .ok (f a b c)
      | _ => .error e) = .ok v ↔ ∃ a b c, core = number a ++ '.' :: (number b ++ '.' :: number c) ∧
        (a ≤ U32_MAX ∧ b ≤ U32_MAX ∧ c ≤ U32_MAX) ∧ v = f a b c := by
  constructor
  · intro done
    split at done
    · rename_i x y z split
      simp only [bind_ok_iff, spec, Except.ok.injEq] at done
      obtain ⟨a, ⟨rfl, smallA⟩, b, ⟨rfl, smallB⟩, c, ⟨rfl, smallC⟩, rfl⟩ := done
      exact ⟨a, b, c, (splitOn_eq_three.mp split).2, ⟨smallA, smallB, smallC⟩, rfl⟩
    · cases done
  · rintro ⟨a, b, c, rfl, ⟨smallA, smallB, smallC⟩, rfl⟩
    have split := splitOn_eq_three.mpr
      ⟨⟨not_mem_number_point a, not_mem_number_point b, not_mem_number_point c⟩, rfl⟩
    rw [split]
    simp only [bind_ok_iff, spec, Except.ok.injEq]
    exact ⟨a, ⟨rfl, smallA⟩, b, ⟨rfl, smallB⟩, c, ⟨rfl, smallC⟩, rfl⟩

theorem parse_ok_iff_stages : Version.parse raw = .ok v ↔ ∃ withoutBuild core build prerelease a b c,
      Stages raw withoutBuild core build prerelease ∧
      core = number a ++ '.' :: (number b ++ '.' :: number c) ∧ (a ≤ U32_MAX ∧ b ≤ U32_MAX ∧ c ≤ U32_MAX) ∧
      v = ⟨a, b, c, prerelease, build, raw⟩ := by
  have chars : (raw.all fun c => c.isAlphanum ∨ c = '.' ∨ c = '-' ∨ c = '+' ∨ c = '_') = true ↔
      ∀ c ∈ raw, isVersionChar c = true := List.all_eq_true
  rcases marked : (splitOnce '+' raw).elim (raw, none) fun (a, b) => (a, some b) with ⟨withoutBuild, build⟩
  rcases dashed : (splitOnce '-' withoutBuild).elim (withoutBuild, none) fun (c, pre) => (c, some pre) with ⟨core, prerelease⟩
  have built := splitOnce_elim_eq_iff.mp marked
  have prereleased := splitOnce_elim_eq_iff.mp dashed
  have buildChecks (short : byteLen raw ≤ MAX_VERSION_LEN) (b : Text) (here : b ∈ build) : (b ≠ [] ∧ '+' ∉ b ∧
      validateIdentifiers b "build" false = .ok ()) ↔
      b ≠ [] ∧ '+' ∉ b ∧ ∀ id ∈ b.splitOn '.', Semver.IsIdentifier isVersionLetter id := by
    refine and_congr_right fun nonempty => and_congr_right fun _ => ?_
    obtain rfl := here
    have fits : byteLen b ≤ 64 := by
      rw [built.2, byteLen_append, Option.elim_some, byteLen_cons] at short
      exact (Nat.le_add_left _ _).trans ((Nat.le_add_left _ _).trans short)
    rw [validateIdentifiers_ok nonempty fits]
    simp
  have preChecks (short : byteLen raw ≤ MAX_VERSION_LEN) (pre : Text) (here : pre ∈ prerelease) : (pre ≠ [] ∧
      validateIdentifiers pre "prerelease" true = .ok ()) ↔
      pre ≠ [] ∧ ∀ id ∈ pre.splitOn '.', ∃ i, IsPrerelease i ∧ i.text = id := by
    refine and_congr_right fun nonempty => ?_
    obtain rfl := here
    have fits : byteLen pre ≤ 64 := by
      rw [built.2, prereleased.2, byteLen_append, byteLen_append, Option.elim_some, byteLen_cons] at short
      exact (Nat.le_add_left _ _).trans ((Nat.le_add_left _ _).trans ((Nat.le_add_right _ _).trans short))
    rw [validateIdentifiers_ok nonempty fits]
    refine forall₂_congr fun id _ => ?_
    rw [← isPrerelease_iff]
    simp
  simp only [Version.parse, seq_ok, refuseIf_ok, bounded_ok, each_ok, Decidable.not_not, chars, marked, dashed,
    Option.mem_toList]
  constructor
  · rintro ⟨nonempty, short, allowed, build', pre', cored⟩
    obtain ⟨a, b, c, core_eq, small, rfl⟩ := (core_ok fun _ _ => number_ok).mp cored
    exact ⟨withoutBuild, core, build, prerelease, a, b, c, ⟨nonempty, short, allowed, built.1, built.2,
      fun b here => (buildChecks short b here).mp (build' b here), prereleased.1, prereleased.2,
      fun pre here => (preChecks short pre here).mp (pre' pre here)⟩, core_eq, small, rfl⟩
  · rintro ⟨withoutBuild', core', build', prerelease', a, b, c, stages, core_eq, small, rfl⟩
    obtain ⟨rfl, rfl⟩ := Prod.mk.inj (marked.symm.trans (splitOnce_elim_eq_iff.mpr ⟨stages.unmarked, stages.built⟩))
    obtain ⟨rfl, rfl⟩ := Prod.mk.inj (dashed.symm.trans (splitOnce_elim_eq_iff.mpr ⟨stages.undashed, stages.prereleased⟩))
    exact ⟨stages.nonempty, stages.short, stages.chars, fun b here => (buildChecks stages.short b here).mpr (stages.build b here),
      fun pre here => (preChecks stages.short pre here).mpr (stages.prerelease pre here),
      (core_ok fun _ _ => number_ok).mpr ⟨a, b, c, core_eq, small, rfl⟩⟩

theorem exists_joined {α : Type} {P : α → Prop} {write : α → Text} {text : Option Text}
    (each : ∀ t ∈ text, t ≠ [] ∧ ∀ id ∈ t.splitOn '.', ∃ a, P a ∧ write a = id) :
    ∃ as : List α, (∀ a ∈ as, P a) ∧ joined (as.map write) = text := by
  cases text with
  | none => exact ⟨[], nofun, rfl⟩
  | some t =>
    obtain ⟨-, ids⟩ := each t rfl
    obtain ⟨as, all, split⟩ := exists_map_eq ids
    refine ⟨as, all, ?_⟩
    rw [joined, split, if_neg (List.splitOn_ne_nil _ _), dotted_splitOn]

theorem isVersionLetter_of_mem_joined
    (identifiers : ∀ id ∈ ids, Semver.IsIdentifier isVersionLetter id) (here : t ∈ joined ids)
    (member : c ∈ t) (other : c ≠ '.') : isVersionLetter c = true := by
  unfold joined at here
  split_ifs at here with empty
  · cases here
  · obtain rfl := Option.some_inj.mp here
    obtain ⟨piece, inside, found⟩ := exists_mem_splitOn member other
    rw [splitOn_dotted identifiers empty] at inside
    exact (identifiers piece inside).2 c found

theorem of_joined (identifiers : ∀ id ∈ ids, Semver.IsIdentifier isVersionLetter id)
    (here : t ∈ joined ids) : t ≠ [] ∧ t.splitOn '.' = ids := by
  unfold joined at here
  split_ifs at here with empty
  · cases here
  · obtain rfl := Option.some_inj.mp here
    have split := splitOn_dotted identifiers empty
    refine ⟨fun none => ?_, split⟩
    rw [none, List.splitOn_nil] at split
    exact (identifiers [] (split ▸ List.mem_cons_self)).1 rfl

theorem mem_suffix {mark : Char} (identifiers : ∀ id ∈ ids, Semver.IsIdentifier isVersionLetter id)
    (member : c ∈ Semver.suffix mark ids) : c = mark ∨ c = '.' ∨ isVersionLetter c = true := by
  rw [suffix_eq] at member
  cases here : joined ids with
  | none =>
    rw [here] at member
    cases member
  | some t =>
    rw [here] at member
    rcases List.mem_cons.mp member with same | inside
    · exact .inl same
    · by_cases point : c = '.'
      · exact .inr (.inl point)
      · exact .inr (.inr (isVersionLetter_of_mem_joined identifiers here inside point))

theorem mem_core {p : Semver.Version} (member : c ∈ p.core) : c = '.' ∨ c.isDigit = true := by
  simp only [Semver.Version.core, List.mem_append, List.mem_cons] at member
  rcases member with digit | point | digit | point | digit
  · exact .inr (isDigit_of_mem_number digit)
  · exact .inl point
  · exact .inr (isDigit_of_mem_number digit)
  · exact .inl point
  · exact .inr (isDigit_of_mem_number digit)

theorem isVersionChar_of_isVersionLetter (letter : isVersionLetter c = true) : isVersionChar c = true := by
  simp only [isVersionLetter, isVersionChar, decide_eq_true_eq] at letter ⊢
  tauto

theorem parse_ok_iff : Version.parse raw = .ok v ↔ ∃ p, Accepted p ∧ p.text = raw ∧ v = .of p := by
  rw [parse_ok_iff_stages]
  constructor
  · rintro ⟨withoutBuild, core, build, prerelease, a, b, c, stages, rfl, ⟨smallA, smallB, smallC⟩, rfl⟩
    obtain ⟨pre, written, rfl⟩ := exists_joined stages.prerelease
    obtain ⟨built, identifiers, whole⟩ := @exists_joined _ (Semver.IsIdentifier isVersionLetter) id _
      fun t here => ⟨(stages.build t here).1, fun i member => ⟨i, (stages.build t here).2.2 i member, rfl⟩⟩
    rw [List.map_id] at whole
    subst whole
    have text : (⟨a, b, c, pre, built⟩ : Semver.Version).text = raw := by
      rw [stages.built, stages.prereleased, Semver.Version.text, suffix_eq, suffix_eq]
      rfl
    refine ⟨⟨a, b, c, pre, built⟩, ⟨⟨fun t member => written _ member t rfl, identifiers⟩, smallA, smallB, smallC,
      text ▸ stages.short⟩, text, ?_⟩
    rw [Version.of, text]
  · rintro ⟨p, accepted, rfl, rfl⟩
    have written : ∀ i ∈ p.prerelease, IsPrerelease i := fun i member t same =>
      accepted.wellFormed.prerelease t (same ▸ member)
    have ids : ∀ id ∈ p.prerelease.map Semver.Identifier.text, Semver.IsIdentifier isVersionLetter id := by
      intro id member
      obtain ⟨i, inside, rfl⟩ := List.mem_map.mp member
      exact (written i inside).isIdentifier
    have point : '.' ∈ p.core := by simp [Semver.Version.core]
    refine ⟨p.core ++ Semver.suffix '-' (p.prerelease.map Semver.Identifier.text), p.core, joined p.build,
      joined (p.prerelease.map Semver.Identifier.text), p.major, p.minor, p.patch, ?_, rfl,
      ⟨accepted.major, accepted.minor, accepted.patch⟩, rfl⟩
    refine ⟨?_, accepted.short, ?_, ?_, ?_, ?_, ?_, ?_, ?_⟩
    · exact List.ne_nil_of_mem (List.mem_append_left _ (List.mem_append_left _ point))
    · intro c member
      rw [Semver.Version.text, List.mem_append, List.mem_append] at member
      rcases member with (inCore | inPre) | inBuild
      · rcases mem_core inCore with rfl | digit
        · decide
        · exact isVersionChar_of_isVersionLetter (isVersionLetter_of_isDigit digit)
      · rcases mem_suffix ids inPre with rfl | rfl | letter
        · decide
        · decide
        · exact isVersionChar_of_isVersionLetter letter
      · rcases mem_suffix accepted.wellFormed.build inBuild with rfl | rfl | letter
        · decide
        · decide
        · exact isVersionChar_of_isVersionLetter letter
    · intro plus
      rcases List.mem_append.mp plus with inCore | inPre
      · rcases mem_core inCore with same | digit
        · exact absurd same (by decide)
        · exact absurd digit (by decide)
      · rcases mem_suffix ids inPre with same | same | letter
        · exact absurd same (by decide)
        · exact absurd same (by decide)
        · exact absurd letter (by decide)
    · rw [Semver.Version.text, suffix_eq '+']
    · intro b here
      obtain ⟨nonempty, split⟩ := of_joined accepted.wellFormed.build here
      refine ⟨nonempty, fun plus => ?_, fun id member => accepted.wellFormed.build id (split ▸ member)⟩
      have letter := isVersionLetter_of_mem_joined accepted.wellFormed.build here plus (by decide)
      exact absurd letter (by decide)
    · intro dash
      rcases mem_core dash with same | digit
      · exact absurd same (by decide)
      · exact absurd digit (by decide)
    · rw [suffix_eq]
    · intro pre here
      obtain ⟨nonempty, split⟩ := of_joined ids here
      refine ⟨nonempty, fun id member => ?_⟩
      rw [split] at member
      obtain ⟨i, inside, rfl⟩ := List.mem_map.mp member
      exact ⟨i, written i inside, rfl⟩

end Bitty.Package
