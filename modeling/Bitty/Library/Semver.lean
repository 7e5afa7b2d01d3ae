import Bitty.Library.Text

/-! Semantic versions 2.0.0: their syntax, their texts and their precedence. -/

namespace Semver

inductive Identifier
  | numeric (n : Nat)
  | alphanumeric (text : Text)

namespace Identifier

def text : Identifier → Text
  | numeric n => Text.number n
  | alphanumeric t => t

def key : Identifier → ℕ ⊕ₗ Text
  | numeric n => Sum.inlₗ n
  | alphanumeric t => Sum.inrₗ t

theorem key_injective : Function.Injective key := by
  intro a b same
  cases a with
  | numeric m =>
    cases b with
    | numeric n => exact congrArg numeric (Sum.inl_injective same)
    | alphanumeric u => exact absurd same Sum.inl_ne_inr
  | alphanumeric t =>
    cases b with
    | numeric n => exact absurd same Sum.inr_ne_inl
    | alphanumeric u => exact congrArg alphanumeric (Sum.inr_injective same)

instance : LinearOrder Identifier := LinearOrder.lift' key key_injective

theorem compare_numeric (m n : Nat) : compare (numeric m) (numeric n) = compare m n := by
  have lt (m n : Nat) (less : m < n) : numeric m < numeric n := Sum.Lex.inl_lt_inl_iff.mpr less
  rcases lt_trichotomy m n with less | rfl | more
  · rw [compare_lt_iff_lt.mpr less, compare_lt_iff_lt.mpr (lt m n less)]
  · rw [compare_eq_iff_eq.mpr (rfl : numeric m = numeric m), compare_eq_iff_eq.mpr (rfl : m = m)]
  · rw [compare_gt_iff_gt.mpr more, compare_gt_iff_gt.mpr (lt n m more)]

theorem compare_alphanumeric (t u : Text) :
    compare (alphanumeric t) (alphanumeric u) = @compare Text LinearOrder.toOrd t u := by
  have lt (t u : Text) (less : t < u) : alphanumeric t < alphanumeric u := Sum.Lex.inr_lt_inr_iff.mpr less
  rcases lt_trichotomy t u with less | rfl | more
  · rw [compare_lt_iff_lt.mpr less, compare_lt_iff_lt.mpr (lt t u less)]
  · rw [compare_eq_iff_eq.mpr (rfl : alphanumeric t = alphanumeric t), compare_eq_iff_eq.mpr (rfl : t = t)]
  · rw [compare_gt_iff_gt.mpr more, compare_gt_iff_gt.mpr (lt u t more)]

theorem compare_numeric_alphanumeric (n : Nat) (t : Text) : compare (numeric n) (alphanumeric t) = .lt :=
  compare_lt_iff_lt.mpr (Sum.Lex.inl_lt_inr n t)

theorem compare_alphanumeric_numeric (n : Nat) (t : Text) : compare (alphanumeric t) (numeric n) = .gt :=
  compare_gt_iff_gt.mpr (Sum.Lex.inl_lt_inr n t)

end Identifier

def suffix (mark : Char) (ids : List Text) : Text := if ids = [] then [] else mark :: List.intercalate ['.'] ids

structure Version where
  major : Nat
  minor : Nat
  patch : Nat
  prerelease : List Identifier
  build : List Text

def IsIdentifier (letter : Char → Bool) (t : Text) : Prop := t ≠ [] ∧ ∀ c ∈ t, letter c = true

namespace Version

def core (v : Version) : Text :=
  Text.number v.major ++ '.' :: (Text.number v.minor ++ '.' :: Text.number v.patch)

def text (v : Version) : Text := v.core ++ suffix '-' (v.prerelease.map Identifier.text) ++ suffix '+' v.build

def suffixes (v : Version) : Text := suffix '-' (v.prerelease.map Identifier.text) ++ suffix '+' v.build

theorem core_append_suffixes (v : Version) : v.core ++ v.suffixes = v.text := (List.append_assoc _ _ _).symm

def release (major minor patch : Nat) : Version := ⟨major, minor, patch, [], []⟩

/-- What the syntax asks for beyond its shape: identifiers of letters, and numbers where there are only digits. -/
structure WellFormed (letter : Char → Bool) (v : Version) : Prop where
  prerelease : ∀ t, .alphanumeric t ∈ v.prerelease → IsIdentifier letter t ∧ t.all Char.isDigit = false
  build : ∀ t ∈ v.build, IsIdentifier letter t

/-- A version stands above its prereleases, and a list of identifiers above its beginnings. -/
def key (v : Version) : ℕ ×ₗ ℕ ×ₗ ℕ ×ₗ WithTop (List Identifier) :=
  toLex (v.major, toLex (v.minor, toLex (v.patch, if v.prerelease = [] then ⊤ else ↑v.prerelease)))

def precedence (v w : Version) : Ordering := compare v.key w.key

theorem key_eq_iff {v w : Version} : v.key = w.key ↔
    v.major = w.major ∧ v.minor = w.minor ∧ v.patch = w.patch ∧ v.prerelease = w.prerelease := by
  have top : (if v.prerelease = [] then ⊤ else (v.prerelease : WithTop (List Identifier))) =
      (if w.prerelease = [] then ⊤ else (w.prerelease : WithTop (List Identifier))) ↔ v.prerelease = w.prerelease := by
    split_ifs with none none' none'
    · simp [none, none']
    · simp [none, Ne.symm none']
    · simp [none, none']
    · exact WithTop.coe_inj
  rw [key, key, EmbeddingLike.apply_eq_iff_eq, Prod.mk.injEq, EmbeddingLike.apply_eq_iff_eq, Prod.mk.injEq,
    EmbeddingLike.apply_eq_iff_eq, Prod.mk.injEq, top]

@[simp] theorem precedence_self (v : Version) : v.precedence v = .eq := compare_eq_iff_eq.mpr rfl

theorem precedence_swap (v w : Version) : (v.precedence w).swap = w.precedence v := by
  unfold precedence
  rcases lt_trichotomy v.key w.key with less | same | more
  · rw [compare_lt_iff_lt.mpr less, compare_gt_iff_gt.mpr less]
    rfl
  · rw [compare_eq_iff_eq.mpr same, compare_eq_iff_eq.mpr same.symm]
    rfl
  · rw [compare_gt_iff_gt.mpr more, compare_lt_iff_lt.mpr more]
    rfl

theorem precedence_trans {u v w : Version} (first : u.precedence v ≠ .gt) (second : v.precedence w ≠ .gt) :
    u.precedence w ≠ .gt :=
  compare_le_iff_le.mpr ((compare_le_iff_le.mp first).trans (compare_le_iff_le.mp second))

def Below (v w : Version) : Prop :=
  v.major < w.major ∨ v.major = w.major ∧ (v.minor < w.minor ∨ v.minor = w.minor ∧ v.patch < w.patch)

instance (v w : Version) : Decidable (v.Below w) := inferInstanceAs (Decidable (_ ∨ _))

def SameCore (v w : Version) : Prop := v.major = w.major ∧ v.minor = w.minor ∧ v.patch = w.patch

instance (v w : Version) : Decidable (v.SameCore w) := inferInstanceAs (Decidable (_ ∧ _))

theorem precedence_release_lt {v : Version} {a b c : Nat} :
    v.precedence (release a b c) = .lt ↔ v.Below (release a b c) ∨ v.SameCore (release a b c) ∧ v.prerelease ≠ [] := by
  have top : (if v.prerelease = [] then ⊤ else (v.prerelease : WithTop (List Identifier))) < ⊤ ↔ v.prerelease ≠ [] := by
    split_ifs with none
    · simp [none]
    · simp [none]
  rw [precedence, compare_lt_iff_lt]
  simp only [key, Prod.Lex.toLex_lt_toLex, Below, SameCore, release, if_true, top]
  tauto

theorem SameCore.of_precedence {v w : Version} (same : v.precedence w = .eq) : v.SameCore w := by
  have keys := key_eq_iff.mp (compare_eq_iff_eq.mp same)
  exact ⟨keys.1, keys.2.1, keys.2.2.1⟩

end Version

end Semver
