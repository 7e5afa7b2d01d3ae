import Bitty.Plugin.Fs.Path

namespace Bitty.Plugin.Fs

open Text

def FS_SENSITIVE_HOME_NAMES : List Text := [".ssh", ".gnupg", ".aws", ".azure", ".kube", ".docker"].map String.toList

def FS_SENSITIVE_HOME_PREFIXES : List (List Text) :=
  [["~", ".config", "gh"].map String.toList, ["~", ".config", "gcloud"].map String.toList]

def isLiteralFsSegment (segment : Text) : Bool :=
  !isNoop segment && segment.all fun c => c ∉ ['*', '?', '[', ']', '\x7b', '\x7d']

/-- `split_at`, which panics inside a character. -/
def splitAtByte : Nat → Text → Option (Text × Text)
  | 0, text => some ([], text)
  | _, [] => none
  | n, c :: rest => if c.utf8Size ≤ n then (splitAtByte (n - c.utf8Size) rest).map fun (a, b) => (c :: a, b) else none

/-- Whether a segment names a Windows device; there is no answer where the source panics. -/
def isWindowsDeviceSegment (segment : Text) : Option Bool :=
  let base := segment.takeWhile fun c => c ≠ '.' ∧ c ≠ ':'
  if lower base ∈ ["nul", "con", "prn", "aux"].map String.toList then some true
  else if 3 < byteLen base then
    (splitAtByte 3 base).map fun (head, tail) =>
      lower head ∈ ["com", "lpt"].map String.toList && tail ≠ [] && tail.all Char.isDigit
  else some false

def namesCredentials (normalized : List Text) : Bool :=
  (normalized.any fun segment => lower segment ∈ FS_SENSITIVE_HOME_NAMES) ||
    FS_SENSITIVE_HOME_PREFIXES.any fun start => start.length ≤ normalized.length && (normalized.take start.length).map lower = start

def isHostileFsPattern (pattern : Text) : Option Bool :=
  let segments := splitSegments pattern
  let homeScoped := segments.head? = some ['~']
  if isAbsolutePath pattern then some true
  else if pattern.head? = some '~' ∧ ¬homeScoped then some true
  else if ['.', '.'] ∈ segments then some true
  else
    ((segments.filter fun segment => !isNoop segment).anyM isWindowsDeviceSegment).map fun device =>
      device || homeScoped && !((normalizeSegments segments)[1]?).any isLiteralFsSegment ||
        namesCredentials (normalizeSegments segments)

theorem splitAtByte_lower (n : Nat) (s : Text) :
    splitAtByte n (lower s) = (splitAtByte n s).map fun (a, b) => (lower a, lower b) := by
  induction s generalizing n with
  | nil =>
    cases n with
    | zero => rfl
    | succ n => rfl
  | cons c rest ih =>
    cases n with
    | zero => rfl
    | succ n =>
      rw [lower_cons, splitAtByte.eq_3 _ _ _ (by simp), splitAtByte.eq_3 _ _ _ (by simp), utf8Size_toLower, ih]
      split
      next => simp [Option.map_map, Function.comp_def, lower_cons]
      next => rfl

theorem isWindowsDeviceSegment_lower (segment : Text) : isWindowsDeviceSegment (lower segment) = isWindowsDeviceSegment segment := by
  have base : (lower segment).takeWhile (fun c => c ≠ '.' ∧ c ≠ ':') =
      lower (segment.takeWhile fun c => c ≠ '.' ∧ c ≠ ':') := by
    rw [lower, List.takeWhile_map]
    refine congrArg lower (congrArg (segment.takeWhile ·) (funext fun c => ?_))
    have dot : c.toLower = '.' ↔ c = '.' := toLower_eq_iff (by decide)
    have colon : c.toLower = ':' ↔ c = ':' := toLower_eq_iff (by decide)
    simp [dot, colon]
  have digits (tail : Text) : (lower tail).all Char.isDigit = tail.all Char.isDigit := by
    rw [lower, List.all_map]
    exact congrArg (tail.all ·) (funext isDigit_toLower)
  unfold isWindowsDeviceSegment
  dsimp only
  rw [base, lower_lower, byteLen_lower, splitAtByte_lower, Option.map_map]
  simp only [Function.comp_def, lower_lower, digits, ne_eq, lower_eq_nil]

theorem Alike.device {p q : Text} (alike : Alike p q) :
    (cleaned p).anyM isWindowsDeviceSegment = (cleaned q).anyM isWindowsDeviceSegment := by
  have read (segments : List Text) : (segments.map lower).anyM isWindowsDeviceSegment = segments.anyM isWindowsDeviceSegment := by
    induction segments with
    | nil => rfl
    | cons segment rest ih => rw [List.map_cons, List.anyM, List.anyM, isWindowsDeviceSegment_lower, ih]
  rw [← read (cleaned p), alike, read]

def HomeRooted (path : Text) : Prop := (splitSegments path).head? = some ['~']

instance (path : Text) : Decidable (HomeRooted path) := inferInstanceAs (Decidable (_ = _))

theorem head_of_splitSegments {path segment : Text} {c : Char} (first : (splitSegments path).head? = some (c :: segment)) :
    path.head? = some c := by
  cases path with
  | nil => cases first
  | cons d rest =>
    rw [splitSegments, List.splitOnP_cons_eq_if_modifyHead] at first
    split at first
    next => cases first
    next =>
      obtain ⟨front, others, pieces⟩ := List.exists_cons_of_ne_nil (List.splitOnP_ne_nil isSeparator rest)
      rw [pieces, List.modifyHead_cons, List.head?_cons] at first
      rw [List.head?_cons, (List.cons.inj (Option.some.inj first)).1]

theorem head?_leading_append_cleaned (path : Text) : (leading path ++ cleaned path).head? = (splitSegments path).head? := by
  unfold leading cleaned
  obtain ⟨front, others, pieces⟩ := List.exists_cons_of_ne_nil (List.splitOnP_ne_nil isSeparator path)
  change splitSegments path = front :: others at pieces
  rw [pieces]
  by_cases noop : isNoop front = true
  · simp [noop]
  · simp [noop]

theorem tilde_iff (path : Text) : path.head? = some '~' ↔ ∃ segment, (splitSegments path).head? = some ('~' :: segment) := by
  constructor
  · intro start
    obtain ⟨rest, rfl⟩ := List.head?_eq_some_iff.mp start
    obtain ⟨front, others, pieces⟩ := List.exists_cons_of_ne_nil (List.splitOnP_ne_nil isSeparator rest)
    refine ⟨front, ?_⟩
    rw [splitSegments, List.splitOnP_cons_eq_if_modifyHead, if_neg (by decide), pieces]
    rfl
  · rintro ⟨segment, first⟩
    exact head_of_splitSegments first

theorem Alike.tilde {p q : Text} (alike : Alike p q) (run : leading p = leading q) (some : cleaned p ≠ [])
    (start : p.head? = Option.some '~') : q.head? = Option.some '~' := by
  obtain ⟨segment, first⟩ := (tilde_iff p).mp start
  have heads : ((splitSegments q).head?).map lower = ((splitSegments p).head?).map lower := by
    have same := alike.normalized run
    rw [normalizeSegments_splitSegments, normalizeSegments_splitSegments, if_neg some, if_neg (mt alike.cleaned_nil.mpr some)] at same
    rw [← head?_leading_append_cleaned, ← head?_leading_append_cleaned, ← List.head?_map, ← List.head?_map, same]
  rw [first] at heads
  obtain ⟨segment', first', same⟩ := Option.map_eq_some_iff.mp heads
  cases segment' with
  | nil => cases same
  | cons c others =>
    rw [lower_cons, lower_cons, List.cons.injEq] at same
    have here : c = '~' := (toLower_eq_iff (by decide)).mp same.1
    exact (tilde_iff q).mpr ⟨others, here ▸ first'⟩

theorem hostile_of_tilde {path : Text} (start : path.head? = some '~') (elsewhere : ¬HomeRooted path) :
    isHostileFsPattern path = some true := by
  unfold isHostileFsPattern
  dsimp only
  split
  next => rfl
  next => rw [if_pos ⟨start, elsewhere⟩]

theorem namesCredentials_eq {path : Text} (other : path.head? ≠ some '~') :
    namesCredentials (normalizeSegments (splitSegments path)) =
      (cleaned path).any fun segment => lower segment ∈ FS_SENSITIVE_HOME_NAMES := by
  rw [normalizeSegments_splitSegments]
  by_cases empty : cleaned path = []
  · rw [if_pos empty, empty]
    decide
  · have start : ∀ rest, ((leading path ++ cleaned path).map lower) ≠ ['~'] :: rest := by
      intro rest home
      have first := congrArg List.head? home
      rw [List.head?_map, head?_leading_append_cleaned, List.head?_cons] at first
      obtain ⟨segment, found, tilde⟩ := Option.map_eq_some_iff.mp first
      rw [(lower_eq_iff (by decide)).mp tilde] at found
      exact other (head_of_splitSegments found)
    have quiet : (leading path).any (fun segment => lower segment ∈ FS_SENSITIVE_HOME_NAMES) = false := by
      refine List.any_eq_false.mpr fun segment member => ?_
      have noop : isNoop segment = true := List.mem_takeWhile_imp member
      rcases of_decide_eq_true noop with rfl | rfl
      · decide
      · decide
    have prefixes : (FS_SENSITIVE_HOME_PREFIXES.any fun start => start.length ≤ (leading path ++ cleaned path).length &&
        ((leading path ++ cleaned path).take start.length).map lower = start) = false := by
      refine List.any_eq_false.mpr fun home member => ?_
      obtain ⟨rest, rfl⟩ : ∃ rest, home = ['~'] :: rest := by
        rcases List.mem_cons.mp member with rfl | member
        · exact ⟨_, rfl⟩
        · rcases List.mem_cons.mp member with rfl | member
          · exact ⟨_, rfl⟩
          · cases member
      intro both
      have same := of_decide_eq_true (Bool.and_eq_true _ _ |>.mp both).2
      have whole := congrArg (· ++ ((leading path ++ cleaned path).drop (['~'] :: rest).length).map lower) same
      rw [← List.map_append, List.take_append_drop] at whole
      exact start _ whole
    rw [if_neg empty, namesCredentials, prefixes, Bool.or_false, List.any_append, quiet, Bool.false_or]

theorem Alike.hostile {p q : Text} (alike : Alike p q) (relative : isAbsolutePath p = false) (relative' : isAbsolutePath q = false)
    (other : p.head? ≠ some '~') (other' : q.head? ≠ some '~') : isHostileFsPattern p = isHostileFsPattern q := by
  have home (path : Text) (elsewhere : path.head? ≠ some '~') : (splitSegments path).head? ≠ some ['~'] :=
    fun first => elsewhere (head_of_splitSegments first)
  have names : ((cleaned p).any fun segment => lower segment ∈ FS_SENSITIVE_HOME_NAMES) =
      (cleaned q).any fun segment => lower segment ∈ FS_SENSITIVE_HOME_NAMES :=
    alike.any fun segment => by rw [lower_lower]
  unfold isHostileFsPattern
  dsimp only
  rw [relative, relative', namesCredentials_eq other, namesCredentials_eq other', names]
  change (if _ then _ else if _ then _ else if _ then _ else ((cleaned p).anyM isWindowsDeviceSegment).map _) =
    if _ then _ else if _ then _ else if _ then _ else ((cleaned q).anyM isWindowsDeviceSegment).map _
  rw [alike.device]
  simp only [other, other', home p other, home q other', alike.parents, decide_false, Bool.false_and]

end Bitty.Plugin.Fs
