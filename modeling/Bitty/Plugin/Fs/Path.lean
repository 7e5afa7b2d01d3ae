import Bitty.Library.Pattern

namespace Bitty.Plugin.Fs

open Text

def MAX_FS_PATH_BYTES : Nat := 4096

def isSeparator (c : Char) : Bool := c = '/' ∨ c = '\\'

def splitSegments (path : Text) : List Text := path.splitOnP isSeparator

def isNoop (segment : Text) : Bool := segment = [] ∨ segment = ['.']

/-- The leading run stays, later segments that name no file fall away. -/
def normalizeSegments (segments : List Text) : List Text :=
  match segments.findIdx? fun segment => !isNoop segment with
  | some root => segments.take root ++ (segments.drop root).filter fun segment => !isNoop segment
  | none => []

def isDrivePath : Text → Bool
  | letter :: ':' :: separator :: _ => letter.isAlpha && isSeparator separator
  | _ => false

def isAbsolutePath (path : Text) : Bool := path.head? = some '/' ∨ path.take 2 = ['\\', '\\'] ∨ isDrivePath path

def escapeKeySegment (segment : Text) : Text := segment.flatMap fun c => if c = '\\' ∨ c = '|' then ['\\', c] else [c]

def keyMarker (path : Text) : List Text :=
  let leading := (splitSegments path).takeWhile isNoop
  if 0 < leading.length then "rel".toList :: leading else if isAbsolutePath path then [[]] else []

def normalizeRequestPath (path : Text) : Option Text :=
  if path = [] ∨ MAX_FS_PATH_BYTES < byteLen path ∨ '\x00' ∈ path then none
  else if path.any isControl then none
  else
    let normalized := normalizeSegments (splitSegments path)
    if normalized = [] then none
    else some (List.intercalate ['|'] (keyMarker path ++ normalized.map fun segment => escapeKeySegment (lower segment)))

def keySegmentsFrom (current : Text) (escaped : Bool) : Text → List Text
  | [] => [if escaped then current ++ ['\\'] else current]
  | c :: rest =>
    if escaped then keySegmentsFrom (current ++ [c]) false rest
    else if c = '\\' then keySegmentsFrom current true rest
    else if c = '|' then current :: keySegmentsFrom [] false rest
    else keySegmentsFrom (current ++ [c]) false rest

def keySegments (key : Text) : List Text := keySegmentsFrom [] false key

def cleaned (path : Text) : List Text := (splitSegments path).filter fun segment => !isNoop segment

def leading (path : Text) : List Text := (splitSegments path).takeWhile isNoop

theorem normalizeSegments_eq (segments : List Text) : normalizeSegments segments =
    if (segments.filter fun segment => !isNoop segment) = [] then []
    else segments.takeWhile isNoop ++ segments.filter fun segment => !isNoop segment := by
  unfold normalizeSegments
  cases found : segments.findIdx? fun segment => !isNoop segment with
  | none =>
    have noops := List.findIdx?_eq_none_iff.mp found
    rw [if_pos (List.filter_eq_nil_iff.mpr fun segment member => by simp [noops segment member])]
  | some root =>
    obtain ⟨inside, here, before⟩ := List.findIdx?_eq_some_iff_getElem.mp found
    have member : segments[root] ∈ segments.filter fun segment => !isNoop segment :=
      List.mem_filter.mpr ⟨List.getElem_mem inside, here⟩
    rw [if_neg (List.ne_nil_of_mem member)]
    have place : segments.findIdx (fun segment => !isNoop segment) = root := (List.findIdx?_eq_some_iff_findIdx_eq.mp found).2
    have start : segments.takeWhile isNoop = segments.take root := by
      rw [List.takeWhile_eq_take_findIdx_not, place]
    have nothing : (segments.take root).filter (fun segment => !isNoop segment) = [] := by
      refine List.filter_eq_nil_iff.mpr fun segment early => ?_
      rw [← start] at early
      simp [List.mem_takeWhile_imp early]
    have split : segments.filter (fun segment => !isNoop segment) =
        (segments.drop root).filter fun segment => !isNoop segment := by
      rw [← List.nil_append (List.filter _ (segments.drop root)), ← nothing, ← List.filter_append, List.take_append_drop]
    rw [start, split]

theorem normalizeSegments_splitSegments (path : Text) : normalizeSegments (splitSegments path) =
    if cleaned path = [] then [] else leading path ++ cleaned path := normalizeSegments_eq _

def keyParts (path : Text) : List Text := keyMarker path ++ (normalizeSegments (splitSegments path)).map lower

theorem keySegmentsFrom_escape (current segment rest : Text) :
    keySegmentsFrom current false (escapeKeySegment segment ++ rest) = keySegmentsFrom (current ++ segment) false rest := by
  induction segment generalizing current with
  | nil => simp [escapeKeySegment]
  | cons c others ih =>
    have split : escapeKeySegment (c :: others) = (if c = '\\' ∨ c = '|' then ['\\', c] else [c]) ++ escapeKeySegment others := by
      simp [escapeKeySegment]
    have next := ih (current ++ [c])
    rw [List.append_assoc, List.singleton_append] at next
    rw [split]
    by_cases special : c = '\\' ∨ c = '|'
    · rw [if_pos special]
      simpa [keySegmentsFrom] using next
    · rw [if_neg special]
      obtain ⟨backslash, bar⟩ := not_or.mp special
      simpa [keySegmentsFrom, backslash, bar] using next

theorem keySegments_intercalate {parts : List Text} (some : parts ≠ []) :
    keySegments (List.intercalate ['|'] (parts.map escapeKeySegment)) = parts := by
  induction parts with
  | nil => exact absurd rfl some
  | cons part rest ih =>
    unfold keySegments at ih ⊢
    cases rest with
    | nil =>
      have read := keySegmentsFrom_escape [] part []
      simpa [keySegmentsFrom] using read
    | cons next others =>
      have read := keySegmentsFrom_escape [] part ('|' :: List.intercalate ['|'] ((next :: others).map escapeKeySegment))
      have later := ih (List.cons_ne_nil _ _)
      have join : List.intercalate ['|'] ((part :: next :: others).map escapeKeySegment) =
          escapeKeySegment part ++ '|' :: List.intercalate ['|'] ((next :: others).map escapeKeySegment) := by
        simp [List.intercalate_cons_cons]
      rw [join, read, List.nil_append, keySegmentsFrom, if_neg Bool.false_ne_true, if_neg (by decide), if_pos rfl, later]

theorem escapeKeySegment_noop {segment : Text} (noop : isNoop segment = true) : escapeKeySegment segment = segment := by
  rcases of_decide_eq_true noop with rfl | rfl
  · rfl
  · rfl

theorem escape_keyMarker (path : Text) : (keyMarker path).map escapeKeySegment = keyMarker path := by
  unfold keyMarker
  dsimp only
  split
  next =>
    have noops : ((splitSegments path).takeWhile isNoop).map escapeKeySegment = (splitSegments path).takeWhile isNoop := by
      refine (List.map_congr_left fun segment member => ?_).trans (List.map_id _)
      exact escapeKeySegment_noop (List.mem_takeWhile_imp member)
    rw [List.map_cons, noops]
    rfl
  next =>
    split
    next => rfl
    next => rfl

theorem normalizeRequestPath_eq {path key : Text} (represented : normalizeRequestPath path = some key) :
    cleaned path ≠ [] ∧ key = List.intercalate ['|'] ((keyParts path).map escapeKeySegment) := by
  unfold normalizeRequestPath at represented
  split at represented
  next => cases represented
  next =>
    split at represented
    next => cases represented
    next =>
      dsimp only at represented
      split at represented
      next => cases represented
      next nonempty =>
        refine ⟨fun empty => nonempty ?_, ?_⟩
        · rw [normalizeSegments_splitSegments]
          exact if_pos empty
        · rw [← Option.some.inj represented, keyParts, List.map_append, escape_keyMarker, List.map_map]
          rfl

theorem isNoop_lower (segment : Text) : isNoop (lower segment) = isNoop segment := by
  have dot : lower segment = ['.'] ↔ segment = ['.'] := lower_eq_iff (by decide)
  simp only [isNoop, lower_eq_nil, dot]

theorem filter_lower (segments : List Text) : (segments.map lower).filter (fun segment => !isNoop segment) =
    (segments.filter fun segment => !isNoop segment).map lower := by
  rw [List.filter_map]
  exact congrArg (List.map lower) (List.filter_congr fun segment _ => by simp [isNoop_lower])

theorem filter_leading (path : Text) : (leading path).filter (fun segment => !isNoop segment) = [] := by
  refine List.filter_eq_nil_iff.mpr fun segment member => ?_
  simp [List.mem_takeWhile_imp member]

/-- What a key tells of its path: the segments that name something, in lower case. -/
def recover (parts : List Text) : List Text :=
  if (parts[1]?).any isNoop then (parts.filter fun part => !isNoop part).tail else parts.filter fun part => !isNoop part

theorem recover_keyParts {path : Text} (some : cleaned path ≠ []) : recover (keyParts path) = (cleaned path).map lower := by
  have normalized : normalizeSegments (splitSegments path) = leading path ++ cleaned path := by
    rw [normalizeSegments_splitSegments]
    exact if_neg some
  have named : ∀ segment ∈ (cleaned path).map lower, isNoop segment = false := by
    intro segment member
    obtain ⟨original, found, rfl⟩ := List.mem_map.mp member
    simpa [isNoop_lower] using (List.mem_filter.mp found).2
  have kept : ((leading path ++ cleaned path).map lower).filter (fun part => !isNoop part) = (cleaned path).map lower := by
    rw [filter_lower, List.filter_append, filter_leading, List.nil_append, cleaned, List.filter_filter]
    simp
  unfold keyParts keyMarker
  rw [normalized]
  change recover ((if 0 < (leading path).length then "rel".toList :: leading path
    else if isAbsolutePath path then [[]] else []) ++ _) = _
  by_cases lead : leading path = []
  · rw [lead, if_neg (by simp), List.nil_append]
    rw [lead, List.nil_append] at kept
    have second (parts : List Text) (plain : ∀ part ∈ parts, isNoop part = false) (n : Nat) : (parts[n]?).any isNoop = false := by
      cases found : parts[n]? with
      | none => rfl
      | some part => exact plain part (List.mem_of_getElem? found)
    by_cases root : isAbsolutePath path = true
    · rw [if_pos root, recover, List.singleton_append, List.getElem?_cons_succ, second _ named]
      simpa [isNoop] using kept
    · rw [if_neg root, recover, List.nil_append, second _ named]
      simpa using kept
  · obtain ⟨front, others, run⟩ := List.exists_cons_of_ne_nil lead
    have member : front ∈ leading path := by
      rw [run]
      exact List.mem_cons_self
    have noop : isNoop front = true := List.mem_takeWhile_imp member
    have nothing := filter_leading path
    have mark : isNoop "rel".toList = false := by decide
    rw [if_pos (List.length_pos_of_ne_nil lead), recover, List.cons_append, List.getElem?_cons_succ, List.filter_cons, mark,
      List.filter_append, nothing, kept]
    simp [run, noop]

theorem cleaned_of_key {p q key : Text} (first : normalizeRequestPath p = some key) (second : normalizeRequestPath q = some key) :
    (cleaned p).map lower = (cleaned q).map lower := by
  obtain ⟨some, rfl⟩ := normalizeRequestPath_eq first
  obtain ⟨some', same⟩ := normalizeRequestPath_eq second
  have parts (path : Text) (some : cleaned path ≠ []) : keyParts path ≠ [] := by
    intro empty
    have recovered := recover_keyParts some
    rw [empty] at recovered
    exact some (List.map_eq_nil_iff.mp recovered.symm)
  have read := congrArg keySegments same
  rw [keySegments_intercalate (parts p some), keySegments_intercalate (parts q some')] at read
  rw [← recover_keyParts some, ← recover_keyParts some', read]

theorem any_splitOnP {p q : Char → Bool} (apart : ∀ c, p c = true → q c = false) (s : Text) :
    (s.splitOnP p).any (fun segment => segment.any q) = s.any q := by
  induction s with
  | nil => rfl
  | cons c rest ih =>
    rw [List.splitOnP_cons_eq_if_modifyHead]
    split
    next separator =>
      rw [List.any_cons, ih, List.any_cons, apart c separator]
      rfl
    next =>
      obtain ⟨first, others, pieces⟩ := List.exists_cons_of_ne_nil (List.splitOnP_ne_nil p rest)
      rw [pieces] at ih ⊢
      rw [List.any_cons] at ih
      rw [List.modifyHead_cons, List.any_cons, List.any_cons, List.any_cons, Bool.or_assoc, ih]

theorem any_isControl_cleaned (path : Text) : (cleaned path).any (fun segment => segment.any isControl) = path.any isControl := by
  have separators (c : Char) (separator : isSeparator c = true) : isControl c = false := by
    rcases of_decide_eq_true separator with rfl | rfl
    · decide
    · decide
  rw [← any_splitOnP separators, cleaned, List.any_filter]
  refine congrArg ((splitSegments path).any ·) (funext fun segment => ?_)
  by_cases noop : isNoop segment = true
  · have plain : segment.any isControl = false := by
      rcases of_decide_eq_true noop with rfl | rfl
      · rfl
      · decide
    simp [noop, plain]
  · simp [noop]

def Alike (p q : Text) : Prop := (cleaned p).map lower = (cleaned q).map lower

instance (p q : Text) : Decidable (Alike p q) := inferInstanceAs (Decidable (_ = _))

theorem Alike.cleaned_nil {p q : Text} (alike : Alike p q) : cleaned p = [] ↔ cleaned q = [] := by
  rw [← List.map_eq_nil_iff (f := lower), alike, List.map_eq_nil_iff]

theorem Alike.symm {p q : Text} (alike : Alike p q) : Alike q p := Eq.symm alike

theorem Alike.any {p q : Text} (alike : Alike p q) {test : Text → Bool} (insensitive : ∀ s, test (lower s) = test s) :
    (cleaned p).any test = (cleaned q).any test := by
  have read (segments : List Text) : (segments.map lower).any test = segments.any test := by
    rw [List.any_map]
    exact congrArg (segments.any ·) (funext insensitive)
  rw [← read (cleaned p), alike, read]

theorem Alike.control {p q : Text} (alike : Alike p q) : p.any isControl = q.any isControl := by
  rw [← any_isControl_cleaned, ← any_isControl_cleaned]
  exact alike.any any_isControl_lower

theorem normalizeRequestPath_some (path : Text) : normalizeRequestPath path =
    if cleaned path = [] ∨ MAX_FS_PATH_BYTES < byteLen path ∨ path.any isControl = true then none
    else some (List.intercalate ['|'] ((keyParts path).map escapeKeySegment)) := by
  have normalized : normalizeSegments (splitSegments path) = [] ↔ cleaned path = [] := by
    rw [normalizeSegments_splitSegments]
    by_cases empty : cleaned path = []
    · exact iff_of_true (if_pos empty) empty
    · refine iff_of_false (fun nothing => ?_) empty
      rw [if_neg empty] at nothing
      exact empty (List.append_eq_nil_iff.mp nothing).2
  have written : keyMarker path ++ (normalizeSegments (splitSegments path)).map (fun segment => escapeKeySegment (lower segment)) =
      (keyParts path).map escapeKeySegment := by
    rw [keyParts, List.map_append, escape_keyMarker, List.map_map]
    rfl
  unfold normalizeRequestPath
  dsimp only
  rw [written]
  by_cases control : path.any isControl = true
  · simp [control]
  · have noNul : '\x00' ∉ path := fun member => control (List.any_eq_true.mpr ⟨_, member, by decide⟩)
    by_cases empty : cleaned path = []
    · simp [normalized.mpr empty, empty]
    · have some : path ≠ [] := by
        rintro rfl
        exact empty (by decide)
      simp [some, noNul, control, empty, mt normalized.mp empty]

theorem Alike.normalized {p q : Text} (alike : Alike p q) (run : leading p = leading q) :
    (normalizeSegments (splitSegments p)).map lower = (normalizeSegments (splitSegments q)).map lower := by
  rw [normalizeSegments_splitSegments, normalizeSegments_splitSegments]
  by_cases empty : cleaned p = []
  · rw [if_pos empty, if_pos (alike.cleaned_nil.mp empty)]
  · rw [if_neg empty, if_neg (mt alike.cleaned_nil.mpr empty), List.map_append, List.map_append, run, alike]

theorem Alike.key {p q : Text} (alike : Alike p q) (run : leading p = leading q) (relative : isAbsolutePath p = false)
    (relative' : isAbsolutePath q = false) (bound : byteLen p ≤ MAX_FS_PATH_BYTES) (bound' : byteLen q ≤ MAX_FS_PATH_BYTES) :
    normalizeRequestPath p = normalizeRequestPath q := by
  have parts : keyParts p = keyParts q := by
    have marker : keyMarker p = keyMarker q := by
      unfold keyMarker
      rw [relative, relative']
      change (if 0 < (leading p).length then _ :: leading p else _) = if 0 < (leading q).length then _ :: leading q else _
      rw [run]
    rw [keyParts, keyParts, marker, alike.normalized run]
  rw [normalizeRequestPath_some, normalizeRequestPath_some, alike.control, parts]
  simp [alike.cleaned_nil, Nat.not_lt.mpr bound, Nat.not_lt.mpr bound']

theorem Alike.parents {p q : Text} (alike : Alike p q) : ['.', '.'] ∈ splitSegments p ↔ ['.', '.'] ∈ splitSegments q := by
  have read (path : Text) : ['.', '.'] ∈ splitSegments path ↔ (cleaned path).any (fun segment => segment = ['.', '.']) = true := by
    rw [List.any_eq_true]
    constructor
    · exact fun member => ⟨_, List.mem_filter.mpr ⟨member, by decide⟩, by decide⟩
    · rintro ⟨segment, member, same⟩
      exact of_decide_eq_true same ▸ List.mem_of_mem_filter member
  have insensitive (segment : Text) : (decide (lower segment = ['.', '.'])) = decide (segment = ['.', '.']) := by
    rw [decide_eq_decide]
    exact lower_eq_iff (by decide)
  rw [read, read, alike.any insensitive]

end Bitty.Plugin.Fs
