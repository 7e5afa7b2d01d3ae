import Bitty.Library.Keyed
import Bitty.Plugin.Fs.Hostile

namespace Bitty.Plugin.Fs

open Text

inductive FsError
  | hostilePattern (pattern : Text)
  | invalidRequest (reason : Text)
  | limitExceeded (field : Text) (limit actual : Nat)

def boundedPath (path : Text) : Text :=
  if MAX_FS_PATH_BYTES < byteLen path then ['<'] ++ number (byteLen path) ++ " bytes>".toList else path

/-- There is no answer where the source panics. -/
def validateScopePattern (pattern : Text) : ExceptT FsError Option Unit :=
  if pattern = [] then throw (.invalidRequest "scope pattern must not be empty".toList)
  else if 512 < byteLen pattern then throw (.limitExceeded "scope pattern".toList 512 (byteLen pattern))
  else if pattern.any fun ch => isControl ch ∨ isWhitespace ch then
    throw (.invalidRequest "scope pattern must not contain control characters or whitespace".toList)
  else do
    if ← isHostileFsPattern pattern then throw (.hostilePattern (boundedPath pattern))

structure FilesystemScope where
  patterns : Finset Text
  valid : ∀ pattern ∈ patterns, validateScopePattern pattern = pure ()

namespace FilesystemScope

def empty : FilesystemScope := ⟨∅, by simp⟩

def add (scope : FilesystemScope) (pattern : Text) : ExceptT FsError Option FilesystemScope :=
  match checked : (validateScopePattern pattern).run with
  | none => none
  | some (.error e) => throw e
  | some (.ok ()) => pure ⟨insert pattern scope.patterns, fun other member => by
      rcases Finset.mem_insert.mp member with rfl | earlier
      · exact checked
      · exact scope.valid other earlier⟩

def fromPatterns (patterns : List Text) : ExceptT FsError Option FilesystemScope := patterns.foldlM add empty

end FilesystemScope

def lowerBytes (s : Text) : List UInt8 := (lower s).bytes.toList

def byteOf (c : Char) : UInt8 := c.toNat.toUInt8

def classFrom (byte : UInt8) : List UInt8 → Bool → Bool → Nat → Option (Bool × Nat)
  | [], _, _, _ => none
  | b :: rest, matched, consumedAny, i =>
    if b = byteOf ']' then if consumedAny then some (matched, i + 1) else none
    else
      match rest with
      | dash :: high :: others =>
        if dash = byteOf '-' ∧ high ≠ byteOf ']' then classFrom byte others (matched || b ≤ byte && byte ≤ high) true (i + 3)
        else classFrom byte (dash :: high :: others) (matched || b = byte) true (i + 1)
      | others => classFrom byte others (matched || b = byte) true (i + 1)
termination_by bytes => bytes.length

def matchClass (pattern : List UInt8) (byte : UInt8) : Option Nat :=
  let body := pattern.drop 1
  let negate := body.head? = some (byteOf '^') ∨ body.head? = some (byteOf '!')
  (classFrom byte (if negate then body.drop 1 else body) false false (if negate then 2 else 1)).bind fun (matched, consumed) =>
    if matched ≠ decide negate then some consumed else none

def segmentFront (pattern : List UInt8) (byte : UInt8) : Glob.Verdict :=
  match pattern with
  | [] => .refuse
  | b :: _ =>
    if b = byteOf '[' then (matchClass pattern byte).elim .refuse .consume
    else if b = byteOf '?' ∨ b = byte then .consume 1
    else if b = byteOf '*' then .star
    else .refuse

def segmentMatch (pattern text : List UInt8) : Bool := Glob.greedy (· = byteOf '*') segmentFront pattern text none

def segmentGlobMatch (pattern segment : Text) : Bool := segmentMatch (lowerBytes pattern) (lowerBytes segment)

def globFront (pattern : List Text) (segment : Text) : Glob.Verdict :=
  match pattern with
  | [] => .refuse
  | front :: rest =>
    if front = ['*', '*'] then if rest = [] then .accept else .star
    else if segmentGlobMatch front segment then .consume 1
    else .refuse

def globSegmentsCover (pattern path : List Text) : Bool := Glob.greedy (· = ['*', '*']) globFront pattern path none

def patternCovers (pattern : Text) (normalized : List Text) (rootedHome : Bool) : Bool :=
  let patternNormalized := normalizeSegments (splitSegments pattern)
  if patternNormalized = [] then false
  else if decide (patternNormalized.head? = some ['~']) ≠ rootedHome then false
  else globSegmentsCover patternNormalized normalized

def FilesystemScope.allows (scope : FilesystemScope) (path : Text) : Bool :=
  if path = [] ∨ MAX_FS_PATH_BYTES < byteLen path ∨ '\x00' ∈ path then false
  else if path.any isControl then false
  else if isAbsolutePath path then false
  else
    let segments := splitSegments path
    let normalized := normalizeSegments segments
    if ['.', '.'] ∈ segments then false
    else if normalized = [] then false
    else
      let rootedHome := (segments.takeWhile isNoop).length = 0 ∧ normalized.head? = some ['~']
      ∃ pattern ∈ scope.patterns, patternCovers pattern normalized rootedHome

theorem globSegmentsCover_lower (pattern path : List Text) :
    globSegmentsCover pattern (path.map lower) = globSegmentsCover pattern path := by
  refine Glob.greedy_map lower (fun pattern segment => ?_) pattern path none
  unfold globFront segmentGlobMatch lowerBytes
  rw [lower_lower]

theorem patternCovers_congr {pattern : Text} {first second : List Text} {rootedHome : Bool}
    (same : first.map lower = second.map lower) : patternCovers pattern first rootedHome = patternCovers pattern second rootedHome := by
  unfold patternCovers
  dsimp only
  rw [← globSegmentsCover_lower _ first, same, globSegmentsCover_lower]

theorem Alike.allows {p q : Text} (alike : Alike p q) (run : leading p = leading q) (relative : isAbsolutePath p = false)
    (relative' : isAbsolutePath q = false) (elsewhere : ¬HomeRooted p) (elsewhere' : ¬HomeRooted q)
    (bound : byteLen p ≤ MAX_FS_PATH_BYTES) (bound' : byteLen q ≤ MAX_FS_PATH_BYTES) (scope : FilesystemScope) :
    scope.allows p = scope.allows q := by
  have read (path : Text) (relative : isAbsolutePath path = false) (elsewhere : ¬HomeRooted path)
      (bound : byteLen path ≤ MAX_FS_PATH_BYTES) : scope.allows path =
        if path.any isControl = true ∨ ['.', '.'] ∈ splitSegments path ∨ cleaned path = [] then false
        else ∃ pattern ∈ scope.patterns, patternCovers pattern (normalizeSegments (splitSegments path)) false = true := by
    have empty := normalizeSegments_splitSegments path
    by_cases control : path.any isControl = true
    · simp [FilesystemScope.allows, control]
    · have noNul : '\x00' ∉ path := fun member => control (List.any_eq_true.mpr ⟨_, member, by decide⟩)
      by_cases nothing : cleaned path = []
      · rw [if_pos nothing] at empty
        simp [FilesystemScope.allows, empty, nothing]
      · have some : path ≠ [] := by
          rintro rfl
          exact nothing (by decide)
        rw [if_neg nothing] at empty
        have first : (normalizeSegments (splitSegments path)).head? ≠ Option.some ['~'] := by
          rw [empty, head?_leading_append_cleaned]
          exact elsewhere
        have full : normalizeSegments (splitSegments path) ≠ [] := by
          rw [empty]
          exact List.append_ne_nil_of_right_ne_nil _ nothing
        simp [FilesystemScope.allows, some, noNul, control, relative, nothing, full, first, Nat.not_lt.mpr bound]
  rw [read p relative elsewhere bound, read q relative' elsewhere' bound', alike.control]
  simp only [alike.parents, alike.cleaned_nil, patternCovers_congr (alike.normalized run)]

theorem cleaned_ne_nil_of_allows {scope : FilesystemScope} {path : Text} (allowed : scope.allows path = true) : cleaned path ≠ [] := by
  intro nothing
  have empty : normalizeSegments (splitSegments path) = [] := by
    rw [normalizeSegments_splitSegments]
    exact if_pos nothing
  simp [FilesystemScope.allows, empty] at allowed

end Bitty.Plugin.Fs

namespace Bitty.Plugin.Fs

open Text

def MAX_FS_CONSENTS : Nat := 256

structure FsConsent where
  grantedAtMs : UInt64
  expiresAtMs : Option UInt64

def FsConsent.isActive (consent : FsConsent) (nowMs : UInt64) : Bool :=
  match consent.expiresAtMs with
  | some expiry => nowMs < expiry
  | none => true

def BROWSER_DIRS : List Text := ["google-chrome", "chromium", "brave-browser", "microsoft-edge", "firefox"].map String.toList

def isBrowserDir (segment : Text) : Bool := segment ∈ BROWSER_DIRS ++ ["safari", "default", "profile"].map String.toList

def homePlace : List Text → Option Bool
  | [] => none
  | place :: rest =>
    if place ∈ [".ssh", ".gnupg", ".azure", ".aws", ".kube", ".npmrc", ".pypirc", ".netrc", ".mozilla", "appdata"].map
      String.toList then some true
    else if place = ".docker".toList then
      if rest.head? = some "config.json".toList then some true else if rest = [] then some false else none
    else if place = ".config".toList then
      if (rest.head?).any (· ∈ ["gh", "gcloud"].map String.toList ++ BROWSER_DIRS) then some true else none
    else if place = ".cargo".toList then if rest.head? = some "credentials.toml".toList then some true else none
    else if place = "library".toList then
      if rest.head? = some "keychains".toList then some true
      else if rest.head? = some "application support".toList ∧ (rest[1]?).any (· ∈ BROWSER_DIRS) then some true
      else none
    else none

def isEnvFile (fileName : Text) : Bool := fileName = ".env".toList || ".env.".toList.isPrefixOf fileName

/-- Whether segments end in a file that keeps credentials wherever it stands. -/
def isCredentialFile (segments : List Text) : Bool :=
  let fileName := segments.getLast?.getD []
  fileName ∈ ["login data", "login data-journal", "local state", "web data", "logins.json", "key4.db", "cert9.db", "key3.db"].map
      String.toList ||
    fileName = "cookies".toList && segments.any isBrowserDir ||
    fileName.tails.any ("keychain".toList.isPrefixOf ·) ||
    fileName ∈ ["id_rsa", "id_ed25519", "id_ecdsa", "id_dsa"].map String.toList || ".pem".toList.isSuffixOf fileName

def isDefaultSensitive (normalized : Text) : Bool :=
  let lower := keySegments normalized
  let home := decide (lower.head? = some ['~'])
  if isEnvFile (lower.getLast?.getD []) then true
  else
    match if home then homePlace lower.tail else none with
    | some answer => answer
    | none =>
      home && lower.any (· ∈ [".npmrc", ".pypirc", ".netrc", "credentials.toml", "logins.json", "key4.db"].map String.toList) ||
        isCredentialFile lower

structure SensitivePathPolicy where
  extraDeny : Finset Text
  consents : List (Text × FsConsent)
  bounded : extraDeny.card ≤ MAX_FS_CONSENTS
  once : (consents.map (·.1)).Nodup
  few : consents.length ≤ MAX_FS_CONSENTS

namespace SensitivePathPolicy

theorem few_nil : ([] : List (Text × FsConsent)).length ≤ MAX_FS_CONSENTS := Nat.zero_le _

def defaultPolicy : SensitivePathPolicy := ⟨∅, [], by decide, List.nodup_nil, few_nil⟩

def denyPrefix (policy : SensitivePathPolicy) (denied : Text) : Except FsError SensitivePathPolicy :=
  match normalizeRequestPath denied with
  | none => .error (.invalidRequest "deny prefix must be a representable path".toList)
  | some normalized =>
    if room : policy.extraDeny.card < MAX_FS_CONSENTS then
      .ok { policy with
        extraDeny := insert normalized policy.extraDeny
        bounded := (Finset.card_insert_le _ _).trans room }
    else .error (.limitExceeded "sensitive deny prefixes".toList MAX_FS_CONSENTS (policy.extraDeny.card + 1))

def grantConsent (policy : SensitivePathPolicy) (path : Text) (grantedAtMs : UInt64) (expiresAtMs : Option UInt64) :
    Except FsError SensitivePathPolicy :=
  match normalizeRequestPath path with
  | none => .error (.invalidRequest "consent path must be representable".toList)
  | some normalized =>
    if room : (Keyed.find normalized policy.consents).isSome ∨ policy.consents.length < MAX_FS_CONSENTS then
      .ok { policy with
        consents := Keyed.insert normalized ⟨grantedAtMs, expiresAtMs⟩ policy.consents
        once := Keyed.nodup_insert policy.once
        few := room.elim (fun here => (Keyed.length_insert_of_find here).trans policy.few)
          fun space => Keyed.length_insert_le.trans space }
    else .error (.limitExceeded "sensitive-path consents".toList MAX_FS_CONSENTS (policy.consents.length + 1))

def revokeConsent (policy : SensitivePathPolicy) (path : Text) : SensitivePathPolicy :=
  match normalizeRequestPath path with
  | none => policy
  | some normalized =>
    { policy with
      consents := Keyed.erase normalized policy.consents
      once := Keyed.nodup_erase policy.once
      few := Keyed.length_erase_le.trans policy.few }

def consentActive (policy : SensitivePathPolicy) (normalized : Text) (nowMs : UInt64) : Bool :=
  (Keyed.find normalized policy.consents).any fun consent => consent.isActive nowMs

def deniesExtra (policy : SensitivePathPolicy) (normalized : Text) : Bool :=
  ∃ start ∈ policy.extraDeny, (keySegments start).isPrefixOf (keySegments normalized) = true

def isSensitive (policy : SensitivePathPolicy) (path : Text) : Bool :=
  match normalizeRequestPath path with
  | none => true
  | some normalized => isDefaultSensitive normalized || policy.deniesExtra normalized

end SensitivePathPolicy

theorem keySegments_of_normalize {path key : Text} (represented : normalizeRequestPath path = some key) :
    keySegments key = keyParts path := by
  obtain ⟨some, rfl⟩ := normalizeRequestPath_eq represented
  refine keySegments_intercalate fun empty => some ?_
  have recovered := recover_keyParts some
  rw [empty] at recovered
  exact List.map_eq_nil_iff.mp recovered.symm

theorem keyParts_eq {path : Text} (some : cleaned path ≠ []) (relative : isAbsolutePath path = false) :
    keyParts path = (if leading path = [] then [] else "rel".toList :: leading path ++ leading path) ++ (cleaned path).map lower := by
  have noops : (leading path).map lower = leading path := by
    refine (List.map_congr_left fun segment member => ?_).trans (List.map_id _)
    have noop : isNoop segment = true := List.mem_takeWhile_imp member
    rcases of_decide_eq_true noop with rfl | rfl
    · rfl
    · decide
  unfold keyParts keyMarker
  rw [normalizeSegments_splitSegments, if_neg some, List.map_append, noops, relative]
  change (if 0 < (leading path).length then _ :: leading path else _) ++ _ = _
  by_cases lead : leading path = []
  · simp [lead]
  · rw [if_pos (List.length_pos_of_ne_nil lead), if_neg lead]
    simp

theorem isDefaultSensitive_key {path key : Text} (represented : normalizeRequestPath path = some key)
    (relative : isAbsolutePath path = false) (elsewhere : ¬HomeRooted path) : isDefaultSensitive key =
      (isEnvFile (((cleaned path).map lower).getLast?.getD []) || isCredentialFile ((cleaned path).map lower)) := by
  obtain ⟨some, -⟩ := normalizeRequestPath_eq represented
  have named : (cleaned path).map lower ≠ [] := mt List.map_eq_nil_iff.mp some
  have last : (keyParts path).getLast? = ((cleaned path).map lower).getLast? := by
    rw [keyParts_eq some relative]
    exact List.getLast?_append_of_ne_nil _ named
  have away : (keyParts path).head? ≠ Option.some ['~'] := by
    rw [keyParts_eq some relative]
    by_cases lead : leading path = []
    · have first := head?_leading_append_cleaned path
      rw [lead, List.nil_append] at first
      rw [if_pos lead, List.nil_append, List.head?_map, first]
      intro home
      obtain ⟨segment, found, tilde⟩ := Option.map_eq_some_iff.mp home
      rw [(lower_eq_iff (by decide)).mp tilde] at found
      exact elsewhere found
    · rw [if_neg lead]
      simp
  have browsers : (keyParts path).any isBrowserDir = ((cleaned path).map lower).any isBrowserDir := by
    have quiet : (if leading path = [] then [] else "rel".toList :: leading path ++ leading path).any isBrowserDir = false := by
      have noops : (leading path).any isBrowserDir = false := by
        refine List.any_eq_false.mpr fun segment member => ?_
        have noop : isNoop segment = true := List.mem_takeWhile_imp member
        rcases of_decide_eq_true noop with rfl | rfl
        · decide
        · decide
      split
      next => rfl
      next =>
        have mark : isBrowserDir "rel".toList = false := by decide
        rw [List.cons_append, List.any_cons, List.any_append, mark, noops]
        rfl
    rw [keyParts_eq some relative, List.any_append, quiet, Bool.false_or]
  unfold isDefaultSensitive isCredentialFile
  dsimp only
  rw [keySegments_of_normalize represented, last, browsers, decide_eq_false away, if_neg Bool.false_ne_true]
  cases isEnvFile (((cleaned path).map lower).getLast?.getD []) with
  | true => rfl
  | false => simp

end Bitty.Plugin.Fs
