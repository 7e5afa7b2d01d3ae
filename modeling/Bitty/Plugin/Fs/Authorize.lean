import Bitty.Plugin.Fs.Policy

namespace Bitty.Plugin.Fs

open Text

inductive FsDenialKind
  | outsideScope
  | sensitivePath
  | hostilePattern
  | invalidRequest
  | secretContent
  deriving DecidableEq

inductive FsDecision
  | allow (path : Text)
  | redacted (path : Text)
  | consentRequired (path : Text)
  | deny (kind : FsDenialKind) (path : Text)
  deriving DecidableEq

def FsDecision.isAuthorized : FsDecision → Bool
  | .allow _ | .redacted _ => true
  | .consentRequired _ | .deny _ _ => false

structure FsAuthorized where
  decision : FsDecision
  sensitive : Bool
  secretShaped : Bool
  deriving DecidableEq

section

variable (looksSecret : Text → Bool) (scope : FilesystemScope) (policy : SensitivePathPolicy)

def refused (kind : FsDenialKind) (path : Text) (sensitive : Bool) : FsAuthorized := ⟨.deny kind (boundedPath path), sensitive, false⟩

def cleared (path : Text) (sensitive : Bool) (content : Option Text) : FsAuthorized :=
  let secretShaped := content.any looksSecret
  let label := (normalizeRequestPath path).getD path
  if secretShaped then ⟨.redacted label, sensitive, true⟩ else ⟨.allow label, sensitive, false⟩

def judge (path : Text) (content : Option Text) (nowMs : UInt64) : FsAuthorized :=
  if !scope.allows path then refused .outsideScope path (policy.isSensitive path)
  else if policy.isSensitive path then
    match normalizeRequestPath path with
    | none => refused .invalidRequest path true
    | some normalized =>
      if policy.consentActive normalized nowMs then cleared looksSecret path true content
      else ⟨.consentRequired normalized, true, false⟩
  else cleared looksSecret path false content

/-- `looksSecret` tells of content whether it looks secret. There is no answer where the source panics. -/
def authorizeFs (path : Text) (_isWrite : Bool) (content : Option Text) (nowMs : UInt64) : Option FsAuthorized :=
  if path = [] ∨ MAX_FS_PATH_BYTES < byteLen path ∨ '\x00' ∈ path then some (refused .invalidRequest path true)
  else if path.any isControl then some (refused .invalidRequest path true)
  else
    (isHostileFsPattern path).map fun hostile =>
      if hostile then refused .hostilePattern path true else judge looksSecret scope policy path content nowMs

end

variable {looksSecret : Text → Bool} {scope : FilesystemScope} {policy : SensitivePathPolicy} {p q : Text} {isWrite : Bool}
  {content : Option Text} {nowMs : UInt64} {result : FsAuthorized}

theorem cleared_sensitive (sensitive : Bool) : (cleared looksSecret p sensitive content).sensitive = sensitive := by
  unfold cleared
  dsimp only
  split
  next => rfl
  next => rfl

theorem judge_sensitive : (judge looksSecret scope policy p content nowMs).sensitive = policy.isSensitive p := by
  unfold judge
  split
  next => rfl
  next =>
    split
    next sensitive =>
      rw [sensitive]
      split
      next => rfl
      next =>
        split
        next => exact cleared_sensitive true
        next => rfl
    next ordinary =>
      rw [cleared_sensitive]
      exact (Bool.eq_false_iff.mpr ordinary).symm

theorem isSensitive_congr (same : normalizeRequestPath p = normalizeRequestPath q) : policy.isSensitive p = policy.isSensitive q := by
  unfold SensitivePathPolicy.isSensitive
  rw [same]

theorem judge_congr {key : Text} (inside : scope.allows p = true) (inside' : scope.allows q = true)
    (first : normalizeRequestPath p = some key) (second : normalizeRequestPath q = some key) :
    judge looksSecret scope policy p content nowMs = judge looksSecret scope policy q content nowMs := by
  have clear (sensitive : Bool) : cleared looksSecret p sensitive content = cleared looksSecret q sensitive content := by
    unfold cleared
    rw [first, second]
    rfl
  unfold judge
  rw [inside, inside', isSensitive_congr (first.trans second.symm), first, second, clear, clear]
  rfl

theorem authorizeFs_eq (some : p ≠ []) (short : byteLen p ≤ MAX_FS_PATH_BYTES) (printable : p.any isControl = false) :
    authorizeFs looksSecret scope policy p isWrite content nowMs = (isHostileFsPattern p).map fun hostile =>
      if hostile then refused .hostilePattern p true else judge looksSecret scope policy p content nowMs := by
  have noNul : '\x00' ∉ p := fun member => List.any_eq_false.mp printable _ member (by decide)
  unfold authorizeFs
  rw [if_neg (by simp [some, noNul, Nat.not_lt.mpr short]), printable]
  rfl

theorem authorizeFs_granted (evaluated : authorizeFs looksSecret scope policy p isWrite content nowMs = some result)
    (granted : result.decision.isAuthorized = true) : p.any isControl = false ∧ isHostileFsPattern p = some false ∧
      scope.allows p = true ∧ result = judge looksSecret scope policy p content nowMs := by
  unfold authorizeFs at evaluated
  split at evaluated
  next =>
    obtain rfl := Option.some.inj evaluated
    cases granted
  next =>
    split at evaluated
    next =>
      obtain rfl := Option.some.inj evaluated
      cases granted
    next printable =>
      obtain ⟨hostile, tested, rfl⟩ := Option.map_eq_some_iff.mp evaluated
      cases hostile with
      | true => cases granted
      | false =>
        refine ⟨by simpa using printable, tested, ?_, rfl⟩
        rw [if_neg Bool.false_ne_true] at granted
        cases allowed : scope.allows p with
        | true => rfl
        | false =>
          unfold judge at granted
          rw [allowed] at granted
          cases granted

theorem SensitivePathPolicy.isSensitive_alike {p q key key' : Text} (policy : SensitivePathPolicy) (alike : Alike p q)
    (first : normalizeRequestPath p = some key) (second : normalizeRequestPath q = some key') (relative : isAbsolutePath p = false)
    (relative' : isAbsolutePath q = false) (elsewhere : ¬HomeRooted p) (elsewhere' : ¬HomeRooted q)
    (extra : policy.deniesExtra key = policy.deniesExtra key') : policy.isSensitive p = policy.isSensitive q := by
  unfold isSensitive
  rw [first, second]
  dsimp only
  rw [isDefaultSensitive_key first relative elsewhere, isDefaultSensitive_key second relative' elsewhere', alike, extra]

def SensitivePathPolicy.denies (policy : SensitivePathPolicy) (path : Text) : Bool :=
  (normalizeRequestPath path).any policy.deniesExtra

/-- The spellings of a path that leave its leading run in place are told the same, and consent counts for all of them. The
others are classified the same unless an extra prefix tells them apart. Paths that name other segments share no key. -/
theorem authorizeFs_spelling (looksSecret : Text → Bool) :
    (∀ (scope : FilesystemScope) (policy : SensitivePathPolicy) (nowMs : UInt64) (p q : Text), Alike p q →
      isAbsolutePath p = false → isAbsolutePath q = false → ¬HomeRooted p → ¬HomeRooted q →
      byteLen p ≤ MAX_FS_PATH_BYTES → byteLen q ≤ MAX_FS_PATH_BYTES →
      (∀ isWrite content result, authorizeFs looksSecret scope policy p isWrite content nowMs = some result →
        result.decision.isAuthorized = true →
        (leading p = leading q → ∀ isWrite', authorizeFs looksSecret scope policy q isWrite' content nowMs = some result) ∧
        (q.head? ≠ some '~' → policy.denies p = policy.denies q → ∀ isWrite' content', ∃ other,
          authorizeFs looksSecret scope policy q isWrite' content' nowMs = some other ∧ other.sensitive = result.sensitive)) ∧
      (leading p = leading q →
        (∀ grantedAtMs expiresAtMs, policy.grantConsent p grantedAtMs expiresAtMs = policy.grantConsent q grantedAtMs expiresAtMs) ∧
        policy.revokeConsent p = policy.revokeConsent q)) ∧
    (∀ p q key, normalizeRequestPath p = some key → normalizeRequestPath q = some key → Alike p q) := by
  refine ⟨fun scope policy nowMs p q alike relative relative' elsewhere elsewhere' bound bound' => ⟨?_, fun run => ?_⟩,
    fun p q key => cleaned_of_key⟩
  · intro isWrite content result evaluated granted
    obtain ⟨printable, harmless, inside, rfl⟩ := authorizeFs_granted evaluated granted
    have named := cleaned_ne_nil_of_allows inside
    have named' := mt alike.cleaned_nil.mpr named
    have here : p.head? ≠ some '~' := by
      intro start
      rw [hostile_of_tilde start elsewhere] at harmless
      cases harmless
    have printable' : q.any isControl = false := alike.control.symm.trans printable
    have nonempty' : q ≠ [] := by
      rintro rfl
      exact named' (by decide)
    have judged (here' : q.head? ≠ some '~') (isWrite' : Bool) (content' : Option Text) :
        authorizeFs looksSecret scope policy q isWrite' content' nowMs = some (judge looksSecret scope policy q content' nowMs) := by
      rw [authorizeFs_eq nonempty' bound' printable', ← alike.hostile relative relative' here here', harmless]
      rfl
    have represented : normalizeRequestPath p = some (List.intercalate ['|'] ((keyParts p).map escapeKeySegment)) := by
      rw [normalizeRequestPath_some]
      exact if_neg (by simp [named, printable, Nat.not_lt.mpr bound])
    have represented' : normalizeRequestPath q = some (List.intercalate ['|'] ((keyParts q).map escapeKeySegment)) := by
      rw [normalizeRequestPath_some]
      exact if_neg (by simp [named', printable', Nat.not_lt.mpr bound'])
    constructor
    · intro run isWrite'
      have here' : q.head? ≠ some '~' := fun start => here (alike.symm.tilde run.symm named' start)
      have inside' := (alike.allows run relative relative' elsewhere elsewhere' bound bound' scope).symm.trans inside
      have key := alike.key run relative relative' bound bound'
      rw [judged here', judge_congr inside inside' represented (key.symm.trans represented)]
    · intro here' extra isWrite' content'
      refine ⟨_, judged here' isWrite' content', ?_⟩
      unfold SensitivePathPolicy.denies at extra
      rw [represented, represented'] at extra
      rw [judge_sensitive, judge_sensitive,
        policy.isSensitive_alike alike represented represented' relative relative' elsewhere elsewhere' extra]
  · have key := alike.key run relative relative' bound bound'
    unfold SensitivePathPolicy.grantConsent SensitivePathPolicy.revokeConsent
    rw [key]
    exact ⟨fun _ _ => rfl, rfl⟩

theorem authorizeFs_spelling_separators : Alike "a//b/./C".toList "A\\b\\c".toList ∧
    (SensitivePathPolicy.defaultPolicy.grantConsent "a//b/./C".toList 1 none =
      SensitivePathPolicy.defaultPolicy.grantConsent "A\\b\\c".toList 1 none) := by
  have alike : Alike "a//b/./C".toList "A\\b\\c".toList := by decide
  exact ⟨alike, (((authorizeFs_spelling fun _ => false).1 .empty .defaultPolicy 0 _ _ alike (by decide) (by decide)
    (by decide) (by decide) (by decide) (by decide)).2 (by decide)).1 1 none⟩

def everywhere : FilesystemScope := ⟨{"**".toList}, by
  intro pattern member
  obtain rfl := Finset.mem_singleton.mp member
  rfl⟩

def secretsDenied : SensitivePathPolicy :=
  ⟨{"secrets".toList}, [], by decide, List.nodup_nil, SensitivePathPolicy.few_nil⟩

theorem everywhere_allows {path : Text} (segment : Text) (rest : List Text) (short : path ≠ [] ∧ byteLen path ≤ MAX_FS_PATH_BYTES)
    (printable : path.any isControl = false) (relative : isAbsolutePath path = false) (below : ['.', '.'] ∉ splitSegments path) (normalized : normalizeSegments (splitSegments path) = segment :: rest)
    (other : segment ≠ ['~']) : everywhere.allows path = true := by
  have noNul : '\x00' ∉ path := fun member => List.any_eq_false.mp printable _ member (by decide)
  have covers : patternCovers "**".toList (segment :: rest) false = true := by
    have whole : normalizeSegments (splitSegments "**".toList) = [['*', '*']] := by decide
    unfold patternCovers
    dsimp only
    rw [whole, if_neg (List.cons_ne_nil _ _), if_neg (by decide), globSegmentsCover, Glob.greedy_cons]
    rfl
  unfold FilesystemScope.allows
  simp only [short.1, Nat.not_lt.mpr short.2, noNul, printable, relative, below, normalized, List.head?_cons, Option.some.injEq, other,
    or_self, and_false, if_false, Bool.false_eq_true, reduceCtorEq, decide_false]
  exact decide_eq_true ⟨_, Finset.mem_singleton_self _, covers⟩

def overlong : Text := 'a' :: List.replicate MAX_FS_PATH_BYTES '/' ++ ['x']

/-- A leading dot leads past a prefix, and the consent for one spelling does not count for the other. A spelling that is too long
is refused as sensitive. -/
theorem authorizeFs_leading_dot : Alike "./secrets/x".toList "secrets/x".toList ∧
    SensitivePathPolicy.defaultPolicy.denyPrefix "secrets".toList = .ok secretsDenied ∧
    authorizeFs (fun _ => false) everywhere secretsDenied "./secrets/x".toList false none 0 =
      some ⟨.allow "rel|.|.|secrets|x".toList, false, false⟩ ∧
    authorizeFs (fun _ => false) everywhere secretsDenied "secrets/x".toList false none 0 =
      some ⟨.consentRequired "secrets|x".toList, true, false⟩ ∧
    ((secretsDenied.grantConsent "./secrets/x".toList 1 none).toOption.bind fun policy =>
      authorizeFs (fun _ => false) everywhere policy "secrets/x".toList false none 2) =
      some ⟨.consentRequired "secrets|x".toList, true, false⟩ ∧
    Alike "a/x".toList overlong ∧
    authorizeFs (fun _ => false) everywhere secretsDenied "a/x".toList false none 0 =
      some ⟨.allow "a|x".toList, false, false⟩ ∧
    authorizeFs (fun _ => false) everywhere secretsDenied overlong false none 0 = some (refused .invalidRequest overlong true) := by
  have dotted : everywhere.allows "./secrets/x".toList = true :=
    everywhere_allows ['.'] ["secrets".toList, "x".toList] (by decide) (by decide) (by decide)
      (by decide) (by decide) (by decide)
  have plain : everywhere.allows "secrets/x".toList = true :=
    everywhere_allows "secrets".toList ["x".toList] (by decide) (by decide) (by decide)
      (by decide) (by decide) (by decide)
  have short : everywhere.allows "a/x".toList = true :=
    everywhere_allows ['a'] ["x".toList] (by decide) (by decide) (by decide)
      (by decide) (by decide) (by decide)
  have long : MAX_FS_PATH_BYTES < byteLen overlong := by
    have length : overlong.length = MAX_FS_PATH_BYTES + 2 := by simp [overlong]
    exact Nat.lt_of_lt_of_le (by omega) (length_le_byteLen overlong)
  have read {path : Text} (policy : SensitivePathPolicy) (nowMs : UInt64) (inside : everywhere.allows path = true)
      (well : path ≠ [] ∧ byteLen path ≤ MAX_FS_PATH_BYTES ∧ path.any isControl = false ∧ isHostileFsPattern path = some false) :
      authorizeFs (fun _ => false) everywhere policy path false none nowMs = some (
        if policy.isSensitive path then
          match normalizeRequestPath path with
          | none => refused .invalidRequest path true
          | some normalized =>
            if policy.consentActive normalized nowMs then cleared (fun _ => false) path true none
            else ⟨.consentRequired normalized, true, false⟩
        else cleared (fun _ => false) path false none) := by
    rw [authorizeFs_eq well.1 well.2.1 well.2.2.1, well.2.2.2]
    unfold judge
    rw [inside]
    rfl
  refine ⟨by decide, rfl, ?_, ?_, ?_, by decide +kernel, ?_, if_pos (.inr (.inl long))⟩
  · rw [read _ _ dotted (by decide)]
    decide
  · rw [read _ _ plain (by decide)]
    decide
  · simp only [fun policy nowMs => read policy nowMs plain (by decide)]
    decide
  · rw [read _ _ short (by decide)]
    decide

end Bitty.Plugin.Fs
