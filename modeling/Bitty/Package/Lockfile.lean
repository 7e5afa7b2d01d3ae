import Bitty.Package.Sha256

namespace Bitty.Package

open Text Checks

def MAX_SOURCE_URL_LEN : Nat := 2048

def MAX_REV_LEN : Nat := 256

def MAX_PATH_LEN : Nat := 1024

def MAX_HOST_LEN : Nat := 253

def MAX_USERINFO_LEN : Nat := 64

inductive PackageSource
  | registry (url : Text)
  | git (url : Text) (rev : Option Text)
  | localPath (path contentDigest : Text)
  | bundled
  deriving DecidableEq

def isAsciiControl (c : Char) : Bool := c.toNat < 0x20 ∨ c.toNat = 0x7F

def isForbiddenInUrl (c : Char) : Bool := isAsciiControl c ∨ c = ' ' ∨ c = '\\'

def sourceError (field : Text) (problem : String) : PackageError := .source (field ++ problem.toList)

def validateHost (host field : Text) : Check := do
  let invalid := sourceError field " has invalid host"
  refuseIf (host = [] ∨ MAX_HOST_LEN < byteLen host) invalid
  refuseIf (¬host.all fun c => c.isAlphanum ∨ c = '-' ∨ c = '.') invalid
  each (fun label => do
    refuseIf (label = [] ∨ 63 < byteLen label) invalid
    refuseIf (¬label.head?.any Char.isAlphanum ∨ ¬label.getLast?.any Char.isAlphanum) invalid
    refuseIf (¬label.all fun c => c.isAlphanum ∨ c = '-') invalid) (host.splitOn '.')

/-- The host and port of an authority, after the user information that only `git+ssh` may have. -/
def hostport (scheme authority field : Text) : Except PackageError Text :=
  match splitLast '@' authority with
  | none => .ok authority
  | some (userinfo, rest) => do
    refuseIf (scheme ≠ "git+ssh://".toList) (sourceError field " must not contain userinfo")
    refuseIf (userinfo = [] ∨ MAX_USERINFO_LEN < byteLen userinfo ∨
        ¬userinfo.all fun c => c.isAlphanum ∨ c = '.' ∨ c = '-' ∨ c = '_')
      (sourceError field " has invalid userinfo")
    refuseIf (rest = []) (sourceError field " is missing a host")
    .ok rest

def hostOf (hostport field : Text) : Except PackageError Text :=
  match splitLast ':' hostport with
  | none => .ok hostport
  | some (host, port) => do
    refuseIf (host = []) (sourceError field " is missing a host")
    refuseIf (port = [] ∨ 5 < byteLen port ∨ ¬port.all Char.isDigit) (sourceError field " has invalid port")
    refuseIf (((parseUnsigned 65535 port).getD 0) = 0) (sourceError field " has invalid port")
    .ok host

def validateSourceUrl (url : Text) (allowed : List Text) (field : Text) : Check := do
  refuseIf (url.any isForbiddenInUrl)
    (sourceError field " must not contain whitespace, control characters, or backslashes")
  match allowed.find? (·.isPrefixOf url) with
  | none => .error (.source (field ++ " scheme must be one of ".toList ++ List.intercalate ", ".toList allowed ++
      " (got '".toList ++ url ++ "')".toList))
  | some scheme => do
    let rest := url.drop scheme.length
    refuseIf (rest = []) (sourceError field " is missing a host")
    let inAuthority (c : Char) : Bool := c ∉ ['/', '?', '#']
    let authority := rest.takeWhile inAuthority
    refuseIf (authority = []) (sourceError field " is missing a host")
    let hostport ← hostport scheme authority field
    let host ← hostOf hostport field
    validateHost host field
    refuseIf ((rest.dropWhile inAuthority).any isForbiddenInUrl)
      (sourceError field " path must not contain whitespace, control characters, or backslashes")

def hasPair (a b : Char) : Text → Bool
  | x :: y :: rest => (x = a ∧ y = b) ∨ hasPair a b (y :: rest)
  | _ => false

def validateGitRev (rev : Text) : Check := do
  refuseIf (¬rev.all fun c => c.isAlphanum ∨ c ∈ ['.', '-', '_', '/', '+'])
    (.source "git rev contains invalid characters (allowed: A-Z a-z 0-9 . - _ / +)".toList)
  refuseIf (¬rev.head?.any Char.isAlphanum ∨ ¬rev.getLast?.any Char.isAlphanum)
    (.source "git rev must start and end with an alphanumeric character".toList)
  refuseIf (hasPair '.' '.' rev ∨ hasPair '/' '/' rev) (.source "git rev must not contain '..' or '//'".toList)

namespace PackageSource

def validate : PackageSource → Check
  | .registry url => do
    refuseIf (trim url = []) (.source "registry url must not be empty".toList)
    bounded "source.registry.url".toList MAX_SOURCE_URL_LEN url
    validateSourceUrl url ["https://".toList] "source.registry.url".toList
  | .git url rev => do
    refuseIf (trim url = []) (.source "git url must not be empty".toList)
    bounded "source.git.url".toList MAX_SOURCE_URL_LEN url
    validateSourceUrl url ["https://".toList, "git+ssh://".toList] "source.git.url".toList
    each (fun r => do
      bounded "source.git.rev".toList MAX_REV_LEN r
      refuseIf (trim r = []) (.source "git rev when present must not be empty".toList)
      validateGitRev r) rev.toList
  | .localPath path contentDigest => do
    refuseIf (trim path = []) (.source "local-path path must not be empty".toList)
    bounded "source.local_path.path".toList MAX_PATH_LEN path
    refuseIf (Char.ofNat 0 ∈ path) (.source "local-path path must not contain NUL".toList)
    refuseIf (isValidHexDigest contentDigest = false) (.source
      ("local-path content_digest '".toList ++ contentDigest ++ "' is not valid 64-hex".toList))
  | .bundled => .ok ()

end PackageSource

end Bitty.Package

namespace Bitty.Package

open Text Checks

structure PackageDigests where
  artifact : Text
  manifest : Text
  contentRoot : Option Text
  deriving DecidableEq

def PackageDigests.validate (digests : PackageDigests) : Check := do
  validateHexDigest digests.artifact "digests.artifact".toList
  validateHexDigest digests.manifest "digests.manifest".toList
  each (validateHexDigest · "digests.content_root".toList) digests.contentRoot.toList

structure LockedPackage where
  id : PackageId
  version : Text
  source : PackageSource
  digests : PackageDigests
  lockedAt : Nat
  deriving DecidableEq

namespace LockedPackage

def validate (p : LockedPackage) : Check := do
  refuseIf (p.version = [] ∨ 64 < byteLen p.version)
    (.lockfile ("locked package ".toList ++ p.id.asStr ++ " version invalid: '".toList ++ p.version ++ "'".toList))
  refuseIf ('.' ∉ p.version)
    (.lockfile ("locked package ".toList ++ p.id.asStr ++ " version '".toList ++ p.version ++ "' malformed".toList))
  p.digests.validate
  p.source.validate

def digestLine (p : LockedPackage) : Text :=
  p.id.asStr ++ '@' :: (p.version ++ ':' :: (p.digests.artifact ++ ':' :: (p.digests.manifest ++
    p.digests.contentRoot.elim [] (':' :: ·) ++ ['\n'])))

end LockedPackage

def LOCKFILE_VERSION : Nat := 1

def LOCK_HEADER : Text := "bitty-lock-v1\n".toList

def MAX_LOCKED_PACKAGES : Nat := 1024

structure Lockfile where
  version : Nat
  packages : List LockedPackage
  canonicalVersion : Text
  deriving DecidableEq

namespace Lockfile

def new : Lockfile := ⟨LOCKFILE_VERSION, [], "bitty-manifest-v1".toList⟩

def lockedTwice (p : LockedPackage) : PackageError := .duplicate "locked package".toList p.id.asStr

def validate (lock : Lockfile) : Check := do
  refuseIf (lock.version ≠ LOCKFILE_VERSION) (.lockfile ("unsupported lockfile version ".toList ++
    number lock.version ++ ", expected ".toList ++ number LOCKFILE_VERSION))
  refuseIf (trim lock.canonicalVersion = []) (.lockfile "canonical_version must not be empty".toList)
  refuseIf (MAX_LOCKED_PACKAGES < lock.packages.length)
    (.limitExceeded "lockfile.packages".toList MAX_LOCKED_PACKAGES lock.packages.length)
  distinct (·.id.asStr) lockedTwice LockedPackage.validate (fun _ => .ok ()) [] lock.packages

def insert (lock : Lockfile) (p : LockedPackage) : Except PackageError Lockfile := do
  refuseIf (lock.packages.any (·.id = p.id)) (lockedTwice p)
  p.validate
  .ok { lock with packages := lock.packages ++ [p] }

def find (lock : Lockfile) (id : Text) : Option LockedPackage := lock.packages.find? (·.id.asStr = id)

def lastOfEach : List LockedPackage → List LockedPackage
  | [] => []
  | p :: rest => if rest.any (·.id = p.id) then lastOfEach rest else p :: lastOfEach rest

def digestText (lock : Lockfile) : Text :=
  LOCK_HEADER ++ (sortBy (·.id.asStr) (lastOfEach lock.packages)).flatMap LockedPackage.digestLine

def digest (lock : Lockfile) : Text := sha256Hex (bytes lock.digestText)

structure Accepted (lock : Lockfile) : Prop where
  version : lock.version = LOCKFILE_VERSION
  canonicalVersion : trim lock.canonicalVersion ≠ []
  room : lock.packages.length ≤ MAX_LOCKED_PACKAGES
  packages : ∀ p ∈ lock.packages, p.validate = .ok ()
  once : (lock.packages.map (·.id.asStr)).Nodup

theorem validate_ok {lock : Lockfile} : lock.validate = .ok () ↔ lock.Accepted := by
  simp only [validate, seq_ok, refuseIf_ok, distinct_ok, Decidable.not_not, Nat.not_lt]
  constructor
  · rintro ⟨version, canonical, room, packages, once, -⟩
    exact ⟨version, canonical, room, fun p member => (packages p member).1, once⟩
  · rintro ⟨version, canonical, room, packages, once⟩
    exact ⟨version, canonical, room, fun p member => ⟨packages p member, trivial⟩, once, by simp⟩

theorem insert_ok {lock lock' : Lockfile} {p : LockedPackage} :
    lock.insert p = .ok lock' ↔ p.id ∉ lock.packages.map (·.id) ∧ p.validate = .ok () ∧
      lock' = { lock with packages := lock.packages ++ [p] } := by
  simp only [insert, seq_ok, refuseIf_ok, List.any_eq_true, decide_eq_true_eq, not_exists, not_and, List.mem_map,
    Except.ok.injEq]
  exact and_congr_right fun _ => and_congr_right fun _ => eq_comm

theorem lastOfEach_of_nodup {packages : List LockedPackage} (once : (packages.map (·.id.asStr)).Nodup) :
    lastOfEach packages = packages := by
  induction packages with
  | nil => rfl
  | cons p rest ih =>
    obtain ⟨fresh, others⟩ := List.nodup_cons.mp once
    have single : rest.any (·.id = p.id) = false := by
      refine List.any_eq_false.mpr fun q member same => fresh ?_
      exact List.mem_map.mpr ⟨q, member, congrArg PackageId.asStr (of_decide_eq_true same)⟩
    rw [lastOfEach, single, ih others]
    rfl

end Lockfile

end Bitty.Package
