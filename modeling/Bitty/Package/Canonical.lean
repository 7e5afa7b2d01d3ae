import Bitty.Package.Environment

namespace Bitty.Package

open Text Checks

def CANONICAL_HEADER : Text := "bitty-manifest-v1".toList

def bittyField (compat : Compat) : Text := compat.bitty.elim [] ("bitty:".toList ++ ·)

def pluginApiField (compat : Compat) : Text := compat.pluginApi.elim [] ("plugin_api:".toList ++ ·)

def dependencyField (d : PackageDependency) : Text :=
  "dep:".toList ++ d.id.asStr ++ '@' :: (d.versionReq ++ if d.prerelease then ":pre".toList else [])

def capabilityField (c : CapabilityId) : Text := "cap:".toList ++ c.asStr

namespace PackageManifest

def sortedDependencies (m : PackageManifest) : List PackageDependency := sortBy (·.id.asStr) m.dependencies

def sortedCapabilities (m : PackageManifest) : List CapabilityId := sortBy CapabilityId.asStr m.capabilities

def canonicalText (m : PackageManifest) : Text :=
  CANONICAL_HEADER ++ ['\n'] ++
    m.identity.id.asStr ++ ['\n'] ++
    m.identity.version ++ ['\n'] ++
    m.identity.name ++ ['\n'] ++
    m.identity.description ++ ['\n'] ++
    m.identity.license.getD [] ++ ['\n'] ++
    bittyField m.compat ++ ['\n'] ++
    pluginApiField m.compat ++ ['\n'] ++
    m.sortedDependencies.flatMap (fun d => dependencyField d ++ ['\n']) ++
    m.sortedCapabilities.flatMap fun c => capabilityField c ++ ['\n']

def canonicalBytes (m : PackageManifest) : ByteArray := bytes m.canonicalText

def canonicalDigest (m : PackageManifest) : Text := sha256Hex m.canonicalBytes

def fields (m : PackageManifest) : List Text :=
  [m.identity.name, m.identity.description, m.identity.license.getD [], bittyField m.compat, pluginApiField m.compat] ++
    m.sortedDependencies.map dependencyField

def fieldLines (m : PackageManifest) : List Text := m.fields.flatMap breaks

theorem canonicalText_eq (m : PackageManifest) :
    m.canonicalText = unlines ([CANONICAL_HEADER, m.identity.id.asStr, m.identity.version] ++
      (m.fields ++ m.sortedCapabilities.map capabilityField)) := by
  simp only [canonicalText, fields, unlines, List.flatMap_append, List.flatMap_cons, List.flatMap_nil,
    List.flatMap_map, List.append_assoc, List.append_nil]

/-- Equal but for the order of dependencies and capabilities and for the length of the raw bytes. -/
structure SameUpToOrder (a b : PackageManifest) : Prop where
  identity : a.identity = b.identity
  compat : a.compat = b.compat
  dependencies : a.dependencies.Perm b.dependencies
  capabilities : a.capabilities.Perm b.capabilities
  undeclaredFields : a.undeclaredFields = b.undeclaredFields

def Redivided (a b : PackageManifest) : Prop := a.fieldLines = b.fieldLines ∧ a.fields ≠ b.fields

end PackageManifest

theorem PackageId.chars (id : PackageId) {c : Char} (member : c ∈ id.asStr) : isIdentifierChar c = true ∨ c = '.' := by
  have valid := id.valid
  simp only [validatePackageId, seq_ok, refuseIf_ok, bounded_ok, each_ok] at valid
  by_cases dot : c = '.'
  · exact .inr dot
  · obtain ⟨piece, inside, found⟩ := exists_mem_splitOn member dot
    have letters := (valid.2.2.2.2 piece inside).2.2.2
    simp only [Decidable.not_not] at letters
    exact .inl (List.all_eq_true.mp letters c found)

theorem PackageId.not_mem (id : PackageId) {c : Char} (other : isIdentifierChar c = false) (dot : c ≠ '.') : c ∉ id.asStr := by
  intro member
  rcases id.chars member with letter | same
  · rw [other] at letter
    cases letter
  · exact dot same

theorem not_mem_of_validateSemver {version field : Text} (valid : validateSemver version field = .ok ()) :
    '\n' ∉ version := by
  simp only [validateSemver, seq_ok, refuseIf_ok, bounded_ok, Decidable.not_not] at valid
  intro member
  have allowed := List.all_eq_true.mp valid.2.2.2.2 '\n' member
  revert allowed
  decide

theorem not_mem_of_validateVersionReq {req field : Text} (valid : validateVersionReq req field = .ok ()) :
    ':' ∉ req := by
  simp only [validateVersionReq, seq_ok, refuseIf_ok, bounded_ok, Decidable.not_not] at valid
  intro member
  have allowed := List.all_eq_true.mp valid.2.2.1 ':' member
  revert allowed
  decide

theorem CapabilityId.dotted (c : CapabilityId) : '.' ∈ c.asStr := by
  obtain ⟨catalog, valid⟩ := c.valid
  simp only [validateCapabilityWith, seq_ok, refuseIf_ok, bounded_ok] at valid
  have pieces : 1 < ((capabilityHead c.asStr).splitOn '.').length := by omega
  exact (List.takeWhile_prefix _).subset (mem_of_splitOn pieces)

theorem CapabilityId.inline (c : CapabilityId) : '\n' ∉ c.asStr := by
  obtain ⟨catalog, valid⟩ := c.valid
  simp only [validateCapabilityWith, seq_ok, refuseIf_ok, bounded_ok] at valid
  intro member
  exact valid.2.2.1 (List.any_eq_true.mpr ⟨'\n', member, by decide⟩)

end Bitty.Package

namespace Bitty.Package

open Std Text Checks

theorem PackageDigests.valid {digests : PackageDigests} (passed : digests.validate = .ok ()) :
    isValidHexDigest digests.artifact = true ∧ isValidHexDigest digests.manifest = true ∧
      ∀ root, digests.contentRoot = some root → isValidHexDigest root = true := by
  simp only [PackageDigests.validate, validateHexDigest, seq_ok, refuseIf_ok, each_ok, Decidable.not_not] at passed
  exact ⟨passed.1, passed.2.1, fun root here => passed.2.2 root (by simp [here])⟩

theorem append_digest_inj {v w h x y : Text} (short : byteLen w ≤ DIGEST_HEX_LEN) (digest : isValidHexDigest h = true)
    (same : v ++ ':' :: (h ++ ':' :: x) = w ++ ':' :: y) : ∃ more, v = w ++ more := by
  rcases List.append_eq_append_iff.mp same with ⟨more, rfl, rest⟩ | ⟨more, rfl, -⟩
  · cases more with
    | nil => exact ⟨[], by simp⟩
    | cons c inside =>
      obtain ⟨-, rest⟩ := List.cons.inj rest
      have long : DIGEST_HEX_LEN ≤ inside.length := by
        rcases List.append_eq_append_iff.mp rest with ⟨after, rfl, -⟩ | ⟨after, rfl, tail⟩
        · rw [List.length_append, length_of_isValidHexDigest digest]
          omega
        · cases after with
          | nil => exact (length_of_isValidHexDigest digest).symm.le.trans (by simp)
          | cons d others =>
            refine absurd ?_ (not_mem_of_isValidHexDigest digest (c := ':') (by decide))
            rw [(List.cons.inj tail).1]
            exact List.mem_append_right _ List.mem_cons_self
      have size := length_le_byteLen (v ++ c :: inside)
      rw [List.length_append, List.length_cons] at size
      omega
  · exact ⟨more, rfl⟩

/-- What the digest of a lockfile binds of an entry. -/
structure Resolved where
  id : PackageId
  version : Text
  digests : PackageDigests

def LockedPackage.resolved (p : LockedPackage) : Resolved := ⟨p.id, p.version, p.digests⟩

theorem LockedPackage.digestLine_ne_nil (p : LockedPackage) : p.digestLine ≠ [] := by
  intro none
  cases (List.append_eq_nil_iff.mp none).2

theorem LockedPackage.digestLine_split {p q : LockedPackage} (validP : p.validate = .ok ()) (validQ : q.validate = .ok ())
    {x y : Text} (same : p.digestLine ++ x = q.digestLine ++ y) : p.resolved = q.resolved ∧ x = y := by
  simp only [LockedPackage.validate, seq_ok, refuseIf_ok, not_or, Nat.not_lt] at validP validQ
  obtain ⟨⟨-, shortP⟩, -, digestsP, -⟩ := validP
  obtain ⟨⟨-, shortQ⟩, -, digestsQ, -⟩ := validQ
  obtain ⟨artifactP, manifestP, rootP⟩ := PackageDigests.valid digestsP
  obtain ⟨artifactQ, manifestQ, rootQ⟩ := PackageDigests.valid digestsQ
  have colon {h : Text} (digest : isValidHexDigest h = true) : ':' ∉ h := not_mem_of_isValidHexDigest digest (by decide)
  simp only [digestLine, List.append_assoc, List.cons_append] at same
  obtain ⟨ids, same⟩ := append_sep_inj (p.id.not_mem (by decide) (by decide)) (q.id.not_mem (by decide) (by decide)) same
  have versions : p.version = q.version := by
    obtain ⟨more, longer⟩ := append_digest_inj shortQ artifactP same
    obtain ⟨less, shorter⟩ := append_digest_inj shortP artifactQ same.symm
    rw [shorter, List.append_assoc] at longer
    have none := List.append_right_eq_self.mp longer.symm
    rw [shorter, (List.append_eq_nil_iff.mp none).1, List.append_nil]
  rw [versions] at same
  obtain ⟨-, same⟩ := List.cons.inj (List.append_cancel_left same)
  obtain ⟨artifacts, same⟩ := append_sep_inj (colon artifactP) (colon artifactQ) same
  have sizes : p.digests.manifest.length = q.digests.manifest.length := by
    rw [length_of_isValidHexDigest manifestP, length_of_isValidHexDigest manifestQ]
  obtain ⟨manifests, same⟩ := List.append_inj same sizes
  have roots : p.digests.contentRoot = q.digests.contentRoot ∧ x = y := by
    cases hereP : p.digests.contentRoot with
    | none =>
      cases hereQ : q.digests.contentRoot with
      | none => simpa [hereP, hereQ] using same
      | some r => simp [hereP, hereQ] at same
    | some r =>
      cases hereQ : q.digests.contentRoot with
      | none => simp [hereP, hereQ] at same
      | some s =>
        have lengths : r.length = s.length := by
          rw [length_of_isValidHexDigest (rootP r hereP), length_of_isValidHexDigest (rootQ s hereQ)]
        simp only [hereP, hereQ, Option.elim_some, List.cons_append, List.cons.injEq, true_and] at same
        obtain ⟨roots, rest⟩ := List.append_inj same lengths
        exact ⟨congrArg some roots, by simpa using rest⟩
  refine ⟨?_, roots.2⟩
  have digests : p.digests = q.digests := by
    cases here : p.digests
    cases there : q.digests
    simp_all
  rw [resolved, resolved, PackageId.ext ids, versions, digests]

namespace Lockfile

variable {a b : Lockfile}

theorem resolved_perm (acceptedA : a.Accepted) (acceptedB : b.Accepted) (same : a.digestText = b.digestText) :
    (a.packages.map LockedPackage.resolved).Perm (b.packages.map LockedPackage.resolved) := by
  rw [digestText, digestText, lastOfEach_of_nodup acceptedA.once, lastOfEach_of_nodup acceptedB.once] at same
  have lines := List.append_cancel_left same
  have sorted := flatMap_inj_of_split LockedPackage.digestLine_ne_nil (fun p inA q inB x y =>
    LockedPackage.digestLine_split (acceptedA.packages p ((sortBy_perm _ _).mem_iff.mp inA))
      (acceptedB.packages q ((sortBy_perm _ _).mem_iff.mp inB))) lines
  have perm (packages : List LockedPackage) := (sortBy_perm (·.id.asStr) packages).map LockedPackage.resolved
  exact (perm a.packages).symm.trans (sorted ▸ perm b.packages)

end Lockfile

def Unseparated (caps : CapabilitySnapshot) : Prop :=
  ∀ entry ∈ caps.toList, ':' ∉ entry.1 ∧ ∀ c ∈ entry.2, ',' ∉ c ∧ '\n' ∉ c

theorem snapshotLine_ne_nil (entry : Text × List Text) : snapshotLine entry ≠ [] := by
  intro none
  cases (List.append_eq_nil_iff.mp none).2

theorem capabilities_split {cs ds : List Text} (plainC : ∀ c ∈ cs, ',' ∉ c ∧ '\n' ∉ c)
    (plainD : ∀ d ∈ ds, ',' ∉ d ∧ '\n' ∉ d) {x y : Text}
    (same : cs.flatMap (· ++ [',']) ++ '\n' :: x = ds.flatMap (· ++ [',']) ++ '\n' :: y) : cs = ds ∧ x = y := by
  -- A capability does not start with the line break that ends the list.
  have starts {c : Text} {tail rest : Text} (inline : '\n' ∉ c) (same : '\n' :: rest = c ++ ',' :: tail) : False := by
    cases c with
    | nil => simp at same
    | cons d others => exact inline (by rw [(List.cons.inj same).1]; exact List.mem_cons_self)
  induction cs generalizing ds with
  | nil =>
    cases ds with
    | nil => exact ⟨rfl, (List.cons.inj same).2⟩
    | cons d others => exact (starts (plainD d List.mem_cons_self).2 (by simpa using same)).elim
  | cons c rest ih =>
    cases ds with
    | nil => exact (starts (plainC c List.mem_cons_self).2 (by simpa using same.symm)).elim
    | cons d others =>
      simp only [List.flatMap_cons, List.append_assoc, List.cons_append, List.nil_append] at same
      obtain ⟨heads, tails⟩ := append_sep_inj (plainC c List.mem_cons_self).1 (plainD d List.mem_cons_self).1 same
      obtain ⟨lists, ends⟩ := ih (fun e member => plainC e (List.mem_cons_of_mem _ member))
        (fun e member => plainD e (List.mem_cons_of_mem _ member)) tails
      exact ⟨by rw [heads, lists], ends⟩

theorem snapshot_eq {a b : CapabilitySnapshot} (plainA : Unseparated a) (plainB : Unseparated b)
    (same : a.toList.flatMap snapshotLine = b.toList.flatMap snapshotLine) : a = b := by
  refine ExtTreeMap.toList_inj.mp ?_
  have entries : a.toList.map id = b.toList.map id :=
    flatMap_inj_of_split snapshotLine_ne_nil (fun p inA q inB x y same => ?_) same
  · simpa using entries
  · simp only [snapshotLine, List.append_assoc, List.cons_append, List.nil_append] at same
    obtain ⟨names, rests⟩ := append_sep_inj (plainA p inA).1 (plainB q inB).1 same
    obtain ⟨lists, ends⟩ := capabilities_split (plainA p inA).2 (plainB q inB).2 rests
    exact ⟨Prod.ext names lists, ends⟩

namespace Generation

variable {a b : Generation}

def lockBytes (g : Generation) : ByteArray := bytes g.lock.digestText

def rootBytes (g : Generation) : ByteArray := bytes (generationText g.id g.lock g.capabilitySnapshot g.activatedAt)

def Built (g : Generation) : Prop :=
  ∃ previous, new g.id g.lock g.capabilitySnapshot g.activatedAt previous = .ok g

theorem Built.verifies (built : a.Built) : a.verifyIntegrity = .ok () := by
  obtain ⟨previous, made⟩ := built
  exact new_verifies made

theorem root_binds (built : a.Built) (soundB : b.verifyIntegrity = .ok ()) (ids : a.id = b.id)
    (times : a.activatedAt = b.activatedAt) (roots : a.rootDigest = b.rootDigest)
    (locked : Set.InjOn sha256Hex {a.lockBytes, b.lockBytes})
    (rooted : Set.InjOn sha256Hex {a.rootBytes, b.rootBytes}) :
    (a.lock.packages.map LockedPackage.resolved).Perm (b.lock.packages.map LockedPackage.resolved) ∧
      (Unseparated a.capabilitySnapshot → Unseparated b.capabilitySnapshot →
        a.capabilitySnapshot = b.capabilitySnapshot) := by
  obtain ⟨rootA, acceptedA⟩ := verifyIntegrity_ok.mp built.verifies
  obtain ⟨rootB, acceptedB⟩ := verifyIntegrity_ok.mp soundB
  have texts : a.rootBytes = b.rootBytes := rooted (by simp) (by simp) (rootA.trans (roots.trans rootB.symm))
  have same := bytes_injective texts
  simp only [generationText, ids, times, List.append_assoc] at same
  have locks := List.append_cancel_left (List.append_cancel_left (List.append_cancel_left same))
  obtain ⟨locks, rest⟩ := List.append_inj locks (by simp [Lockfile.digest])
  have lines := List.append_cancel_right (List.append_cancel_left rest)
  have lockTexts : a.lockBytes = b.lockBytes := locked (by simp) (by simp) locks
  refine ⟨Lockfile.resolved_perm acceptedA acceptedB (bytes_injective lockTexts), ?_⟩
  exact fun plainA plainB => snapshot_eq plainA plainB lines

def samplePackage (name url : String) (valid : validatePackageId name.toList = .ok ()) : LockedPackage where
  id := ⟨name.toList, valid⟩
  version := "1.0.0".toList
  source := .registry url.toList
  digests := ⟨List.replicate 64 'a', List.replicate 64 'b', none⟩
  lockedAt := 0

def sampleGeneration (packages : List LockedPackage) (caps : CapabilitySnapshot) : Generation where
  id := 1
  lock := { Lockfile.new with packages }
  rootDigest := computeGenerationRoot 1 { Lockfile.new with packages } caps 0
  capabilitySnapshot := caps
  activatedAt := 0
  previous := none

theorem sampleGeneration_built {packages : List LockedPackage} {caps : CapabilitySnapshot}
    (valid : ({ Lockfile.new with packages } : Lockfile).validate = .ok ()) : (sampleGeneration packages caps).Built := by
  refine ⟨none, ?_⟩
  change new 1 { Lockfile.new with packages } caps 0 none = _
  rw [new, valid]
  simp [refuseIf, computeGenerationRoot, sampleGeneration]

/-- Two generations of one root, when neither the lock digest nor the lines of the snapshot tell them apart. -/
structure Alike (a b : Generation) : Prop where
  ids : a.id = b.id
  times : a.activatedAt = b.activatedAt
  digests : a.rootDigest = b.rootDigest
  locks : a.lockBytes = b.lockBytes
  roots : a.rootBytes = b.rootBytes

theorem sampleGeneration_alike {ps qs : List LockedPackage} {caps caps' : CapabilitySnapshot}
    (locks : ({ Lockfile.new with packages := ps } : Lockfile).digestText = { Lockfile.new with packages := qs }.digestText)
    (lines : caps.toList.flatMap snapshotLine = caps'.toList.flatMap snapshotLine) :
    (sampleGeneration ps caps).Alike (sampleGeneration qs caps') := by
  have texts : generationText 1 { Lockfile.new with packages := ps } caps 0 =
      generationText 1 { Lockfile.new with packages := qs } caps' 0 := by
    simp only [generationText, Lockfile.digest, locks, lines]
  exact ⟨rfl, rfl, congrArg (fun text => sha256Hex (bytes text)) texts, congrArg bytes locks, congrArg bytes texts⟩

theorem Alike.locked (alike : a.Alike b) : Set.InjOn sha256Hex {a.lockBytes, b.lockBytes} := by
  rw [← alike.locks, Set.pair_eq_singleton]
  exact Set.injOn_singleton _ _

theorem Alike.rooted (alike : a.Alike b) : Set.InjOn sha256Hex {a.rootBytes, b.rootBytes} := by
  rw [← alike.roots, Set.pair_eq_singleton]
  exact Set.injOn_singleton _ _

def sampleTheme (url : String) : LockedPackage := samplePackage "xuepoo.theme" url valid_theme

def sampleDep : LockedPackage := samplePackage "xuepoo.dep" "https://registry.bitty.dev" (by decide)

/-- Of a package that changes its registry, and of a capability whose parameter names another one, the root says nothing. -/
theorem root_not_binding :
    (¬∀ a b : Generation, a.Built → b.Built → a.id = b.id → a.activatedAt = b.activatedAt →
      a.rootDigest = b.rootDigest → Set.InjOn sha256Hex {a.lockBytes, b.lockBytes} →
        Set.InjOn sha256Hex {a.rootBytes, b.rootBytes} → (a.lock.packages.map fun p => (p.id, p.version, p.source, p.digests)).Perm
          (b.lock.packages.map fun p => (p.id, p.version, p.source, p.digests))) ∧
      ¬∀ a b : Generation, a.Built → b.Built → a.id = b.id → a.activatedAt = b.activatedAt →
        a.rootDigest = b.rootDigest → Set.InjOn sha256Hex {a.lockBytes, b.lockBytes} →
          Set.InjOn sha256Hex {a.rootBytes, b.rootBytes} → a.capabilitySnapshot = b.capabilitySnapshot := by
  constructor
  · intro claim
    have alike : (sampleGeneration [sampleTheme "https://a.example", sampleDep] ∅).Alike
        (sampleGeneration [sampleTheme "https://b.example", sampleDep] ∅) :=
      sampleGeneration_alike (by decide +kernel) rfl
    have bound := claim _ _ (sampleGeneration_built (by decide)) (sampleGeneration_built (by decide))
      alike.ids alike.times alike.digests alike.locked alike.rooted
    revert bound
    decide
  · intro claim
    have alike : (sampleGeneration [sampleTheme "https://a.example"]
          ((∅ : CapabilitySnapshot).insert "xuepoo.theme".toList ["fs.read:/a,fs.write:/b".toList])).Alike
        (sampleGeneration [sampleTheme "https://a.example"]
          ((∅ : CapabilitySnapshot).insert "xuepoo.theme".toList ["fs.read:/a".toList, "fs.write:/b".toList])) :=
      sampleGeneration_alike rfl (by decide)
    have bound := claim _ _ (sampleGeneration_built (by decide)) (sampleGeneration_built (by decide))
      alike.ids alike.times alike.digests alike.locked alike.rooted
    have lists := congrArg ExtTreeMap.toList bound
    revert lists
    decide

/-- The packages of a lockfile in another order. -/
theorem root_binds_sample :
    ((sampleGeneration [sampleTheme "https://a.example", sampleDep] ∅).lock.packages.map LockedPackage.resolved).Perm
        ((sampleGeneration [sampleDep, sampleTheme "https://a.example"] ∅).lock.packages.map LockedPackage.resolved) ∧
      (Unseparated ∅ → Unseparated ∅ → (∅ : CapabilitySnapshot) = ∅) := by
  have alike : (sampleGeneration [sampleTheme "https://a.example", sampleDep] ∅).Alike
      (sampleGeneration [sampleDep, sampleTheme "https://a.example"] ∅) :=
    sampleGeneration_alike (by decide +kernel) rfl
  exact root_binds (sampleGeneration_built (by decide)) (sampleGeneration_built (by decide)).verifies
    alike.ids alike.times alike.digests alike.locked alike.rooted

end Generation

end Bitty.Package
