import Bitty.Package.Canonical

namespace Bitty.Package

open Text Checks

namespace PackageManifest

structure Checked (m : PackageManifest) : Prop where
  version : '\n' ∉ m.identity.version
  license : ∀ lic, m.identity.license = some lic → lic ≠ []
  bitty : ∀ req, m.compat.bitty = some req → ':' ∉ req
  pluginApi : ∀ req, m.compat.pluginApi = some req → ':' ∉ req
  requirements : ∀ d ∈ m.dependencies, ':' ∉ d.versionReq
  dependencies : (m.dependencies.map (·.id.asStr)).Nodup
  capabilities : (m.capabilities.map CapabilityId.asStr).Nodup
  declared : m.undeclaredFields = []

theorem checked {m : PackageManifest} (valid : m.validate = .ok ()) : m.Checked := by
  simp only [validate, PackageIdentity.validate, Compat.validate, PackageDependency.validate, seq_ok, refuseIf_ok,
    bounded_ok, each_ok, distinct_ok] at valid
  obtain ⟨-, declared, ⟨version, -, -, -, license⟩, ⟨bitty, api⟩, -, ⟨deps, once, -⟩, -, ⟨-, single, -⟩, -⟩ := valid
  refine ⟨not_mem_of_validateSemver version, ?_, ?_, ?_, ?_, once, single, ?_⟩
  · rintro lic here rfl
    exact (license [] (by simp [here])).2 rfl
  · exact fun req here => not_mem_of_validateVersionReq (bitty req (by simp [here]))
  · exact fun req here => not_mem_of_validateVersionReq (api req (by simp [here]))
  · exact fun d member => not_mem_of_validateVersionReq (deps d member).1
  · refine List.eq_nil_iff_forall_not_mem.mpr fun unknown member => ?_
    cases declared unknown member

end PackageManifest

theorem map_eq_of_injOn {α β : Type} {f : α → β} {as bs : List α} (inj : ∀ a ∈ as, ∀ b ∈ bs, f a = f b → a = b)
    (same : as.map f = bs.map f) : as = bs := by
  induction as generalizing bs with
  | nil => exact (List.map_eq_nil_iff.mp same.symm).symm
  | cons a rest ih =>
    cases bs with
    | nil => cases same
    | cons b others =>
      obtain ⟨heads, tails⟩ := List.cons.inj same
      have later := ih (fun x inX y inY => inj x (List.mem_cons_of_mem _ inX) y (List.mem_cons_of_mem _ inY)) tails
      rw [inj a List.mem_cons_self b List.mem_cons_self heads, later]

theorem append_inj_of_last {α : Type} {P : α → Prop} {as bs cs ds : List α} (inC : ∀ x ∈ cs, P x) (inD : ∀ x ∈ ds, P x)
    (lastA : ∀ x, as.getLast? = some x → ¬P x) (lastB : ∀ x, bs.getLast? = some x → ¬P x)
    (same : as ++ cs = bs ++ ds) : as = bs ∧ cs = ds := by
  rcases List.append_eq_append_iff.mp same with ⟨more, rfl, rfl⟩ | ⟨more, rfl, rfl⟩
  · rcases List.eq_nil_or_concat more with rfl | ⟨start, x, rfl⟩
    · simp
    · exact absurd (inC x (by simp)) (lastB x (by simp))
  · rcases List.eq_nil_or_concat more with rfl | ⟨start, x, rfl⟩
    · simp
    · exact absurd (inD x (by simp)) (lastA x (by simp))

theorem optionalField_inj {start : Text} (nonempty : start ≠ []) {a b : Option Text}
    (same : a.elim [] (start ++ ·) = b.elim [] (start ++ ·)) : a = b := by
  cases a with
  | none =>
    cases b with
    | none => rfl
    | some y => exact absurd (List.append_eq_nil_iff.mp same.symm).1 nonempty
  | some x =>
    cases b with
    | none => exact absurd (List.append_eq_nil_iff.mp same).1 nonempty
    | some y => exact congrArg some (List.append_cancel_left same)

theorem dependencyField_inj {d e : PackageDependency} (inD : ':' ∉ d.versionReq) (inE : ':' ∉ e.versionReq)
    (same : dependencyField d = dependencyField e) : d = e := by
  unfold dependencyField at same
  rw [List.append_assoc, List.append_assoc] at same
  obtain ⟨ids, rests⟩ := append_sep_inj (d.id.not_mem (by decide) (by decide)) (e.id.not_mem (by decide) (by decide))
    (List.append_cancel_left same)
  have flags : d.versionReq = e.versionReq ∧ d.prerelease = e.prerelease := by
    cases first : d.prerelease with
    | false =>
      cases second : e.prerelease with
      | false => simpa [first, second] using rests
      | true =>
        rw [first, second] at rests
        refine absurd ?_ inD
        have plain : d.versionReq = e.versionReq ++ ":pre".toList := by simpa using rests
        rw [plain]
        exact List.mem_append_right _ (by decide)
    | true =>
      cases second : e.prerelease with
      | false =>
        rw [first, second] at rests
        refine absurd ?_ inE
        have plain : d.versionReq ++ ":pre".toList = e.versionReq := by simpa using rests
        rw [← plain]
        exact List.mem_append_right _ (by decide)
      | true =>
        rw [first, second] at rests
        exact ⟨List.append_cancel_right rests, rfl⟩
  have same : d.id = e.id := PackageId.ext ids
  cases d
  cases e
  simp_all

namespace PackageManifest

variable {a b : PackageManifest}

theorem SameUpToOrder.fields (same : a.SameUpToOrder b) (first : a.Checked) : a.fields = b.fields := by
  have deps : a.sortedDependencies = b.sortedDependencies := (sortBy_eq_iff first.dependencies).mpr same.dependencies
  rw [PackageManifest.fields, PackageManifest.fields, same.identity, same.compat, deps]

theorem sameUpToOrder_of_fields (first : a.Checked) (second : b.Checked) (ids : a.identity.id = b.identity.id)
    (versions : a.identity.version = b.identity.version) (fields : a.fields = b.fields)
    (caps : a.capabilities.Perm b.capabilities) : a.SameUpToOrder b := by
  simp only [PackageManifest.fields, List.cons_append, List.nil_append, List.cons.injEq] at fields
  obtain ⟨names, descriptions, licenses, bitty, api, deps⟩ := fields
  have license : a.identity.license = b.identity.license := by
    cases here : a.identity.license with
    | none =>
      cases there : b.identity.license with
      | none => rfl
      | some lic => exact absurd (by simpa [here, there] using licenses.symm) (second.license lic there)
    | some lic =>
      cases there : b.identity.license with
      | none => exact absurd (by simpa [here, there] using licenses) (first.license lic here)
      | some other => simpa [here, there] using licenses
  have sorted : a.sortedDependencies = b.sortedDependencies := by
    refine map_eq_of_injOn (fun d inD e inE => dependencyField_inj ?_ ?_) deps
    · exact first.requirements d ((sortBy_perm _ _).mem_iff.mp inD)
    · exact second.requirements e ((sortBy_perm _ _).mem_iff.mp inE)
  have identity : a.identity = b.identity := by
    cases here : a.identity
    cases there : b.identity
    simp_all
  have compat : a.compat = b.compat := by
    have first := optionalField_inj (by decide) bitty
    have second := optionalField_inj (by decide) api
    cases here : a.compat
    cases there : b.compat
    simp_all
  exact ⟨identity, compat, (sortBy_eq_iff first.dependencies).mp sorted, caps, first.declared.trans second.declared.symm⟩

def CapabilityLine (line : Text) : Prop := ∃ c : Text, line = "cap:".toList ++ c ∧ '.' ∈ c

theorem capabilityLine (c : CapabilityId) : CapabilityLine (capabilityField c) := ⟨c.asStr, rfl, c.dotted⟩

theorem breaks_capabilityField (c : CapabilityId) : breaks (capabilityField c) = [capabilityField c] := by
  refine breaks_of_unbroken fun member => ?_
  rcases List.mem_append.mp member with label | inside
  · revert label
    decide
  · exact c.inline inside

theorem not_capabilityLine {start req post line : Text} (inStart : '\n' ∉ start) (nonempty : start ≠ [])
    (other : start.head? ≠ some 'c') (plain : ':' ∉ req) (ends : post = [] ∨ post = ":pre".toList)
    (member : line ∈ breaks (start ++ (req ++ post))) : ¬CapabilityLine line := by
  rintro ⟨c, rfl, dotted⟩
  obtain ⟨first, others, lines, begins, later⟩ := breaks_eq (start ++ (req ++ post))
  rw [lines] at member
  rcases List.mem_cons.mp member with rfl | elsewhere
  · obtain ⟨rest, text⟩ := begins
    refine other ?_
    cases start with
    | nil => exact absurd rfl nonempty
    | cons x xs => exact congrArg some (List.cons.inj text).1.symm
  · obtain ⟨before, after, text⟩ := later _ elsewhere
    -- A later line is made of the requirement and what ends it.
    have inner : ∃ q, req ++ post = q ++ ':' :: (c ++ after) := by
      rcases List.append_eq_append_iff.mp text with ⟨x, -, rest⟩ | ⟨x, rfl, rest⟩
      · exact ⟨x ++ "\ncap".toList, by simpa using rest⟩
      · cases x with
        | nil => exact ⟨"\ncap".toList, rest.symm⟩
        | cons y ys =>
          refine absurd ?_ inStart
          rw [(List.cons.inj rest).1]
          exact List.mem_append_right _ List.mem_cons_self
    obtain ⟨q, colon⟩ := inner
    have label : ":pre".toList = ':' :: ['p', 'r', 'e'] := by decide
    have absent : ':' :: (c ++ after) ≠ ":pre".toList := by
      intro same
      rw [label] at same
      have inside : '.' ∈ ['p', 'r', 'e'] := (List.cons.inj same).2 ▸ List.mem_append_left _ dotted
      revert inside
      decide
    rcases ends with rfl | rfl
    · rw [List.append_nil] at colon
      exact plain (colon ▸ List.mem_append_right _ List.mem_cons_self)
    · rcases List.append_eq_append_iff.mp colon with ⟨y, -, rest⟩ | ⟨y, rfl, rest⟩
      · cases y with
        | nil => exact absent rest.symm
        | cons z zs =>
          rw [label] at rest
          have inside : ':' ∈ ['p', 'r', 'e'] := (List.cons.inj rest).2 ▸ List.mem_append_right _ List.mem_cons_self
          revert inside
          decide
      · cases y with
        | nil => exact absent rest
        | cons z zs =>
          rw [← (List.cons.inj rest).1] at plain
          exact plain (List.mem_append_right _ List.mem_cons_self)

theorem not_capabilityLine_dependency {d : PackageDependency} (plain : ':' ∉ d.versionReq) {line : Text}
    (member : line ∈ breaks (dependencyField d)) : ¬CapabilityLine line := by
  have field : dependencyField d = ("dep:".toList ++ d.id.asStr ++ ['@']) ++
      (d.versionReq ++ if d.prerelease then ":pre".toList else []) := by
    simp [dependencyField]
  rw [field] at member
  refine not_capabilityLine ?_ (by simp) ?_ plain ?_ member
  · intro inside
    rcases List.mem_append.mp inside with earlier | last
    · rcases List.mem_append.mp earlier with label | name
      · revert label
        decide
      · exact d.id.not_mem (by decide) (by decide) name
    · revert last
      decide
  · have label : "dep:".toList = 'd' :: ['e', 'p', ':'] := by decide
    rw [label]
    simp
  · cases d.prerelease with
    | true => exact .inr rfl
    | false => exact .inl rfl

theorem not_capabilityLine_api {compat : Compat} (plain : ∀ req, compat.pluginApi = some req → ':' ∉ req) {line : Text}
    (member : line ∈ breaks (pluginApiField compat)) : ¬CapabilityLine line := by
  unfold pluginApiField at member
  cases here : compat.pluginApi with
  | none =>
    rw [here] at member
    obtain rfl : line = [] := List.mem_singleton.mp member
    rintro ⟨c, same, -⟩
    cases (List.append_eq_nil_iff.mp same.symm).1
  | some req =>
    rw [here] at member
    have ended : line ∈ breaks ("plugin_api:".toList ++ (req ++ [])) := by rwa [List.append_nil]
    exact not_capabilityLine (by decide) (by decide) (by decide) (plain req here) (.inl rfl) ended

theorem getLast_fieldLines (checked : a.Checked) {line : Text} (last : a.fieldLines.getLast? = some line) :
    ¬CapabilityLine line := by
  have final (init : List Text) (field : Text) (split : a.fields = init ++ [field]) : line ∈ breaks field := by
    rw [fieldLines, split, List.flatMap_append, List.flatMap_singleton, List.getLast?_append_of_ne_nil _ (breaks_ne_nil field)]
      at last
    exact List.mem_of_getLast? last
  rcases List.eq_nil_or_concat a.sortedDependencies with none | ⟨deps, d, some⟩
  · have split : a.fields = [a.identity.name, a.identity.description, a.identity.license.getD [], bittyField a.compat] ++
        [pluginApiField a.compat] := by
      rw [fields, none]
      rfl
    exact not_capabilityLine_api checked.pluginApi (final _ _ split)
  · have member : d ∈ a.dependencies := (sortBy_perm _ _).mem_iff.mp (some ▸ by simp : d ∈ a.sortedDependencies)
    have split : a.fields = ([a.identity.name, a.identity.description, a.identity.license.getD [], bittyField a.compat,
        pluginApiField a.compat] ++ deps.map dependencyField) ++ [dependencyField d] := by
      rw [fields, some, List.concat_eq_append, List.map_append]
      rfl
    exact not_capabilityLine_dependency (checked.requirements d member) (final _ _ split)

/-- The encodings agree when the identifiers, the versions, the capabilities and the lines of the other fields do. -/
theorem canonicalText_eq_iff (first : a.Checked) (second : b.Checked) :
    a.canonicalText = b.canonicalText ↔
      a.identity.id = b.identity.id ∧ a.identity.version = b.identity.version ∧ a.fieldLines = b.fieldLines ∧
        a.capabilities.Perm b.capabilities := by
  have plain (m : PackageManifest) (checked : m.Checked) :
      ([CANONICAL_HEADER, m.identity.id.asStr, m.identity.version] ++
        (m.fields ++ m.sortedCapabilities.map capabilityField)).flatMap breaks =
      [CANONICAL_HEADER, m.identity.id.asStr, m.identity.version] ++
        (m.fieldLines ++ m.sortedCapabilities.map capabilityField) := by
    have caps : (m.sortedCapabilities.map capabilityField).flatMap breaks = m.sortedCapabilities.map capabilityField := by
      rw [List.flatMap_map, ← List.flatMap_pure_eq_map]
      exact List.flatMap_congr fun c _ => breaks_capabilityField c
    have header : breaks CANONICAL_HEADER = [CANONICAL_HEADER] := breaks_of_unbroken (by decide)
    have id : breaks m.identity.id.asStr = [m.identity.id.asStr] :=
      breaks_of_unbroken (m.identity.id.not_mem (by decide) (by decide))
    have version : breaks m.identity.version = [m.identity.version] := breaks_of_unbroken checked.version
    rw [List.flatMap_append, List.flatMap_append, caps]
    simp only [List.flatMap_cons, List.flatMap_nil, header, id, version]
    rfl
  rw [canonicalText_eq, canonicalText_eq, unlines_inj, plain a first, plain b second]
  simp only [List.cons_append, List.nil_append, List.cons.injEq, true_and]
  constructor
  · rintro ⟨ids, versions, rest⟩
    have isLine (m : PackageManifest) : ∀ line ∈ m.sortedCapabilities.map capabilityField, CapabilityLine line := by
      intro line member
      obtain ⟨c, -, rfl⟩ := List.mem_map.mp member
      exact capabilityLine c
    obtain ⟨lines, caps⟩ := append_inj_of_last (isLine a) (isLine b) (fun _ => getLast_fieldLines first)
      (fun _ => getLast_fieldLines second) rest
    have sorted : a.sortedCapabilities = b.sortedCapabilities := by
      refine map_eq_of_injOn (fun c _ d _ same => ?_) caps
      exact CapabilityId.ext (List.append_cancel_left same)
    exact ⟨PackageId.ext ids, versions, lines, (sortBy_eq_iff first.capabilities).mp sorted⟩
  · rintro ⟨ids, versions, lines, caps⟩
    refine ⟨congrArg _ ids, versions, ?_⟩
    have sorted : a.sortedCapabilities = b.sortedCapabilities := (sortBy_eq_iff first.capabilities).mpr caps
    rw [lines, sorted]

theorem canonicalDigest_eq_iff (binding : Set.InjOn sha256Hex {a.canonicalBytes, b.canonicalBytes}) :
    a.canonicalDigest = b.canonicalDigest ↔ a.canonicalText = b.canonicalText := by
  constructor
  · intro same
    exact bytes_injective (binding (Set.mem_insert _ _) (Set.mem_insert_of_mem _ rfl) same)
  · intro same
    rw [canonicalDigest, canonicalDigest, canonicalBytes, canonicalBytes, same]

/-- The digest binds a manifest but for lines that change places between fields. -/
theorem canonicalDigest_binds_iff (validA : a.validate = .ok ()) (validB : b.validate = .ok ())
    (binding : Set.InjOn sha256Hex {a.canonicalBytes, b.canonicalBytes}) :
    (a.canonicalDigest = b.canonicalDigest ↔ a.SameUpToOrder b) ↔
      ¬(a.identity.id = b.identity.id ∧ a.identity.version = b.identity.version ∧
        a.capabilities.Perm b.capabilities ∧ a.Redivided b) := by
  have first := checked validA
  have second := checked validB
  rw [canonicalDigest_eq_iff binding, canonicalText_eq_iff first second]
  constructor
  · rintro binds ⟨ids, versions, caps, lines, differ⟩
    exact differ ((binds.mp ⟨ids, versions, lines, caps⟩).fields first)
  · intro apart
    constructor
    · rintro ⟨ids, versions, lines, caps⟩
      refine sameUpToOrder_of_fields first second ids versions ?_ caps
      by_contra differ
      exact apart ⟨ids, versions, caps, lines, differ⟩
    · intro same
      refine ⟨congrArg _ same.identity, congrArg _ same.identity, ?_, same.capabilities⟩
      rw [fieldLines, fieldLines, same.fields first]

def sampleManifest (name description : String) (capabilities : List CapabilityId) : PackageManifest where
  identity := ⟨⟨"xuepoo.theme".toList, valid_theme⟩, name.toList, "1.0.0".toList, description.toList, none⟩
  compat := ⟨none, some "^1.0".toList⟩
  dependencies := []
  capabilities
  rawBytesLen := 0
  undeclaredFields := []

/-- A line of the name becomes one of the description. -/
theorem canonicalDigest_not_binding :
    ¬∀ a b : PackageManifest, a.validate = .ok () → b.validate = .ok () →
      Set.InjOn sha256Hex {a.canonicalBytes, b.canonicalBytes} →
        (a.canonicalDigest = b.canonicalDigest ↔ a.SameUpToOrder b) := by
  intro claim
  have same : (sampleManifest "Theme\nDark" "Colours" []).canonicalText =
      (sampleManifest "Theme" "Dark\nColours" []).canonicalText := by
    decide
  have binds := claim (sampleManifest "Theme\nDark" "Colours" []) (sampleManifest "Theme" "Dark\nColours" [])
    (by decide) (by decide) (by simp [canonicalBytes, same])
  have traded := binds.mp (by rw [canonicalDigest, canonicalDigest, canonicalBytes, canonicalBytes, same])
  have names := congrArg PackageIdentity.name traded.identity
  revert names
  decide

def sampleFileRead : CapabilityId := ⟨"fs.read:/tmp/**".toList, .core, by decide⟩

def sampleConnect : CapabilityId := ⟨"network.connect:example.com:443".toList, .core, by decide⟩

theorem canonicalDigest_binds_sample :
    ((sampleManifest "Theme" "Colours" [sampleFileRead, sampleConnect]).canonicalDigest =
        (sampleManifest "Theme" "Colours" [sampleConnect, sampleFileRead]).canonicalDigest ↔
      (sampleManifest "Theme" "Colours" [sampleFileRead, sampleConnect]).SameUpToOrder
        (sampleManifest "Theme" "Colours" [sampleConnect, sampleFileRead])) := by
  have same : (sampleManifest "Theme" "Colours" [sampleFileRead, sampleConnect]).canonicalText =
      (sampleManifest "Theme" "Colours" [sampleConnect, sampleFileRead]).canonicalText := by
    decide
  refine (canonicalDigest_binds_iff (by decide) (by decide) (by simp [canonicalBytes, same])).mpr ?_
  rintro ⟨-, -, -, -, differ⟩
  revert differ
  decide

end PackageManifest

end Bitty.Package
