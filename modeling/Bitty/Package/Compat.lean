import Bitty.Package.Requirement

/-! Which versions of the host a requirement admits. -/

namespace Bitty.Package

open Text Checks

/-! The meaning of requirements. -/

def Bound.Holds (b : Bound) (v : Semver.Version) : Prop :=
  match b.op with
  | .equal => v.precedence b.version = .eq
  | .greater => v.precedence b.version = .gt
  | .greaterEq => v.precedence b.version ≠ .lt
  | .less => v.precedence b.version = .lt
  | .lessEq => v.precedence b.version ≠ .gt

instance (b : Bound) (v : Semver.Version) : Decidable (b.Holds v) := by
  unfold Bound.Holds
  cases b.op <;> infer_instance

namespace Requirement

variable (r : Requirement) (v : Semver.Version)

def Holds : Prop := ∀ b ∈ r.bounds, b.Holds v

def Names : Prop := ∃ b ∈ r.bounds, b.version.prerelease ≠ [] ∧ b.version.SameCore v

def Admits : Prop := r.Holds v ∧ (v.prerelease = [] ∨ r.Names v)

def Outgrown : Prop :=
  match r with
  | caret p => ¬v.Below (caretLimit p)
  | tilde p => ¬v.Below (tildeLimit p)
  | all _ => False

instance : Decidable (r.Holds v) := inferInstanceAs (Decidable (∀ b ∈ r.bounds, b.Holds v))

instance : Decidable (r.Names v) :=
  inferInstanceAs (Decidable (∃ b ∈ r.bounds, b.version.prerelease ≠ [] ∧ b.version.SameCore v))

end Requirement

/-! Verdicts. -/

theorem Bound.test_compiled {b : Bound} {v : Semver.Version} (accepted : Accepted b.version) (accepted' : Accepted v) :
    b.compiled.test (.of v) = true ↔ b.Holds v := by
  have same : (Version.of v).cmpPrecedence (.of b.version) = v.precedence b.version :=
    Version.cmpPrecedence_of accepted'.wellFormed accepted.wellFormed
  unfold Comparator.test Bound.Holds Bound.compiled
  dsimp only
  rw [same]
  cases b.op <;> cases v.precedence b.version <;> decide

theorem Requirement.compiled_perm (r : Requirement) : r.compiled.Perm (r.bounds.map Bound.compiled) := by
  cases r with
  | caret p => exact .refl _
  | tilde p => exact .refl _
  | all bs => exact List.perm_insertionSort _ _

theorem test_iff {r : Requirement} {raw : Text} {v : Semver.Version} (fits : r.Fits) (accepted : Accepted v) :
    VersionReq.test ⟨r.compiled, raw⟩ (.of v) = true ↔ r.Holds v := by
  rw [VersionReq.test, r.compiled_perm.all_eq, List.all_map, List.all_eq_true]
  exact forall₂_congr fun b member => Bound.test_compiled (fits.versions b member) accepted

theorem checkSingleCompat_ok {r : Requirement} {raw reqField hostField : Text} {v : Semver.Version} (written : Written r raw)
    (accepted : Accepted v) : checkSingleCompat raw v.text reqField hostField = .ok () ↔ r.Holds v := by
  have host : Version.parse v.text = .ok (.of v) := parse_ok_iff.mpr ⟨v, accepted, rfl, rfl⟩
  have req : VersionReq.parse raw = .ok ⟨r.compiled, raw⟩ := VersionReq.parse_ok.mpr ⟨r, written, rfl⟩
  rw [checkSingleCompat, host, req, ← test_iff written.fits accepted]
  show refuseIf _ _ = .ok () ↔ _
  rw [refuseIf_ok, Bool.not_eq_false]

theorem not_holds_of_outgrown {r : Requirement} {v : Semver.Version} (outgrown : r.Outgrown v)
    (named : v.prerelease = [] ∨ r.Names v) : ¬r.Holds v := by
  -- with the numbers of the limit the version has to be a prerelease, and the base is no other of them
  have beyond {p limit : Semver.Version} {a b c : Nat} (release : limit = .release a b c) (less : p.Below limit)
      (outgrown : ¬v.Below limit) (names : v.prerelease = [] ∨
        ∃ bound ∈ [(⟨.greaterEq, p⟩ : Bound), ⟨.less, limit⟩], bound.version.prerelease ≠ [] ∧ bound.version.SameCore v)
      (holds : ∀ bound ∈ [(⟨.greaterEq, p⟩ : Bound), ⟨.less, limit⟩], bound.Holds v) : False := by
    subst release
    have lt : v.precedence (.release a b c) = .lt := holds ⟨.less, .release a b c⟩ (List.mem_cons_of_mem _ List.mem_cons_self)
    rcases Semver.Version.precedence_release_lt.mp lt with below | ⟨core, some⟩
    · exact outgrown below
    · rcases names with none | ⟨bound, member, prerelease, core'⟩
      · exact some none
      · rcases List.mem_cons.mp member with rfl | other
        · obtain ⟨major, minor, patch⟩ := core
          obtain ⟨major', minor', patch'⟩ := core'
          dsimp only [Semver.Version.Below] at less major' minor' patch'
          omega
        · rw [List.mem_singleton.mp other] at prerelease
          exact prerelease rfl
  intro holds
  cases r with
  | caret p =>
    by_cases unstable : p.major = 0 ∧ p.minor = 0
    · have bounds : (Requirement.caret p).bounds = [⟨.equal, p⟩] := if_pos unstable
      have equal : (⟨.equal, p⟩ : Bound).Holds v := holds _ (bounds ▸ List.mem_cons_self)
      obtain ⟨major, minor, patch⟩ := Semver.Version.SameCore.of_precedence equal
      refine outgrown ?_
      rw [caretLimit, if_neg (by omega), if_neg (by omega)]
      exact .inr ⟨by rw [major]; exact unstable.1, .inr ⟨by rw [minor]; exact unstable.2, Nat.lt_succ_of_le patch.le⟩⟩
    · have bounds : (Requirement.caret p).bounds = [⟨.greaterEq, p⟩, ⟨.less, caretLimit p⟩] := if_neg unstable
      rw [Requirement.Names, bounds] at named
      rw [Requirement.Holds, bounds] at holds
      by_cases stable : 0 < p.major
      · have limit : caretLimit p = .release (p.major + 1) 0 0 := if_pos stable
        exact beyond limit (by rw [limit]; exact .inl (Nat.lt_succ_self _)) outgrown named holds
      · have early : 0 < p.minor := by omega
        have zero : p.major = 0 := by omega
        have limit : caretLimit p = .release 0 (p.minor + 1) 0 := (if_neg stable).trans (if_pos early)
        exact beyond limit (by rw [limit]; exact .inr ⟨zero, .inl (Nat.lt_succ_self _)⟩) outgrown named holds
  | tilde p => exact @beyond p (tildeLimit p) _ _ _ rfl (.inr ⟨rfl, .inl (Nat.lt_succ_self _)⟩) outgrown named holds
  | all bs => exact outgrown

/-! White space and order. -/

theorem Bound.Writes.squeeze {b : Bound} {segment : Text} (accepted : Accepted b.version) (written : b.Writes segment) :
    b.Writes (squeeze segment) := by
  obtain ⟨gap, version, blank, short, written⟩ := written
  have dark : ∀ c ∈ version, isWhitespace c = false := fun _ member =>
    isWhitespace_of_isVersionChar (short.isVersionChar accepted member)
  have label : Text.squeeze b.op.label = b.op.label := by cases b.op <;> decide
  refine ⟨[], version, .nil, short, ?_⟩
  rcases written with padded | ⟨equal, padded⟩
  · refine .inl ?_
    rw [padded.squeeze_eq, squeeze_append, squeeze_append, label, blank.squeeze, squeeze_of_dark dark]
    exact .refl _
  · refine .inr ⟨equal, ?_⟩
    rw [padded.squeeze_eq, squeeze_of_dark dark]
    exact .refl _

theorem marked_squeeze {mark : Char} {raw : Text} {p : Semver.Version} (dark : isWhitespace mark = false)
    (accepted : Accepted p)
    (writes : ∃ gap version, Blank gap ∧ Shorthand p version ∧ Padded (mark :: gap ++ version) raw) :
    ∃ gap version, Blank gap ∧ Shorthand p version ∧ Padded (mark :: gap ++ version) (squeeze raw) := by
  obtain ⟨gap, version, blank, short, padded⟩ := writes
  have plain : ∀ c ∈ version, isWhitespace c = false := fun _ member =>
    isWhitespace_of_isVersionChar (short.isVersionChar accepted member)
  have single : Text.squeeze [mark] = [mark] := squeeze_of_dark (by simpa using dark)
  refine ⟨[], version, .nil, short, ?_⟩
  rw [padded.squeeze_eq, show mark :: gap ++ version = [mark] ++ gap ++ version from rfl, squeeze_append, squeeze_append,
    single, blank.squeeze, squeeze_of_dark plain]
  exact .refl _

theorem Written.squeeze {r : Requirement} {raw : Text} (written : Written r raw) : Written r (squeeze raw) := by
  refine ⟨(byteLen_squeeze_le raw).trans written.short, fun c member => written.chars c (List.mem_of_mem_filter member),
    written.fits, ?_⟩
  have writes := written.writes
  have fits := written.fits
  cases r with
  | caret p => exact marked_squeeze (by decide) fits.base_caret writes
  | tilde p => exact marked_squeeze (by decide) fits.base_tilde writes
  | all bs =>
    change List.Forall₂ Bound.Writes bs (raw.splitOn ',') at writes
    show List.Forall₂ Bound.Writes bs ((Text.squeeze raw).splitOn ',')
    rw [splitOn_squeeze (by decide), List.forall₂_map_right_iff]
    have accepted : ∀ b ∈ bs, Accepted b.version := fits.versions
    clear fits written
    generalize raw.splitOn ',' = segments at writes
    induction writes with
    | nil => exact .nil
    | cons first _ ih =>
      obtain ⟨head, tail⟩ := List.forall_mem_cons.mp accepted
      exact .cons (first.squeeze head) (ih tail)

def Shuffled (raw raw' : Text) : Prop := ((raw.splitOn ',').map squeeze).Perm ((raw'.splitOn ',').map squeeze)

instance (raw raw' : Text) : Decidable (Shuffled raw raw') := inferInstanceAs (Decidable (List.Perm _ _))

theorem Shuffled.symm {raw raw' : Text} (shuffled : Shuffled raw raw') : Shuffled raw' raw := List.Perm.symm shuffled

theorem Shuffled.squeeze_eq {raw raw' : Text} (shuffled : Shuffled raw raw') (whole : ',' ∉ raw) :
    squeeze raw' = squeeze raw := by
  rw [Shuffled, List.splitOn_eq_singleton whole, List.map_singleton, List.singleton_perm] at shuffled
  obtain ⟨piece, split, same⟩ := List.map_eq_singleton_iff.mp shuffled.symm
  have joined : List.intercalate [','] (raw'.splitOn ',') = raw' := List.intercalate_splitOn ','
  rw [split] at joined
  rw [← joined, ← same]
  simp [List.intercalate]

theorem comma_not_mem_of_marked {mark : Char} {raw : Text} {p : Semver.Version} (dark : isWhitespace mark = false)
    (other : mark ≠ ',') (accepted : Accepted p)
    (writes : ∃ gap version, Blank gap ∧ Shorthand p version ∧ Padded (mark :: gap ++ version) raw) : ',' ∉ raw := by
  obtain ⟨start, short⟩ := (marked_iff dark accepted).mp writes
  have absent := comma_not_mem other accepted start short
  obtain ⟨l, r, blankL, blankR, whole⟩ := padded_trim raw
  rw [whole]
  intro comma
  rcases List.mem_append.mp comma with front | back
  · rcases List.mem_append.mp front with white | inside
    · exact absurd (blankL _ white) (by decide)
    · exact absent inside
  · exact absurd (blankR _ back) (by decide)

theorem compiled_perm_of_segments {bs bs' : List Bound} {segments segments' : List Text}
    (accepted : ∀ b ∈ bs, Accepted b.version) (accepted' : ∀ b ∈ bs', Accepted b.version)
    (writes : List.Forall₂ Bound.Writes bs segments) (writes' : List.Forall₂ Bound.Writes bs' segments')
    (shuffled : (segments.map squeeze).Perm (segments'.map squeeze)) :
    (bs.map Bound.compiled).Perm (bs'.map Bound.compiled) := by
  have reads {bs : List Bound} {segments : List Text} (accepted : ∀ b ∈ bs, Accepted b.version)
      (writes : List.Forall₂ Bound.Writes bs segments) :
      List.Forall₂ (fun t c => parseSingleComparator t = .ok c) (segments.map squeeze) (bs.map Bound.compiled) := by
    induction writes with
    | nil => exact .nil
    | cons first _ ih =>
      obtain ⟨head, tail⟩ := List.forall_mem_cons.mp accepted
      exact .cons (parseSingleComparator_ok.mpr ⟨_, head, first.squeeze head, rfl⟩) (ih tail)
  obtain ⟨cs, read, perm⟩ := List.perm_comp_forall₂ shuffled (reads accepted' writes')
  have same : cs = bs.map Bound.compiled :=
    List.right_unique_forall₂' (fun _ _ _ one two => Except.ok.inj (one.symm.trans two)) read (reads accepted writes)
  exact same ▸ perm

theorem Shuffled.compiled_perm {r r' : Requirement} {raw raw' : Text} (shuffled : Shuffled raw raw')
    (written : Written r raw) (written' : Written r' raw') : r.compiled.Perm r'.compiled := by
  have whole {r r' : Requirement} {raw raw' : Text} (shuffled : Shuffled raw raw') (absent : ',' ∉ raw)
      (written : Written r raw) (written' : Written r' raw') : r.compiled = r'.compiled := by
    have one : VersionReq.parse (squeeze raw) = _ := VersionReq.parse_ok.mpr ⟨r, written.squeeze, rfl⟩
    have two : VersionReq.parse (squeeze raw') = _ := VersionReq.parse_ok.mpr ⟨r', written'.squeeze, rfl⟩
    rw [shuffled.squeeze_eq absent, one] at two
    exact congrArg VersionReq.comparators (Except.ok.inj two)
  have based {r r' : Requirement} {raw raw' : Text} (shuffled : Shuffled raw raw') (written : Written r raw)
      (written' : Written r' raw') (single : ∀ bs, r ≠ .all bs) : r.compiled = r'.compiled := by
    refine whole shuffled ?_ written written'
    cases r with
    | caret p => exact comma_not_mem_of_marked (by decide) (by decide) written.fits.base_caret written.writes
    | tilde p => exact comma_not_mem_of_marked (by decide) (by decide) written.fits.base_tilde written.writes
    | all bs => exact absurd rfl (single bs)
  by_cases lists : (∃ bs, r = .all bs) ∧ ∃ bs', r' = .all bs'
  · obtain ⟨⟨bs, rfl⟩, bs', rfl⟩ := lists
    have perm := compiled_perm_of_segments written.fits.versions written'.fits.versions written.writes written'.writes shuffled
    exact (Requirement.compiled_perm _).trans (perm.trans (Requirement.compiled_perm _).symm)
  · rcases not_and_or.mp lists with single | single
    · exact .of_eq (based shuffled written written' fun bs same => single ⟨bs, same⟩)
    · exact .of_eq (based shuffled.symm written' written fun bs same => single ⟨bs, same⟩).symm

/-- The verdict on a version is the requirement's, no version of the next incompatible series passes, and neither order
nor white space counts, exactly if the version is no prerelease, or named by the requirement, or out of its bounds. -/
theorem checkSingleCompat_sound_iff {r : Requirement} {raw reqField hostField : Text} {v : Semver.Version}
    (written : Written r raw) (accepted : Accepted v) :
    ((checkSingleCompat raw v.text reqField hostField = .ok () ↔ r.Admits v) ∧
      (r.Outgrown v → checkSingleCompat raw v.text reqField hostField ≠ .ok ()) ∧
      ∀ r' raw', Written r' raw' → Shuffled raw raw' →
        (checkSingleCompat raw' v.text reqField hostField = .ok () ↔
          checkSingleCompat raw v.text reqField hostField = .ok ())) ↔
      (v.prerelease = [] ∨ r.Names v ∨ ¬r.Holds v) := by
  have verdict {r' : Requirement} {raw' : Text} (written' : Written r' raw') :
      checkSingleCompat raw' v.text reqField hostField = .ok () ↔ r'.Holds v := checkSingleCompat_ok written' accepted
  rw [verdict written]
  constructor
  · rintro ⟨admits, -⟩
    by_cases holds : r.Holds v
    · rcases (admits.mp holds).2 with none | names
      · exact .inl none
      · exact .inr (.inl names)
    · exact .inr (.inr holds)
  · intro condition
    have named (holds : r.Holds v) : v.prerelease = [] ∨ r.Names v := by
      rcases condition with none | names | apart
      · exact .inl none
      · exact .inr names
      · exact absurd holds apart
    refine ⟨⟨fun holds => ⟨holds, named holds⟩, And.left⟩,
      fun outgrown passes => ?_, fun r' raw' written' shuffled => ?_⟩
    · have holds := (verdict written).mp passes
      exact not_holds_of_outgrown outgrown (named holds) holds
    rw [verdict written', ← @test_iff r raw v written.fits accepted,
      ← @test_iff r' raw' v written'.fits accepted]
    show r'.compiled.all _ = true ↔ r.compiled.all _ = true
    rw [(shuffled.compiled_perm written written').all_eq]

def base : Semver.Version := .release 1 2 3

def alpha : Semver.Version := { Semver.Version.release 2 0 0 with prerelease := [.alphanumeric "alpha".toList] }

theorem written_caret : Written (.caret base) "^1.2.3".toList := by
  have limit : caretLimit base = .release 2 0 0 := rfl
  refine ⟨by decide, by decide, ⟨fun b member => ?_, by decide⟩, [], _, .nil, .full, .refl _⟩
  rw [show (Requirement.caret base).bounds = [⟨.greaterEq, base⟩, ⟨.less, .release 2 0 0⟩] from rfl] at member
  rcases List.mem_cons.mp member with rfl | other
  · exact accepted_release (by decide) (by decide) (by decide)
  · rw [List.mem_singleton.mp other]
    exact accepted_release (by decide) (by decide) (by decide)

theorem accepted_alpha : Accepted alpha := by
  refine ⟨⟨?_, nofun⟩, by decide, by decide, by decide, by decide⟩
  intro t member
  obtain rfl := Semver.Identifier.alphanumeric.inj (List.mem_singleton.mp member)
  exact ⟨⟨by decide, by decide⟩, by decide⟩

theorem checkSingleCompat_sound_iff_release :
    checkSingleCompat "^1.2.3".toList "1.9.0".toList "f".toList "g".toList = .ok () ↔
      (Requirement.caret base).Admits (.release 1 9 0) := by
  have accepted : Accepted (.release 1 9 0) := accepted_release (by decide) (by decide) (by decide)
  exact ((checkSingleCompat_sound_iff written_caret accepted).mpr (.inl rfl)).1

/-- A prerelease of the next incompatible series passes. -/
theorem checkSingleCompat_next_series : Written (.caret base) "^1.2.3".toList ∧ Accepted alpha ∧
    (Requirement.caret base).Outgrown alpha ∧ ¬(Requirement.caret base).Admits alpha ∧
    checkSingleCompat "^1.2.3".toList "2.0.0-alpha".toList "f".toList "g".toList = .ok () := by
  have outgrown : ¬alpha.Below (.release 2 0 0) := by decide
  refine ⟨written_caret, accepted_alpha, outgrown, fun admits => ?_, ?_⟩
  · rcases admits.2 with none | names
    · cases none
    · exact absurd names (by decide)
  · exact (checkSingleCompat_ok written_caret accepted_alpha).mpr (by decide)

end Bitty.Package
