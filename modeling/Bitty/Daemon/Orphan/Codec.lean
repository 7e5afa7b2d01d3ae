import Bitty.Daemon.Orphan.Record

namespace Bitty.Daemon

open Text

theorem inline_optionalNumber (value : Option Nat) : (optionalNumber value).Inline := by
  cases value with
  | none => decide
  | some n => exact inline_number n

theorem inline_of_validRecordedPath {path : Text} (valid : validRecordedPath path = true) : path.Inline := by
  simp only [validRecordedPath, Bool.decide_and, Bool.and_eq_true, decide_eq_true_eq] at valid
  intro c member
  have plain := (valid.2.2.2 c member).1
  constructor
  · rintro rfl
    exact absurd plain (by decide)
  · rintro rfl
    exact absurd plain (by decide)

theorem inline_encodeGroup {mechanism : Text} (plain : mechanism.Inline) (processGroup : Option ProcessGroupId) :
    (encodeGroup mechanism processGroup).Inline := by
  cases processGroup with
  | none => exact plain
  | some group => exact plain.append (Inline.cons (by decide) (inline_number _))

variable {field : Text}

theorem containmentField_cgroup {path : ByteArray} (encoded : containmentField (some (.cgroup path)) = some field) :
    ∃ text, ofBytes? path = some text ∧ validRecordedPath text = true ∧ field = "cgroup ".toList ++ text := by
  simp only [containmentField] at encoded
  split at encoded
  · cases encoded
  · rename_i text decoded
    split at encoded
    · rename_i valid
      exact ⟨text, decoded, valid, (Option.some.inj encoded).symm⟩
    · cases encoded

theorem inline_containmentField {containment : Option ContainmentRecord}
    (encoded : containmentField containment = some field) : field.Inline := by
  cases containment with
  | none =>
    obtain rfl := Option.some.inj encoded
    decide
  | some containment =>
    cases containment with
    | cgroup path =>
      obtain ⟨text, -, valid, rfl⟩ := containmentField_cgroup encoded
      exact Inline.append (by decide) (inline_of_validRecordedPath valid)
    | subreaper =>
      obtain rfl := Option.some.inj encoded
      decide
    | windowsJob =>
      obtain rfl := Option.some.inj encoded
      decide
    | freebsdReaper processGroup =>
      obtain rfl := Option.some.inj encoded
      exact inline_encodeGroup (by decide) processGroup
    | processGroup processGroup =>
      obtain rfl := Option.some.inj encoded
      exact inline_encodeGroup (by decide) processGroup

theorem parseGroup_encodeGroup (mechanism : Text) (processGroup : Option ProcessGroupId) :
    parseGroup mechanism (encodeGroup mechanism processGroup) = some processGroup := by
  cases processGroup with
  | none =>
    have whole : stripPrefix mechanism mechanism = some [] := by
      simpa using stripPrefix_append mechanism []
    simp [parseGroup, encodeGroup, whole]
  | some group =>
    have digits : ¬(number group.value.toNat = [] ∨ ¬(number group.value.toNat).all Char.isDigit = true) := by
      have all : (number group.value.toNat).all Char.isDigit = true :=
        List.all_eq_true.mpr fun c member => isDigit_of_mem_number member
      have nonempty : number group.value.toNat ≠ [] := Nat.toDigits_ne_nil
      simp [all, nonempty]
    have blank (rest : Text) : stripPrefix " ".toList (' ' :: rest) = some rest := rfl
    simp only [parseGroup, encodeGroup, stripPrefix_append, Option.bind_eq_bind, Option.bind_some, reduceCtorEq,
      if_false, blank, if_neg digits, parseU32_number, NonZeroU32.new_value]

theorem parseContainment_field {containment : Option ContainmentRecord}
    (encoded : containmentField containment = some field) : parseContainment field = some containment := by
  cases containment with
  | none =>
    obtain rfl := Option.some.inj encoded
    rfl
  | some containment =>
    cases containment with
    | cgroup path =>
      obtain ⟨text, decoded, valid, rfl⟩ := containmentField_cgroup encoded
      have freebsd : parseGroup "freebsd_reaper".toList ("cgroup ".toList ++ text) = none := rfl
      have group : parseGroup "process_group".toList ("cgroup ".toList ++ text) = none := rfl
      have other (mechanism : Text) (head : mechanism.head? ≠ some 'c') : "cgroup ".toList ++ text ≠ mechanism := by
        rintro rfl
        exact head rfl
      simp only [parseContainment, if_neg (other _ (show "-".toList.head? ≠ some 'c' by decide)),
        if_neg (other _ (show "subreaper".toList.head? ≠ some 'c' by decide)),
        if_neg (other _ (show "windows_job".toList.head? ≠ some 'c' by decide)), freebsd, group, stripPrefix_append,
        Option.bind_eq_bind, Option.bind_some, valid, if_true, bytes_of_ofBytes? decoded]
    | subreaper =>
      obtain rfl := Option.some.inj encoded
      rfl
    | windowsJob =>
      obtain rfl := Option.some.inj encoded
      rfl
    | freebsdReaper processGroup =>
      obtain rfl := Option.some.inj encoded
      have read := parseGroup_encodeGroup "freebsd_reaper".toList processGroup
      have other (mechanism : Text) (head : mechanism.head? ≠ some 'f') :
          encodeGroup "freebsd_reaper".toList processGroup ≠ mechanism := by
        rintro rfl
        cases processGroup <;> exact head rfl
      simp only [parseContainment, if_neg (other _ (show "-".toList.head? ≠ some 'f' by decide)),
        if_neg (other _ (show "subreaper".toList.head? ≠ some 'f' by decide)),
        if_neg (other _ (show "windows_job".toList.head? ≠ some 'f' by decide)), read]
    | processGroup processGroup =>
      obtain rfl := Option.some.inj encoded
      have read := parseGroup_encodeGroup "process_group".toList processGroup
      have freebsd : parseGroup "freebsd_reaper".toList (encodeGroup "process_group".toList processGroup) = none := by
        cases processGroup <;> rfl
      have other (mechanism : Text) (head : mechanism.head? ≠ some 'p') :
          encodeGroup "process_group".toList processGroup ≠ mechanism := by
        rintro rfl
        cases processGroup <;> exact head rfl
      simp only [parseContainment, if_neg (other _ (show "-".toList.head? ≠ some 'p' by decide)),
        if_neg (other _ (show "subreaper".toList.head? ≠ some 'p' by decide)),
        if_neg (other _ (show "windows_job".toList.head? ≠ some 'p' by decide)), freebsd, read]

theorem number_ne_dash (n : Nat) : number n ≠ "-".toList := by
  intro same
  have dash : '-' ∈ number n := by simp [same]
  exact not_mem_number (by decide) dash

theorem parseOptionalMs_optionalNumber (value : Option UInt64) :
    parseOptionalMs (optionalNumber (value.map UInt64.toNat)) = some value := by
  cases value with
  | none => rfl
  | some ms =>
    simp only [Option.map_some, parseOptionalMs, optionalNumber, if_neg (number_ne_dash _), parseU64_number]

theorem parseIdentity_optionalNumber (identity : Option ProcessIdentity) :
    parseIdentity (optionalNumber (identity.map (·.pid.value.toNat)))
      (optionalNumber (identity.map (·.startTime.toNat)))
      (optionalNumber (identity.map (·.processGroup.value.toNat)))
      (optionalNumber (identity.map (·.uid.toNat))) = some identity := by
  cases identity with
  | none => rfl
  | some identity =>
    simp only [Option.map_some, parseIdentity, optionalNumber, number_ne_dash, false_and, if_false, parseU64_number,
      parseU32_number, Option.bind_eq_bind, Option.bind_some, NonZeroU32.new_value]

theorem OrphanClass.inline_asStr (c : OrphanClass) : c.asStr.Inline := by
  cases c <;> decide

@[simp] theorem OrphanClass.parse_asStr (c : OrphanClass) : OrphanClass.parse c.asStr = some c := by
  cases c <;> rfl

namespace OrphanRecord

@[simp] theorem nextField_entry (key : String) (value : Text) (rest : List Text) :
    nextField key (entry key value :: rest) = some (value, rest) := by
  simp only [nextField, nextLine, entry, field, stripPrefix_append, Option.bind_eq_bind, Option.bind_some]
  rfl

theorem inline_entry {key : String} {value : Text} (plain : Inline key.toList) (inline : value.Inline) :
    (entry key value).Inline := plain.append (Inline.cons (by decide) inline)

theorem inline_fields (r : OrphanRecord) {bootId : BootId} {containment : Text} (inline : containment.Inline) :
    ∀ line ∈ r.fields bootId containment, line.Inline := by
  simp only [fields, List.forall_mem_cons]
  exact ⟨by decide, inline_entry (by decide) (HexId.inline_asHex _), inline_entry (by decide) (inline_number _),
    inline_entry (by decide) (OrphanClass.inline_asStr _), inline_entry (by decide) (BootId.inline_text _),
    inline_entry (by decide) (inline_number _), inline_entry (by decide) (inline_optionalNumber _),
    inline_entry (by decide) inline, inline_entry (by decide) (inline_optionalNumber _),
    inline_entry (by decide) (inline_optionalNumber _), inline_entry (by decide) (inline_optionalNumber _),
    inline_entry (by decide) (inline_optionalNumber _), by simp⟩

variable {r : OrphanRecord} {text : Text}

theorem encode_eq_some (encoded : r.encode = some text) :
    ∃ bootId containment, r.bootId = some bootId ∧ containmentField r.containment = some containment ∧
      text = unlines (r.fields bootId containment) := by
  simp only [encode, Option.bind_eq_bind, Option.bind_eq_some_iff] at encoded
  obtain ⟨bootId, boot, containment, contained, written⟩ := encoded
  exact ⟨bootId, containment, boot, contained, (Option.some.inj written).symm⟩

/-- What the journal writes: a reserved record has no identity, a committed one has it, and a
quarantined one has its time. -/
structure Writable (r : OrphanRecord) : Prop where
  shape : fits r.orphanClass r.identity = true
  stamped : r.orphanClass = .unverified → r.validatedAt ≠ none

theorem parseTail_fields (containment : Option ContainmentRecord) (identity : Option ProcessIdentity) {field : Text}
    (encoded : containmentField containment = some field) :
    parseTail [entry "containment" field,
      entry "pid" (optionalNumber (identity.map (·.pid.value.toNat))),
      entry "start_time" (optionalNumber (identity.map (·.startTime.toNat))),
      entry "process_group" (optionalNumber (identity.map (·.processGroup.value.toNat))),
      entry "uid" (optionalNumber (identity.map (·.uid.toNat)))] = some (containment, identity) := by
  simp only [parseTail, Option.bind_eq_bind, nextField_entry, Option.bind_some, parseContainment_field encoded, if_true,
    parseIdentity_optionalNumber]

theorem bind_of_some {α β : Type} {x : Option α} {a : α} (here : x = some a) (f : α → Option β) : (x >>= f) = f a := by
  rw [here]
  rfl

theorem nextLine_fields (r : OrphanRecord) (bootId : BootId) (containment : Text) :
    nextLine (r.fields bootId containment) = some (JOURNAL_HEADER, (r.fields bootId containment).tail) := rfl

theorem parseValid_encode (writable : r.Writable) (encoded : r.encode = some text) :
    parseValid r.sessionId text = some r := by
  obtain ⟨bootId, field, boot, contained, rfl⟩ := encode_eq_some encoded
  have read : lines (unlines (r.fields bootId field)) = r.fields bootId field :=
    lines_unlines (r.inline_fields (inline_containmentField contained))
  have stamp : (if r.orphanClass = .unverified ∧ r.validatedAt = none then some 0 else r.validatedAt) = r.validatedAt := by
    rw [if_neg]
    exact fun unstamped => writable.stamped unstamped.1 unstamped.2
  have new : JOURNAL_HEADER ≠ LEGACY_JOURNAL_HEADER := by decide
  have known : ¬(¬JOURNAL_HEADER = LEGACY_JOURNAL_HEADER ∧ JOURNAL_HEADER ≠ JOURNAL_HEADER) := by decide
  have fitting : ¬(¬JOURNAL_HEADER = LEGACY_JOURNAL_HEADER ∧ ¬fits r.orphanClass r.identity = true) := by
    simp [writable.shape]
  rw [parseValid, read]
  refine (bind_of_some (nextLine_fields r bootId field) _).trans ?_
  dsimp only
  rw [if_neg known]
  refine (bind_of_some (nextField_entry _ _ _) _).trans ?_
  refine (bind_of_some (HexId.parse_asHex _) _).trans ?_
  rw [if_neg (fun other => other rfl)]
  refine (bind_of_some (nextField_entry _ _ _) _).trans ?_
  refine (bind_of_some (parseU64_number _) _).trans ?_
  refine (bind_of_some (nextField_entry _ _ _) _).trans ?_
  refine (bind_of_some (OrphanClass.parse_asStr _) _).trans ?_
  refine (bind_of_some (nextField_entry _ _ _) _).trans ?_
  refine (bind_of_some (BootId.parse_text _) _).trans ?_
  refine (bind_of_some (nextField_entry _ _ _) _).trans ?_
  refine (bind_of_some (parseU64_number _) _).trans ?_
  refine (bind_of_some (nextField_entry _ _ _) _).trans ?_
  refine (bind_of_some (parseOptionalMs_optionalNumber _) _).trans ?_
  dsimp only
  rw [if_neg new]
  refine (bind_of_some (parseTail_fields r.containment r.identity contained) _).trans ?_
  dsimp only
  rw [if_neg fitting, stamp, ← boot]

theorem parse_encode (writable : r.Writable) (encoded : r.encode = some text) : parse r.sessionId text = r := by
  rw [parse, parseValid_encode writable encoded, Option.getD_some]

theorem parseLegacyTail_eq_some {lines : List Text} {tail : Option ContainmentRecord × Option ProcessIdentity}
    (read : parseLegacyTail lines = some tail) : tail = (none, none) := by
  obtain ⟨⟨_, afterPid⟩, -, read⟩ := Option.bind_eq_some_iff.mp read
  obtain ⟨⟨_, afterStart⟩, -, read⟩ := Option.bind_eq_some_iff.mp read
  obtain ⟨⟨_, afterGroup⟩, -, read⟩ := Option.bind_eq_some_iff.mp read
  dsimp only at read
  split at read
  · exact (Option.some.inj read).symm
  · cases read

theorem parseValid_eq_some {s : SessionId} (read : parseValid s text = some r) :
    r.sessionId = s ∧ r.bootId ≠ none ∧ (r.orphanClass = .reserved → r.identity = none) := by
  obtain ⟨⟨header, rest⟩, -, read⟩ := Option.bind_eq_some_iff.mp read
  dsimp only at read
  split at read
  · cases read
  obtain ⟨⟨session, rest⟩, -, read⟩ := Option.bind_eq_some_iff.mp read
  obtain ⟨parsed, -, read⟩ := Option.bind_eq_some_iff.mp read
  split at read
  · cases read
  obtain ⟨⟨generationText, rest⟩, -, read⟩ := Option.bind_eq_some_iff.mp read
  obtain ⟨generation, -, read⟩ := Option.bind_eq_some_iff.mp read
  obtain ⟨⟨classText, rest⟩, -, read⟩ := Option.bind_eq_some_iff.mp read
  obtain ⟨orphanClass, -, read⟩ := Option.bind_eq_some_iff.mp read
  obtain ⟨⟨bootText, rest⟩, -, read⟩ := Option.bind_eq_some_iff.mp read
  obtain ⟨bootId, -, read⟩ := Option.bind_eq_some_iff.mp read
  obtain ⟨⟨reservedText, rest⟩, -, read⟩ := Option.bind_eq_some_iff.mp read
  obtain ⟨reservedAt, -, read⟩ := Option.bind_eq_some_iff.mp read
  obtain ⟨⟨validatedText, rest⟩, -, read⟩ := Option.bind_eq_some_iff.mp read
  obtain ⟨validatedAt, -, read⟩ := Option.bind_eq_some_iff.mp read
  dsimp only at read
  split at read
  · obtain ⟨tail, legacy, read⟩ := Option.bind_eq_some_iff.mp read
    obtain rfl := parseLegacyTail_eq_some legacy
    split at read
    · cases read
    · obtain rfl := Option.some.inj read
      exact ⟨rfl, by simp, fun _ => rfl⟩
  · rename_i current
    obtain ⟨⟨containment, identity⟩, -, read⟩ := Option.bind_eq_some_iff.mp read
    dsimp only at read
    split at read
    · cases read
    · rename_i fitting
      obtain rfl := Option.some.inj read
      refine ⟨rfl, by simp, ?_⟩
      rintro rfl
      cases identity with
      | none => rfl
      | some identity => exact absurd ⟨current, by simp [fits]⟩ fitting

theorem byteLen_entry (key : String) (value : Text) :
    byteLen (entry key value) = byteLen key.toList + 1 + byteLen value := by
  have blank : (' ' : Char).utf8Size = 1 := by decide
  rw [entry, byteLen_append, byteLen_cons, blank]
  omega

theorem byteLen_optionalNumber_le {α : Type} (value : Option α) {f : α → Nat} {max : Nat} (bounded : ∀ a, f a ≤ max) :
    byteLen (optionalNumber (value.map f)) ≤ byteLen (number max) := by
  cases value with
  | none =>
    have dash : byteLen "-".toList = 1 := by decide
    have digits := byteLen_number_pos max
    simp only [optionalNumber, Option.map_none, dash]
    omega
  | some a => exact byteLen_number_mono (bounded a)

theorem le_of_u32 (n : UInt32) : n.toNat ≤ 4294967295 := Nat.le_of_lt_succ n.toNat_lt

theorem le_of_u64 (n : UInt64) : n.toNat ≤ 18446744073709551615 := Nat.le_of_lt_succ n.toNat_lt

theorem byteLen_asStr_le (c : OrphanClass) : byteLen c.asStr ≤ byteLen OrphanClass.unverified.asStr := by
  cases c <;> decide

structure SameReservation (r r' : OrphanRecord) : Prop where
  sessionId : r'.sessionId = r.sessionId
  generation : r'.generation = r.generation
  bootId : r'.bootId = r.bootId
  reservedAt : r'.reservedAt = r.reservedAt
  containment : r'.containment = r.containment

theorem byteLen_fields_le {r' : OrphanRecord} (same : r.SameReservation r') (bootId : BootId) (containment : Text) :
    byteLen (unlines (r'.fields bootId containment)) ≤ byteLen (unlines (r.worstCase.fields bootId containment)) := by
  have orphanClass := byteLen_asStr_le r'.orphanClass
  have validatedAt := byteLen_optionalNumber_le r'.validatedAt le_of_u64
  have pid := byteLen_optionalNumber_le r'.identity fun identity => le_of_u32 identity.pid.value
  have startTime := byteLen_optionalNumber_le r'.identity fun identity => le_of_u64 identity.startTime
  have processGroup := byteLen_optionalNumber_le r'.identity fun identity => le_of_u32 identity.processGroup.value
  have uid := byteLen_optionalNumber_le r'.identity fun identity => le_of_u32 identity.uid
  have sameSession := same.sessionId
  have sameGeneration := same.generation
  have sameReservedAt := same.reservedAt
  have worstWide : optionalNumber (some (18446744073709551615 : UInt64).toNat) = number 18446744073709551615 := rfl
  have worstNarrow : optionalNumber (some (4294967295 : UInt32).toNat) = number 4294967295 := rfl
  simp only [byteLen_unlines, fields, worstCase, maxIdentity, NonZeroU32.max, List.map_cons, List.map_nil,
    List.sum_cons, List.sum_nil, byteLen_entry, sameSession, sameGeneration, sameReservedAt, Option.map_some, worstWide,
    worstNarrow]
  omega

theorem encode_fits {r' : OrphanRecord} (same : r.SameReservation r') (contained : r.containment ≠ none) {limit : Nat}
    (room : r.worstCaseEncodedBytes ≤ limit) (small : limit < USIZE_MAX) :
    ∃ text, r'.encode = some text ∧ byteLen text ≤ limit := by
  obtain ⟨containment, kind⟩ := Option.ne_none_iff_exists'.mp contained
  have worstContainment : r.worstCase.containment = r.containment := by simp only [worstCase, kind]
  cases worst : r.worstCase.encode with
  | none =>
    rw [worstCaseEncodedBytes, worst] at room
    exact absurd (Nat.lt_of_le_of_lt room small) (Nat.lt_irrefl _)
  | some encoded =>
    obtain ⟨bootId, field, boot, written, rfl⟩ := encode_eq_some worst
    rw [worstContainment] at written
    rw [worstCaseEncodedBytes, worst] at room
    refine ⟨unlines (r'.fields bootId field), ?_, (byteLen_fields_le same bootId field).trans room⟩
    have booted : r'.bootId = some bootId := same.bootId.trans boot
    have held : containmentField r'.containment = some field := by rw [same.containment, written]
    rw [encode, booted, held]
    rfl

end OrphanRecord

end Bitty.Daemon
