import Bitty.Plugin.Grant.Read

namespace Bitty.Plugin

open Text Checks GrantStore

theorem toFinset_inOrder (caps : Finset CapabilityId) : (inOrder caps).toFinset = caps := by
  ext c
  simp

theorem solid_number (n : Nat) : Solid (number n) := by
  have dark (c : Char) (member : c ∈ number n) : isWhitespace c = false := by
    have bounds : 48 ≤ c.toNat ∧ c.toNat ≤ 57 := by
      simpa [Char.isDigit, UInt32.le_iff_toNat_le] using isDigit_of_mem_number member
    have other (m : Nat) (outside : m < 48 ∨ 57 < m) : c.toNat ≠ m := by omega
    simp [isWhitespace, other]
    omega
  obtain ⟨c, rest, digits⟩ := List.exists_cons_of_ne_nil (show number n ≠ [] from Nat.toDigits_ne_nil)
  rw [digits] at dark ⊢
  exact ⟨⟨c, rfl, dark c List.mem_cons_self⟩, _, List.getLast?_eq_some_getLast (List.cons_ne_nil _ _),
    dark _ (List.getLast_mem _)⟩

theorem solid_boolText (b : Bool) : Solid (boolText b) := by
  cases b with
  | true => exact ⟨⟨'t', rfl, by decide⟩, ⟨'e', rfl, by decide⟩⟩
  | false => exact ⟨⟨'f', rfl, by decide⟩, ⟨'e', rfl, by decide⟩⟩

theorem solid_capList (caps : List CapabilityId) : Solid (capList caps) := by
  refine ⟨⟨'[', rfl, by decide⟩, ⟨']', ?_, by decide⟩⟩
  rw [capList, List.getLast?_append]
  rfl

namespace SectionBuilder

variable {builder builder' : SectionBuilder} {line : Nat}

theorem set_manifestHash {hash : Text} (read : builder.set "manifest_hash".toList (quoted hash) line = .ok builder') :
    builder' = { builder with manifestHash := some hash } := by
  unfold set at read
  rw [if_pos rfl] at read
  obtain ⟨-, read⟩ := seq_ok.mp read
  obtain ⟨text, quoted, checked⟩ := Except.bind_ok read
  obtain rfl := parseQuoted_quoted quoted
  obtain ⟨-, made⟩ := seq_ok.mp checked
  exact (Except.ok.inj made).symm

theorem set_decidedAt {decidedAt : UInt64}
    (read : builder.set "decided_at".toList (number decidedAt.toNat) line = .ok builder') :
    builder' = { builder with decidedAt := some decidedAt } := by
  unfold set at read
  rw [if_neg (by decide), if_pos rfl] at read
  obtain ⟨-, read⟩ := seq_ok.mp read
  rw [parseU64_number] at read
  exact (Except.ok.inj read).symm

theorem set_origin {origin : GrantOrigin} (read : builder.set "origin".toList (quoted origin.asStr) line = .ok builder') :
    builder' = { builder with origin := some origin } := by
  unfold set at read
  rw [if_neg (by decide), if_neg (by decide), if_pos rfl] at read
  obtain ⟨-, read⟩ := seq_ok.mp read
  obtain ⟨text, quoted, known⟩ := Except.bind_ok read
  obtain rfl := parseQuoted_quoted quoted
  rw [GrantOrigin.parse_asStr] at known
  exact (Except.ok.inj known).symm

theorem set_denied {b : Bool} (read : builder.set "denied".toList (boolText b) line = .ok builder') :
    builder' = { builder with denied := some b } := by
  unfold set at read
  rw [if_neg (by decide), if_neg (by decide), if_neg (by decide), if_pos rfl] at read
  obtain ⟨-, read⟩ := seq_ok.mp read
  rw [parseBool_boolText] at read
  exact (Except.ok.inj read).symm

theorem set_granted {caps : List CapabilityId} (renderable : ∀ c ∈ caps, '"' ∉ c.asStr)
    (read : builder.set "granted".toList (capList caps) line = .ok builder') :
    builder' = { builder with granted := some caps.toFinset } ∧ ∀ c ∈ caps, c.Plain := by
  unfold set at read
  rw [if_neg (by decide), if_neg (by decide), if_neg (by decide), if_neg (by decide), if_pos rfl] at read
  obtain ⟨-, read⟩ := seq_ok.mp read
  obtain ⟨found, parsed, made⟩ := Except.bind_ok read
  obtain ⟨rfl, plain⟩ := parseCapabilityArray_capList renderable parsed
  exact ⟨(Except.ok.inj made).symm, plain⟩

theorem set_pluginDenied {b : Bool} (read : builder.set "plugin_denied".toList (boolText b) line = .ok builder') :
    builder' = { builder with pluginDenied := some b } := by
  unfold set at read
  rw [if_neg (by decide), if_neg (by decide), if_neg (by decide), if_neg (by decide), if_neg (by decide), if_pos rfl] at read
  obtain ⟨-, read⟩ := seq_ok.mp read
  rw [parseBool_boolText] at read
  exact (Except.ok.inj read).symm

theorem set_capDenied {caps : List CapabilityId} (renderable : ∀ c ∈ caps, '"' ∉ c.asStr)
    (read : builder.set "cap_denied".toList (capList caps) line = .ok builder') :
    builder' = { builder with capDenied := some caps.toFinset } ∧ ∀ c ∈ caps, c.Plain := by
  unfold set at read
  rw [if_neg (by decide), if_neg (by decide), if_neg (by decide), if_neg (by decide), if_neg (by decide), if_neg (by decide),
    if_pos rfl] at read
  obtain ⟨-, read⟩ := seq_ok.mp read
  obtain ⟨found, parsed, made⟩ := Except.bind_ok read
  obtain ⟨rfl, plain⟩ := parseCapabilityArray_capList renderable parsed
  exact ⟨(Except.ok.inj made).symm, plain⟩

end SectionBuilder

theorem quotedLine_ok {key value text : Text} (written : quotedLine key value = .ok text) :
    value.Inline ∧ text = assignment key (quoted value) := by
  obtain ⟨renderable, made⟩ := seq_ok.mp written
  exact ⟨(checkRenderable_ok renderable).2, (Except.ok.inj made).symm⟩

theorem capLine_ok {key text : Text} {caps : Finset CapabilityId} (written : capLine key caps = .ok text) :
    (∀ c ∈ inOrder caps, '"' ∉ c.asStr ∧ c.asStr.Inline) ∧ text = assignment key (capList (inOrder caps)) := by
  obtain ⟨renderable, made⟩ := seq_ok.mp written
  exact ⟨fun c member => checkRenderable_ok (each_ok.mp renderable c member), (Except.ok.inj made).symm⟩

namespace ParseState

variable {state next final : ParseState} {builder : SectionBuilder} {line : Nat}

theorem parseLines_cons {raw : Text} {rest : List Text} (read : state.parseLines line (raw :: rest) = .ok final) :
    ∃ next, state.parseLine line raw = .ok next ∧ next.parseLines (line + 1) rest = .ok final := Except.bind_ok read

theorem parseLines_append {first rest : List Text} (read : state.parseLines line (first ++ rest) = .ok final) :
    ∃ next, state.parseLines line first = .ok next ∧ next.parseLines (line + first.length) rest = .ok final := by
  induction first generalizing state line with
  | nil => exact ⟨state, rfl, read⟩
  | cons raw others ih =>
    obtain ⟨between, one, more⟩ := parseLines_cons read
    obtain ⟨next, some, left⟩ := ih more
    refine ⟨next, ?_, ?_⟩
    · rw [parseLines, one]
      exact some
    · rw [List.length_cons, Nat.add_comm others.length, ← Nat.add_assoc]
      exact left

theorem parseLine_set {key value : Text} (current : state.current = some builder) (word : Word key) (solid : Solid value)
    (read : state.parseLine line (assignment key value) = .ok next) :
    ∃ builder', builder.set key value line = .ok builder' ∧ next = { state with current := some builder' } := by
  have parsed := parseLine_assignment word solid read
  rw [current] at parsed
  exact parsed

theorem parseLines_record {record : GrantRecord} {ls : List Text} (current : state.current = some builder)
    (written : recordLines record = .ok ls) (read : state.parseLines line ls = .ok final) :
    final = { state with
      current := some { builder with
        manifestHash := some record.manifestHash
        decidedAt := some record.decidedAt
        origin := some record.origin
        denied := some record.denied
        granted := some record.granted } } := by
  obtain ⟨hash, hashed, written⟩ := Except.bind_ok written
  obtain ⟨origin, originated, written⟩ := Except.bind_ok written
  obtain ⟨granted, listed, written⟩ := Except.bind_ok written
  obtain rfl := Except.ok.inj written
  obtain ⟨-, rfl⟩ := quotedLine_ok hashed
  obtain ⟨-, rfl⟩ := quotedLine_ok originated
  obtain ⟨renderable, rfl⟩ := capLine_ok listed
  obtain ⟨_, one, read⟩ := parseLines_cons read
  obtain ⟨b, set, rfl⟩ := parseLine_set current (by decide) (solid_quoted _) one
  obtain rfl := SectionBuilder.set_manifestHash set
  obtain ⟨_, two, read⟩ := parseLines_cons read
  obtain ⟨b, set, rfl⟩ := parseLine_set rfl (by decide) (solid_number _) two
  obtain rfl := SectionBuilder.set_decidedAt set
  obtain ⟨_, three, read⟩ := parseLines_cons read
  obtain ⟨b, set, rfl⟩ := parseLine_set rfl (by decide) (solid_quoted _) three
  obtain rfl := SectionBuilder.set_origin set
  obtain ⟨_, four, read⟩ := parseLines_cons read
  obtain ⟨b, set, rfl⟩ := parseLine_set rfl (by decide) (solid_boolText _) four
  obtain rfl := SectionBuilder.set_denied set
  obtain ⟨_, five, read⟩ := parseLines_cons read
  obtain ⟨b, set, rfl⟩ := parseLine_set rfl (by decide) (solid_capList _) five
  obtain ⟨rfl, -⟩ := SectionBuilder.set_granted (fun c member => (renderable c member).1) set
  rw [← Except.ok.inj read, toFinset_inOrder]

end ParseState

namespace GrantStore

def builder (store : GrantStore) (id : Text) (line : Nat) : SectionBuilder where
  id := id
  line := line
  manifestHash := store.records[id]?.map GrantRecord.manifestHash
  decidedAt := store.records[id]?.map GrantRecord.decidedAt
  origin := store.records[id]?.map GrantRecord.origin
  denied := store.records[id]?.map GrantRecord.denied
  granted := store.records[id]?.map GrantRecord.granted
  pluginDenied := some (decide (id ∈ store.denials))
  capDenied := some (store.deniedCaps[id]?.getD ∅)

def copy (store mid : GrantStore) (id : Text) : GrantStore :=
  (store.builder id 0).mark (match store.records[id]? with
    | some record => mid.put record
    | none => mid)

end GrantStore

theorem SectionBuilder.flush_builder {store mid final : GrantStore} {id : Text} {line : Nat}
    (flushed : (store.builder id line).flush mid = .ok final) : final = store.copy mid id := by
  obtain ⟨-, written⟩ := seq_ok.mp flushed
  unfold copy
  cases found : store.records[id]? with
  | none =>
    have bare : (store.builder id line).hasRecord = false := by simp [hasRecord, builder, found]
    rw [bare] at written
    exact (Except.ok.inj written).symm
  | some record =>
    have full : (store.builder id line).hasRecord = true := by simp [hasRecord, builder, found]
    rw [full, if_pos rfl] at written
    obtain ⟨new, made, written⟩ := Except.bind_ok written
    have same : new = record := by
      simp only [SectionBuilder.record, builder, found, Option.map_some, require] at made
      obtain ⟨hash, first, made⟩ := Except.bind_ok made
      obtain rfl := Except.ok.inj first
      obtain ⟨decided, second, made⟩ := Except.bind_ok made
      obtain rfl := Except.ok.inj second
      obtain ⟨origin, third, made⟩ := Except.bind_ok made
      obtain rfl := Except.ok.inj third
      obtain ⟨denied, fourth, made⟩ := Except.bind_ok made
      obtain rfl := Except.ok.inj fourth
      obtain ⟨granted, fifth, made⟩ := Except.bind_ok made
      obtain rfl := Except.ok.inj fifth
      obtain ⟨owner, known, made⟩ := Except.bind_ok made
      have named : owner = record.pluginId :=
        PluginId.ext ((PluginId.asStr_of_new (mapError_ok.mp known)).trans (store.keyed _ _ found).symm)
      rw [← Except.ok.inj made, named]
    rw [← Except.ok.inj written, same]
    rfl

namespace ParseState

variable {store : GrantStore} {state final : ParseState} {line : Nat} {id : Text} {ls : List Text}

theorem parseLines_section (written : store.sectionLines id = .ok ls) (read : state.parseLines line ls = .ok final) :
    ∃ mid, state.finish = .ok mid ∧ final = { state with store := mid, current := some (store.builder id (line + 1)) } := by
  obtain ⟨-, written⟩ := seq_ok.mp written
  obtain ⟨recorded, filled, written⟩ := Except.bind_ok written
  obtain ⟨capDenied, listed, written⟩ := Except.bind_ok written
  obtain rfl := Except.ok.inj written
  obtain ⟨renderable, rfl⟩ := capLine_ok listed
  obtain ⟨again, blank, later⟩ := parseLines_cons read
  rw [parseLine_blank blank] at later
  obtain ⟨_, opened, inside⟩ := parseLines_cons later
  obtain ⟨mid, finished, rfl⟩ := parseLine_header opened
  obtain ⟨next, first, marks⟩ := parseLines_append inside
  refine ⟨mid, finished, ?_⟩
  have carried : next = { state with
      store := mid
      current := some { store.builder id (line + 1) with
        pluginDenied := none
        capDenied := none } } := by
    unfold recordPart at filled
    cases found : store.records[id]? with
    | none =>
      rw [found] at filled
      obtain rfl := Except.ok.inj filled
      rw [← Except.ok.inj first]
      simp [builder, found]
    | some record =>
      rw [found] at filled
      rw [parseLines_record rfl filled first]
      simp [builder, found]
  obtain ⟨_, one, rest⟩ := parseLines_cons marks
  obtain ⟨b, set, rfl⟩ := parseLine_set (by rw [carried]) (by decide) (solid_boolText _) one
  obtain rfl := SectionBuilder.set_pluginDenied set
  obtain ⟨_, two, done⟩ := parseLines_cons rest
  obtain ⟨b, set, rfl⟩ := parseLine_set rfl (by decide) (solid_capList _) two
  obtain ⟨rfl, -⟩ := SectionBuilder.set_capDenied (fun c member => (renderable c member).1) set
  rw [← Except.ok.inj done, toFinset_inOrder, carried]
  rfl

theorem parseLines_sections {ids : List Text} {mid : GrantStore} (written : store.sections ids = .ok ls)
    (read : state.parseLines line ls = .ok final) (finished : final.finish = .ok mid) :
    ∃ first, state.finish = .ok first ∧ mid = ids.foldl store.copy first := by
  induction ids generalizing state line ls with
  | nil =>
    obtain rfl := Except.ok.inj written
    obtain rfl := Except.ok.inj read
    exact ⟨mid, finished, rfl⟩
  | cons id rest ih =>
    obtain ⟨one, section', written⟩ := Except.bind_ok written
    obtain ⟨others, sections, written⟩ := Except.bind_ok written
    obtain rfl := Except.ok.inj written
    obtain ⟨next, here, read⟩ := parseLines_append read
    obtain ⟨first, closed, rfl⟩ := parseLines_section section' here
    obtain ⟨second, flushed, whole⟩ := ih sections read
    refine ⟨first, closed, ?_⟩
    rw [whole, SectionBuilder.flush_builder flushed]
    rfl

end ParseState

namespace GrantStore

variable {store mid : GrantStore} {id k : Text}

theorem mem_orderedIds : k ∈ store.orderedIds ↔
    (∃ record, store.records[k]? = some record) ∨ k ∈ store.denials ∨ ∃ caps, store.deniedCaps[k]? = some caps := by
  unfold orderedIds ids
  rw [TextSet.mem_inOrder, Finset.mem_union, Finset.mem_union, List.mem_toFinset, List.mem_toFinset, Std.ExtTreeMap.mem_keys,
    Std.ExtTreeMap.mem_keys, TreeMap.mem_iff, TreeMap.mem_iff, or_assoc]

theorem mark_records (b : SectionBuilder) : (b.mark store).records = store.records := by
  unfold SectionBuilder.mark
  dsimp only
  split
  next => split <;> rfl
  next =>
    split
    next => split <;> rfl
    next => split <;> rfl

theorem mark_denials (b : SectionBuilder) :
    (b.mark store).denials = if b.pluginDenied.getD false then Insert.insert b.id store.denials else store.denials := by
  unfold SectionBuilder.mark
  dsimp only
  split
  next => split <;> rfl
  next =>
    split
    next => split <;> rfl
    next => split <;> rfl

theorem find_copy_records :
    (store.copy mid id).records[k]? = if id = k then store.records[k]?.or mid.records[k]? else mid.records[k]? := by
  unfold copy
  rw [mark_records]
  cases found : store.records[id]? with
  | none =>
    by_cases here : id = k
    · subst here
      simp [found]
    · simp [here]
  | some record =>
    have named := store.keyed _ _ found
    simp only [put, TreeMap.find_insert, named]
    by_cases here : id = k
    · subst here
      simp [found]
    · simp [here]

theorem mem_copy_denials : k ∈ (store.copy mid id).denials ↔ id = k ∧ k ∈ store.denials ∨ k ∈ mid.denials := by
  have kept : (match store.records[id]? with | some record => mid.put record | none => mid).denials = mid.denials := by
    split <;> rfl
  unfold copy
  rw [mark_denials, kept]
  by_cases denied : id ∈ store.denials
  · simp only [builder, denied, decide_true, Option.getD_some, if_true, Finset.mem_insert]
    constructor
    · rintro (rfl | member)
      · exact .inl ⟨rfl, denied⟩
      · exact .inr member
    · rintro (⟨rfl, -⟩ | member)
      · exact .inl rfl
      · exact .inr member
  · simp only [builder, denied, decide_false, Option.getD_some, Bool.false_eq_true, if_false]
    constructor
    · exact .inr
    · rintro (⟨rfl, member⟩ | member)
      · exact absurd member denied
      · exact member

theorem mark_deniedCaps (b : SectionBuilder) : (b.mark store).deniedCaps[k]? =
    if b.id = k ∧ b.capDenied.getD ∅ ≠ ∅ then b.capDenied else store.deniedCaps[k]? := by
  have kept : (if b.pluginDenied.getD false then store.deny b.id else store).deniedCaps = store.deniedCaps := by
    split <;> rfl
  unfold SectionBuilder.mark
  dsimp only
  cases given : b.capDenied with
  | none => simp [kept]
  | some caps =>
    dsimp only
    split
    next some =>
      simp only [putDenied, TreeMap.find_insert, kept]
      by_cases here : b.id = k
      · simp [here, some]
      · simp [here]
    next nothing =>
      rw [not_not] at nothing
      simp [kept, nothing]

theorem find_copy_deniedCaps :
    (store.copy mid id).deniedCaps[k]? = if id = k then store.deniedCaps[k]?.or mid.deniedCaps[k]? else mid.deniedCaps[k]? := by
  have base : (match store.records[id]? with | some record => mid.put record | none => mid).deniedCaps = mid.deniedCaps := by
    split <;> rfl
  unfold copy
  rw [mark_deniedCaps, base]
  by_cases here : id = k
  · subst here
    cases found : store.deniedCaps[id]? with
    | none => simp [builder, found]
    | some caps => simp [builder, found, store.listed _ _ found]
  · simp [builder, here]

theorem find_foldl_copy (ids : List Text) (mid : GrantStore) :
    (ids.foldl store.copy mid).records[k]? = (if k ∈ ids then store.records[k]?.or mid.records[k]? else mid.records[k]?) ∧
    (k ∈ (ids.foldl store.copy mid).denials ↔ k ∈ ids ∧ k ∈ store.denials ∨ k ∈ mid.denials) ∧
    (ids.foldl store.copy mid).deniedCaps[k]? =
      (if k ∈ ids then store.deniedCaps[k]?.or mid.deniedCaps[k]? else mid.deniedCaps[k]?) := by
  induction ids generalizing mid with
  | nil => simp
  | cons id rest ih =>
    obtain ⟨records, denials, deniedCaps⟩ := ih (store.copy mid id)
    rw [List.foldl_cons, records, denials, deniedCaps, find_copy_records, find_copy_deniedCaps, mem_copy_denials]
    by_cases here : id = k
    · subst here
      by_cases again : id ∈ rest
      · refine ⟨?_, by simp [again], ?_⟩
        · cases store.records[id]? <;> simp
        · cases store.deniedCaps[id]? <;> simp
      · simp [again]
    · have other : k ≠ id := Ne.symm here
      simp [here, other]

theorem foldl_copy_orderedIds : store.orderedIds.foldl store.copy {} = store := by
  refine GrantStore.ext ?_ ?_ ?_
  · refine Std.ExtTreeMap.ext_getElem? fun k => ?_
    rw [(find_foldl_copy _ _).1]
    split
    next => simp
    next absent =>
      cases found : store.records[k]? with
      | none => simp
      | some record => exact absurd (mem_orderedIds.mpr (.inl ⟨record, found⟩)) absent
  · ext k
    rw [(find_foldl_copy _ _).2.1]
    simp only [Finset.notMem_empty, or_false, and_iff_right_iff_imp]
    exact fun member => mem_orderedIds.mpr (.inr (.inl member))
  · refine Std.ExtTreeMap.ext_getElem? fun k => ?_
    rw [(find_foldl_copy _ _).2.2]
    split
    next => simp
    next absent =>
      cases found : store.deniedCaps[k]? with
      | none => simp
      | some caps => exact absurd (mem_orderedIds.mpr (.inr (.inr ⟨caps, found⟩))) absent

theorem inline_assignment {key value : Text} (word : Word key) (plain : value.Inline) : (assignment key value).Inline := by
  have inKey : key.Inline := fun c member => ⟨word.ne_of_mem member (by decide), word.ne_of_mem member (by decide)⟩
  exact (inKey.append (by decide)).append plain

theorem inline_boolText (b : Bool) : (boolText b).Inline := by
  cases b with
  | true => decide
  | false => decide

theorem inline_origin (origin : GrantOrigin) : origin.asStr.Inline := by
  cases origin <;> decide

theorem inline_capList {caps : List CapabilityId} (plain : ∀ c ∈ caps, c.asStr.Inline) : (capList caps).Inline := by
  have joined : ∀ texts : List Text, (∀ text ∈ texts, text.Inline) → Inline (List.intercalate ", ".toList texts) := by
    intro texts
    induction texts with
    | nil => exact fun _ => by decide
    | cons text rest ih =>
      intro each
      have later := ih fun other member => each other (List.mem_cons_of_mem _ member)
      cases rest with
      | nil => simpa using each text List.mem_cons_self
      | cons next others =>
        rw [List.intercalate_cons_cons]
        exact ((each text List.mem_cons_self).append (by decide)).append later
  refine Inline.cons (by decide) ((joined _ fun text member => ?_).append (by decide))
  obtain ⟨c, here, rfl⟩ := List.mem_map.mp member
  exact inline_quoted (plain c here)

theorem inline_recordLines {record : GrantRecord} {ls : List Text} (written : recordLines record = .ok ls) :
    ∀ line ∈ ls, line.Inline := by
  obtain ⟨hash, hashed, written⟩ := Except.bind_ok written
  obtain ⟨origin, originated, written⟩ := Except.bind_ok written
  obtain ⟨granted, listed, written⟩ := Except.bind_ok written
  obtain rfl := Except.ok.inj written
  obtain ⟨plain, rfl⟩ := quotedLine_ok hashed
  obtain ⟨-, rfl⟩ := quotedLine_ok originated
  obtain ⟨caps, rfl⟩ := capLine_ok listed
  simp only [List.forall_mem_cons]
  exact ⟨inline_assignment (by decide) (inline_quoted plain), inline_assignment (by decide) (inline_number _),
    inline_assignment (by decide) (inline_quoted (inline_origin _)), inline_assignment (by decide) (inline_boolText _),
    inline_assignment (by decide) (inline_capList fun c member => (caps c member).2), by simp⟩

theorem inline_sectionLines {ls : List Text} (written : store.sectionLines id = .ok ls) : ∀ line ∈ ls, line.Inline := by
  obtain ⟨renderable, written⟩ := seq_ok.mp written
  obtain ⟨recorded, filled, written⟩ := Except.bind_ok written
  obtain ⟨capDenied, listed, written⟩ := Except.bind_ok written
  obtain rfl := Except.ok.inj written
  obtain ⟨caps, rfl⟩ := capLine_ok listed
  have inside : ∀ line ∈ recorded, line.Inline := by
    unfold recordPart at filled
    split at filled
    next => exact inline_recordLines filled
    next =>
      obtain rfl := Except.ok.inj filled
      simp
  intro line member
  rcases List.mem_append.mp member with front | marks
  · rcases List.mem_cons.mp front with rfl | front
    · decide
    · rcases List.mem_cons.mp front with rfl | front
      · have named := inline_quoted (checkRenderable_ok renderable).2
        exact Inline.cons (by decide) ((Inline.append (by decide) named).append (by decide))
      · exact inside line front
  · rcases List.mem_cons.mp marks with rfl | marks
    · exact inline_assignment (by decide) (inline_boolText _)
    · obtain rfl := List.mem_singleton.mp marks
      exact inline_assignment (by decide) (inline_capList fun c member => (caps c member).2)

theorem inline_sections {ids : List Text} {ls : List Text} (written : store.sections ids = .ok ls) :
    ∀ line ∈ ls, line.Inline := by
  induction ids generalizing ls with
  | nil =>
    obtain rfl := Except.ok.inj written
    simp
  | cons id rest ih =>
    obtain ⟨one, first, written⟩ := Except.bind_ok written
    obtain ⟨others, later, written⟩ := Except.bind_ok written
    obtain rfl := Except.ok.inj written
    intro line member
    rcases List.mem_append.mp member with front | back
    · exact inline_sectionLines first line front
    · exact ih later line back

theorem lines_written {ids written : List Text} (sections : store.sections ids = .ok written) :
    lines (unlines (GRANTS_COMMENT :: assignment "grants_version".toList (number GRANTS_STATE_VERSION) :: written)) =
      GRANTS_COMMENT :: assignment "grants_version".toList (number GRANTS_STATE_VERSION) :: written := by
  refine lines_unlines ?_
  simp only [List.forall_mem_cons]
  exact ⟨by decide, inline_assignment (by decide) (inline_number _), inline_sections sections⟩

theorem parse_render {text : Text} {store' : GrantStore} (rendered : store.render = .ok text) (parsed : parse text = .ok store') :
    store' = store := by
  obtain ⟨written, sections, made⟩ := Except.bind_ok rendered
  obtain rfl := Except.ok.inj made
  obtain ⟨-, parsed⟩ := seq_ok.mp parsed
  obtain ⟨state, read, parsed⟩ := Except.bind_ok parsed
  obtain ⟨final, finished, parsed⟩ := Except.bind_ok parsed
  obtain ⟨-, parsed⟩ := seq_ok.mp parsed
  obtain ⟨-, parsed⟩ := seq_ok.mp parsed
  obtain rfl := Except.ok.inj parsed
  rw [lines_written sections] at read
  obtain ⟨commented, comment, read⟩ := ParseState.parseLines_cons read
  obtain ⟨versioned, version, read⟩ := ParseState.parseLines_cons read
  have first : commented = {} := by
    have skipped : (trim GRANTS_COMMENT).head? = some '#' := by decide
    unfold ParseState.parseLine at comment
    rw [if_neg (by decide), if_pos (.inr skipped)] at comment
    exact (Except.ok.inj comment).symm
  subst first
  have second : versioned = { versionSeen := true } := by
    have seen := ParseState.parseLine_assignment (by decide) (solid_number _) version
    obtain ⟨pair, split, seen⟩ := Except.bind_ok seen
    obtain ⟨-, seen⟩ := seq_ok.mp seen
    obtain ⟨-, seen⟩ := seq_ok.mp seen
    obtain ⟨-, seen⟩ := seq_ok.mp seen
    exact (Except.ok.inj seen).symm
  subst second
  obtain ⟨start, opened, copied⟩ := ParseState.parseLines_sections sections read finished
  obtain rfl := Except.ok.inj opened
  rw [copied, foldl_copy_orderedIds]

end GrantStore

end Bitty.Plugin
