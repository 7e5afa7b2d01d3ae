import Bitty.Plugin.Grant.Run

/-! Which stores are read back from what is written of them. -/

namespace Bitty.Plugin

open Text Checks GrantStore

def Renderable (value : Text) : Prop := '"' ∉ value ∧ '\\' ∉ value ∧ value.any isControl ≠ true

theorem checkRenderable_iff {what value : Text} : checkRenderable what value = .ok () ↔ Renderable value := by
  simp only [checkRenderable, refuseIf_ok, not_or, Renderable, ne_eq]

theorem parseQuoted_renderable {value : Text} (renderable : Renderable value) (line : Nat) :
    parseQuoted (quoted value) line = .ok value := by
  have whole : (stripPrefix ['"'] (quoted value)).bind (stripSuffix ['"']) = some value := by
    change stripSuffix ['"'] (value ++ ['"']) = some value
    exact stripSuffix_append _ _
  unfold parseQuoted
  rw [whole]
  exact if_neg (not_or.mpr ⟨renderable.1, not_or.mpr renderable.2⟩)

theorem CapabilityId.parse_asStr {capability : CapabilityId} (core : validateCapability .core capability.asStr = .ok ()) :
    CapabilityId.parse capability.asStr = .ok capability := by
  unfold parse parseWith
  split
  next => exact congrArg Except.ok (ext rfl)
  next refused =>
    rw [core] at refused
    cases refused

theorem PluginId.new_asStr (id : PluginId) : PluginId.new id.asStr = .ok id := by
  unfold new
  split
  next => rfl
  next refused =>
    rw [id.valid] at refused
    cases refused

theorem readCapabilities_plain {line : Nat} {out : Finset CapabilityId} {texts : List Text} {caps : List CapabilityId}
    (written : List.Forall₂ (fun text c => trim text = quoted c.asStr) texts caps)
    (each : ∀ c ∈ caps, c.Plain ∧ Renderable c.asStr) (once : caps.Nodup) (fresh : ∀ c ∈ caps, c ∉ out)
    (few : out.card + caps.length ≤ MAX_GRANTS_CAPS) :
    readCapabilities line out texts = .ok (out ∪ caps.toFinset) := by
  induction written generalizing out with
  | nil =>
    rw [List.toFinset_nil, Finset.union_empty]
    rfl
  | @cons text c texts caps here _ ih =>
    obtain ⟨⟨plain, renderable⟩, others⟩ := List.forall_mem_cons.mp each
    obtain ⟨new, once'⟩ := List.nodup_cons.mp once
    obtain ⟨absent, fresh'⟩ := List.forall_mem_cons.mp fresh
    have card := Finset.card_insert_of_notMem absent
    rw [List.length_cons] at few
    have fresh'' : ∀ d ∈ caps, d ∉ insert c out := by
      intro d member
      rw [Finset.mem_insert, not_or]
      refine ⟨?_, fresh' d member⟩
      rintro rfl
      exact new member
    have later : readCapabilities line (insert c out) texts = .ok (insert c out ∪ caps.toFinset) :=
      ih others once' fresh'' (by rw [card]; omega)
    have room : ¬MAX_GRANTS_CAPS < (insert c out).card := by
      rw [card]
      omega
    rw [readCapabilities, here, List.toFinset_cons, Finset.union_insert, ← Finset.insert_union]
    refine bind_ok_iff.mpr ⟨_, parseQuoted_renderable renderable line, ?_⟩
    refine bind_ok_iff.mpr ⟨c, mapError_ok.mpr (CapabilityId.parse_asStr plain.2), ?_⟩
    exact seq_ok.mpr ⟨refuseIf_ok.mpr absent, seq_ok.mpr ⟨refuseIf_ok.mpr room, later⟩⟩

theorem parseCapabilityArray_plain {caps : Finset CapabilityId} (each : ∀ c ∈ caps, c.Plain ∧ Renderable c.asStr)
    (few : caps.card ≤ MAX_GRANTS_CAPS) (line : Nat) : parseCapabilityArray (capList (inOrder caps)) line = .ok caps := by
  have each : ∀ c ∈ inOrder caps, c.Plain ∧ Renderable c.asStr := fun c member => each c (mem_inOrder.mp member)
  have once : (inOrder caps).Nodup := TextSet.nodup_inOrder
  have all := toFinset_inOrder caps
  have few : (inOrder caps).length ≤ MAX_GRANTS_CAPS := by rwa [← List.toFinset_card_of_nodup once, all]
  have whole : (stripPrefix ['['] (capList (inOrder caps))).bind (stripSuffix [']']) =
      some (List.intercalate ", ".toList ((inOrder caps).map fun capability => quoted capability.asStr)) := by
    change stripSuffix [']'] (_ ++ [']']) = _
    exact stripSuffix_append _ _
  unfold parseCapabilityArray
  rw [whole]
  dsimp only
  generalize inOrder caps = listed at each once all few ⊢
  cases listed with
  | nil =>
    rw [List.toFinset_nil] at all
    rw [← all]
    rfl
  | cons c rest =>
    have solid := solid_capabilities c rest
    have single {before : Text} (absent : ',' ∉ before) {c : CapabilityId} (plain : c.Plain) :
        (before ++ quoted c.asStr).splitOn ',' = [before ++ quoted c.asStr] :=
      List.splitOn_eq_singleton (by simp [absent, plain.1, quoted])
    have first : (quoted c.asStr).splitOn ',' = [quoted c.asStr] := single List.not_mem_nil (each c List.mem_cons_self).1
    have others : (rest.flatMap fun c => (' ' :: quoted c.asStr).splitOn ',') = rest.map fun c => ' ' :: quoted c.asStr := by
      rw [List.map_eq_flatMap]
      refine List.flatMap_congr fun d member => ?_
      exact single (show ',' ∉ [' '] by decide) (each d (List.mem_cons_of_mem _ member)).1
    have written : List.Forall₂ (fun text (c : CapabilityId) => trim text = quoted c.asStr)
        (quoted c.asStr :: rest.map fun c => ' ' :: quoted c.asStr) (c :: rest) := by
      refine .cons (solid_quoted _).trim_eq ?_
      rw [List.forall₂_map_left_iff, List.forall₂_same]
      exact fun d _ => (solid_quoted d.asStr).trim_before
    rw [solid.trim_eq, if_neg solid.ne_nil, splitOn_capList, first, others, List.singleton_append,
      readCapabilities_plain written each once (fun _ _ => Finset.notMem_empty _) (by rwa [Finset.card_empty, Nat.zero_add]),
      Finset.empty_union, all]

def HashRule (hash : Text) : Prop :=
  hash ≠ [] ∧ byteLen hash ≤ MAX_GRANT_HASH_CHARS ∧ hash.any (fun ch => isWhitespace ch ∨ isControl ch) ≠ true

/-- What a record needs beside being renderable, to be read back. -/
structure GrantRecord.Readable (record : GrantRecord) : Prop where
  hash : HashRule record.manifestHash
  few : record.granted.card ≤ MAX_GRANTS_CAPS
  plain : ∀ c ∈ record.granted, c.Plain

namespace SectionBuilder

variable {builder : SectionBuilder} {line : Nat}

theorem set_manifestHash_ok (fresh : builder.manifestHash = none) {hash : Text} (rule : HashRule hash)
    (renderable : Renderable hash) :
    builder.set "manifest_hash".toList (quoted hash) line = .ok { builder with manifestHash := some hash } := by
  unfold set
  rw [if_pos rfl, fresh]
  refine seq_ok.mpr ⟨refuseIf_ok.mpr Bool.false_ne_true, bind_ok_iff.mpr ⟨hash, parseQuoted_renderable renderable line, ?_⟩⟩
  refine seq_ok.mpr ⟨refuseIf_ok.mpr ?_, rfl⟩
  exact not_or.mpr ⟨rule.1, not_or.mpr ⟨Nat.not_lt.mpr rule.2.1, rule.2.2⟩⟩

theorem set_decidedAt_ok (fresh : builder.decidedAt = none) (decidedAt : UInt64) :
    builder.set "decided_at".toList (number decidedAt.toNat) line = .ok { builder with decidedAt := some decidedAt } := by
  unfold set
  rw [if_neg (by decide), if_pos rfl, fresh, parseU64_number]
  exact seq_ok.mpr ⟨refuseIf_ok.mpr Bool.false_ne_true, rfl⟩

theorem set_origin_ok (fresh : builder.origin = none) (origin : GrantOrigin) :
    builder.set "origin".toList (quoted origin.asStr) line = .ok { builder with origin := some origin } := by
  have renderable : Renderable origin.asStr := by cases origin <;> exact ⟨by decide, by decide, by decide⟩
  unfold set
  rw [if_neg (by decide), if_neg (by decide), if_pos rfl, fresh]
  refine seq_ok.mpr ⟨refuseIf_ok.mpr Bool.false_ne_true, bind_ok_iff.mpr ⟨_, parseQuoted_renderable renderable line, ?_⟩⟩
  rw [GrantOrigin.parse_asStr]
  rfl

theorem set_denied_ok (fresh : builder.denied = none) (b : Bool) :
    builder.set "denied".toList (boolText b) line = .ok { builder with denied := some b } := by
  unfold set
  rw [if_neg (by decide), if_neg (by decide), if_neg (by decide), if_pos rfl, fresh]
  exact seq_ok.mpr ⟨refuseIf_ok.mpr Bool.false_ne_true, bind_ok_iff.mpr ⟨b, parseBool_boolText b _ line, rfl⟩⟩

theorem set_granted_ok (fresh : builder.granted = none) {caps : Finset CapabilityId}
    (each : ∀ c ∈ caps, c.Plain ∧ Renderable c.asStr) (few : caps.card ≤ MAX_GRANTS_CAPS) :
    builder.set "granted".toList (capList (inOrder caps)) line = .ok { builder with granted := some caps } := by
  unfold set
  rw [if_neg (by decide), if_neg (by decide), if_neg (by decide), if_neg (by decide), if_pos rfl, fresh]
  exact seq_ok.mpr ⟨refuseIf_ok.mpr Bool.false_ne_true, bind_ok_iff.mpr ⟨caps, parseCapabilityArray_plain each few line, rfl⟩⟩

theorem set_pluginDenied_ok (fresh : builder.pluginDenied = none) (b : Bool) :
    builder.set "plugin_denied".toList (boolText b) line = .ok { builder with pluginDenied := some b } := by
  unfold set
  rw [if_neg (by decide), if_neg (by decide), if_neg (by decide), if_neg (by decide), if_neg (by decide), if_pos rfl, fresh]
  exact seq_ok.mpr ⟨refuseIf_ok.mpr Bool.false_ne_true, bind_ok_iff.mpr ⟨b, parseBool_boolText b _ line, rfl⟩⟩

theorem set_capDenied_ok (fresh : builder.capDenied = none) {caps : Finset CapabilityId}
    (each : ∀ c ∈ caps, c.Plain ∧ Renderable c.asStr) (few : caps.card ≤ MAX_GRANTS_CAPS) :
    builder.set "cap_denied".toList (capList (inOrder caps)) line = .ok { builder with capDenied := some caps } := by
  unfold set
  rw [if_neg (by decide), if_neg (by decide), if_neg (by decide), if_neg (by decide), if_neg (by decide), if_neg (by decide),
    if_pos rfl, fresh]
  exact seq_ok.mpr ⟨refuseIf_ok.mpr Bool.false_ne_true, bind_ok_iff.mpr ⟨caps, parseCapabilityArray_plain each few line, rfl⟩⟩

end SectionBuilder

namespace ParseState

variable {state next final : ParseState} {builder builder' : SectionBuilder} {line : Nat} {ls : List Text}

theorem parseLine_assignment_eq {key value : Text} (few : line ≤ MAX_GRANTS_LINES) (word : Word key) (solid : Solid value) :
    state.parseLine line (assignment key value) = match state.current with
      | none => state.parseVersion (assignment key value) line
      | some builder => builder.set key value line >>= fun builder' => .ok { state with current := some builder' } := by
  obtain ⟨c, rest, shape, hash, bracket⟩ := head?_assignment value word
  have other : stripPrefix ['['] (assignment key value) = none := by
    rw [shape, stripPrefix]
    exact if_neg (Ne.symm bracket)
  have some : ¬(assignment key value = [] ∨ (assignment key value).head? = some '#') := by
    rw [shape]
    simp [hash]
  unfold parseLine
  rw [if_neg (Nat.not_lt.mpr few), (solid_assignment word solid).trim_eq, if_neg some, other]
  cases state.current with
  | none => rfl
  | some builder =>
    dsimp only
    rw [splitAssignment_assignment word solid]
    rfl

theorem parseLine_set_ok {key value : Text} (few : line ≤ MAX_GRANTS_LINES) (current : state.current = some builder)
    (word : Word key) (solid : Solid value) (set : builder.set key value line = .ok builder') :
    state.parseLine line (assignment key value) = .ok { state with current := some builder' } := by
  rw [parseLine_assignment_eq few word solid, current]
  exact bind_ok_iff.mpr ⟨builder', set, rfl⟩

theorem parseLine_blank_ok (few : line ≤ MAX_GRANTS_LINES) : state.parseLine line [] = .ok state := by
  unfold parseLine
  rw [if_neg (Nat.not_lt.mpr few)]
  exact if_pos (.inl (by decide))

theorem parseLine_header_ok {id : PluginId} {store : GrantStore} (few : line ≤ MAX_GRANTS_LINES) (renderable : Renderable id.asStr)
    (finished : state.finish = .ok store) :
    state.parseLine line (header id.asStr) = .ok { state with store, current := some { id := id.asStr, line } } := by
  have solid : Solid (header id.asStr) := by
    refine ⟨⟨'[', rfl, by decide⟩, ⟨']', ?_, by decide⟩⟩
    rw [header, List.getLast?_append]
    rfl
  have inside : Solid ("grants.".toList ++ quoted id.asStr) :=
    (show Solid ['g'] from ⟨⟨'g', rfl, by decide⟩, ⟨'g', rfl, by decide⟩⟩).append "rants.".toList (solid_quoted id.asStr)
  have opened : stripPrefix ['['] (header id.asStr) = some ("grants.".toList ++ quoted id.asStr ++ [']']) := rfl
  have started : SectionBuilder.start ("grants.".toList ++ quoted id.asStr) line = .ok { id := id.asStr, line } := by
    unfold SectionBuilder.start
    rw [inside.trim_eq, stripPrefix_append]
    refine bind_ok_iff.mpr ⟨_, parseQuoted_renderable renderable line, ?_⟩
    exact bind_ok_iff.mpr ⟨id, mapError_ok.mpr id.new_asStr, rfl⟩
  unfold parseLine
  rw [if_neg (Nat.not_lt.mpr few), solid.trim_eq, if_neg (by simp [header]), opened]
  refine bind_ok_iff.mpr ⟨store, finished, ?_⟩
  rw [stripSuffix_append]
  exact bind_ok_iff.mpr ⟨_, started, rfl⟩

theorem parseLines_cons_ok {raw : Text} {rest : List Text} (first : state.parseLine line raw = .ok next)
    (later : next.parseLines (line + 1) rest = .ok final) : state.parseLines line (raw :: rest) = .ok final :=
  bind_ok_iff.mpr ⟨next, first, later⟩

theorem parseLines_append_ok {first rest : List Text} (front : state.parseLines line first = .ok next)
    (later : next.parseLines (line + first.length) rest = .ok final) : state.parseLines line (first ++ rest) = .ok final := by
  induction first generalizing state line with
  | nil =>
    obtain rfl := Except.ok.inj front
    exact later
  | cons raw others ih =>
    obtain ⟨between, one, more⟩ := parseLines_cons front
    refine parseLines_cons_ok one (ih more ?_)
    rw [List.length_cons] at later
    rwa [Nat.add_right_comm, Nat.add_assoc]

theorem parseLines_record_ok {record : GrantRecord} (readable : record.Readable) {id : Text} (written : recordLines record = .ok ls)
    (few : line + ls.length ≤ MAX_GRANTS_LINES + 1) {opened : Nat} (current : state.current = some { id, line := opened }) :
    state.parseLines line ls = .ok { state with
      current := some {
        id
        line := opened
        manifestHash := some record.manifestHash
        decidedAt := some record.decidedAt
        origin := some record.origin
        denied := some record.denied
        granted := some record.granted } } := by
  obtain ⟨hash, hashed, written⟩ := Except.bind_ok written
  obtain ⟨origin, originated, written⟩ := Except.bind_ok written
  obtain ⟨granted, listed, written⟩ := Except.bind_ok written
  obtain rfl := Except.ok.inj written
  obtain ⟨renderable, hashed⟩ := seq_ok.mp hashed
  obtain rfl := Except.ok.inj hashed
  obtain ⟨-, rfl⟩ := quotedLine_ok originated
  obtain ⟨inside, listed⟩ := seq_ok.mp listed
  obtain rfl := Except.ok.inj listed
  have caps : ∀ c ∈ record.granted, c.Plain ∧ Renderable c.asStr := fun c member =>
    ⟨readable.plain c member, checkRenderable_iff.mp (each_ok.mp inside c (mem_inOrder.mpr member))⟩
  simp only [List.length_cons, List.length_nil] at few
  refine parseLines_cons_ok (parseLine_set_ok (by omega) current (by decide) (solid_quoted _)
    (SectionBuilder.set_manifestHash_ok rfl readable.hash (checkRenderable_iff.mp renderable))) ?_
  refine parseLines_cons_ok (parseLine_set_ok (by omega) rfl (by decide) (solid_number _) (SectionBuilder.set_decidedAt_ok rfl _)) ?_
  refine parseLines_cons_ok (parseLine_set_ok (by omega) rfl (by decide) (solid_quoted _) (SectionBuilder.set_origin_ok rfl _)) ?_
  refine parseLines_cons_ok (parseLine_set_ok (by omega) rfl (by decide) (solid_boolText _) (SectionBuilder.set_denied_ok rfl _)) ?_
  exact parseLines_cons_ok (parseLine_set_ok (by omega) rfl (by decide) (solid_capList _)
    (SectionBuilder.set_granted_ok rfl caps readable.few)) rfl

end ParseState

namespace GrantStore

variable {store mid : GrantStore} {text k : Text}

/-- What a store needs beside being renderable, to be read back section by section. -/
structure Readable (store : GrantStore) : Prop where
  named : ∀ key ∈ store.orderedIds, ∃ id : PluginId, id.asStr = key
  records : ∀ (key : Text) record, store.records[key]? = some record → record.Readable
  few : ∀ (key : Text) caps, store.deniedCaps[key]? = some caps → caps.card ≤ MAX_GRANTS_CAPS
  plain : ∀ (key : Text) caps, store.deniedCaps[key]? = some caps → ∀ c ∈ caps, c.Plain

def Fresh (mid : GrantStore) (key : Text) : Prop :=
  mid.records[key]? = none ∧ key ∉ mid.denials ∧ mid.deniedCaps[key]? = none

theorem Fresh.copy (fresh : mid.Fresh k) {id : Text} (other : id ≠ k) : (store.copy mid id).Fresh k := by
  refine ⟨?_, ?_, ?_⟩
  · rw [find_copy_records, if_neg other]
    exact fresh.1
  · rw [mem_copy_denials]
    rintro (⟨same, -⟩ | denied)
    · exact other same
    · exact fresh.2.1 denied
  · rw [find_copy_deniedCaps, if_neg other]
    exact fresh.2.2

end GrantStore

theorem SectionBuilder.flush_builder_ok {store mid : GrantStore} {id : PluginId} {line : Nat} (fresh : mid.Fresh id.asStr) :
    (store.builder id.asStr line).flush mid = .ok (store.copy mid id.asStr) := by
  have new : ¬(mid.records[id.asStr]?.isSome ∨ id.asStr ∈ mid.denials ∨ mid.deniedCaps[id.asStr]?.isSome) := by
    rw [fresh.1, fresh.2.2]
    simp [fresh.2.1]
  refine seq_ok.mpr ⟨refuseIf_ok.mpr new, ?_⟩
  unfold copy
  cases found : store.records[id.asStr]? with
  | none =>
    have bare : (store.builder id.asStr line).hasRecord = false := by simp [hasRecord, builder, found]
    rw [bare]
    rfl
  | some record =>
    have full : (store.builder id.asStr line).hasRecord = true := by simp [hasRecord, builder, found]
    have named : PluginId.new id.asStr = .ok record.pluginId := by rw [← store.keyed _ _ found, PluginId.new_asStr]
    rw [full, if_pos rfl]
    refine bind_ok_iff.mpr ⟨record, ?_, rfl⟩
    simp only [SectionBuilder.record, builder, found, Option.map_some, require]
    refine bind_ok_iff.mpr ⟨record.manifestHash, rfl, bind_ok_iff.mpr ⟨record.decidedAt, rfl, ?_⟩⟩
    refine bind_ok_iff.mpr ⟨record.origin, rfl, bind_ok_iff.mpr ⟨record.denied, rfl, ?_⟩⟩
    exact bind_ok_iff.mpr ⟨record.granted, rfl, bind_ok_iff.mpr ⟨record.pluginId, mapError_ok.mpr named, rfl⟩⟩

namespace ParseState

variable {store mid : GrantStore} {state : ParseState} {line : Nat} {ls : List Text}

theorem parseLines_section_ok (readable : store.Readable) {id : PluginId} (written : store.sectionLines id.asStr = .ok ls)
    (few : line + ls.length ≤ MAX_GRANTS_LINES + 1) (finished : state.finish = .ok mid) :
    state.parseLines line ls = .ok { state with store := mid, current := some (store.builder id.asStr (line + 1)) } := by
  obtain ⟨renderable, written⟩ := seq_ok.mp written
  obtain ⟨recorded, filled, written⟩ := Except.bind_ok written
  obtain ⟨capDenied, listed, written⟩ := Except.bind_ok written
  obtain rfl := Except.ok.inj written
  obtain ⟨inside, listed⟩ := seq_ok.mp listed
  obtain rfl := Except.ok.inj listed
  simp only [List.length_append, List.length_cons, List.length_nil] at few
  refine parseLines_cons_ok (parseLine_blank_ok (by omega)) ?_
  refine parseLines_cons_ok (parseLine_header_ok (by omega) (checkRenderable_iff.mp renderable) finished) ?_
  -- the section as it is before the denials
  have filledIn :
      parseLines { state with store := mid, current := some { id := id.asStr, line := line + 1 } } (line + 1 + 1) recorded = .ok { state with
        store := mid
        current := some { store.builder id.asStr (line + 1) with
          pluginDenied := none
          capDenied := none } } := by
    unfold recordPart at filled
    cases found : store.records[id.asStr]? with
    | none =>
      rw [found] at filled
      obtain rfl := Except.ok.inj filled
      simp [parseLines, builder, found]
    | some record =>
      rw [found] at filled
      rw [parseLines_record_ok (readable.records _ record found) filled (by omega) rfl]
      simp [builder, found]
  have caps : ∀ c ∈ store.deniedCaps[id.asStr]?.getD ∅, c.Plain ∧ Renderable c.asStr := by
    intro c member
    refine ⟨?_, checkRenderable_iff.mp (each_ok.mp inside c (mem_inOrder.mpr member))⟩
    cases found : store.deniedCaps[id.asStr]? with
    | none =>
      rw [found] at member
      cases member
    | some caps =>
      rw [found] at member
      exact readable.plain _ caps found c member
  have fewCaps : (store.deniedCaps[id.asStr]?.getD ∅).card ≤ MAX_GRANTS_CAPS := by
    cases found : store.deniedCaps[id.asStr]? with
    | none => exact Nat.zero_le _
    | some caps => exact readable.few _ caps found
  refine parseLines_append_ok filledIn ?_
  refine parseLines_cons_ok (parseLine_set_ok (by omega) rfl (by decide) (solid_boolText _)
    (SectionBuilder.set_pluginDenied_ok rfl _)) ?_
  exact parseLines_cons_ok (parseLine_set_ok (by omega) rfl (by decide) (solid_capList _)
    (SectionBuilder.set_capDenied_ok rfl caps fewCaps)) rfl

theorem parseLines_sections_ok (readable : store.Readable) {ids : List Text} (once : ids.Nodup)
    (known : ∀ key ∈ ids, key ∈ store.orderedIds) (written : store.sections ids = .ok ls)
    (few : line + ls.length ≤ MAX_GRANTS_LINES + 1) (finished : state.finish = .ok mid) (fresh : ∀ key ∈ ids, mid.Fresh key) :
    ∃ final, state.parseLines line ls = .ok final ∧ final.versionSeen = state.versionSeen ∧
      final.finish = .ok (ids.foldl store.copy mid) := by
  induction ids generalizing state line ls mid with
  | nil =>
    obtain rfl := Except.ok.inj written
    exact ⟨state, rfl, rfl, finished⟩
  | cons key rest ih =>
    obtain ⟨one, first, written⟩ := Except.bind_ok written
    obtain ⟨others, later, written⟩ := Except.bind_ok written
    obtain rfl := Except.ok.inj written
    obtain ⟨new, once'⟩ := List.nodup_cons.mp once
    obtain ⟨id, rfl⟩ := readable.named key (known key List.mem_cons_self)
    rw [List.length_append] at few
    have read : state.parseLines line one = .ok { state with store := mid, current := some (store.builder id.asStr (line + 1)) } :=
      parseLines_section_ok readable first (by omega) finished
    generalize here : ({ state with store := mid, current := some (store.builder id.asStr (line + 1)) } : ParseState) = next at read
    have flushed : next.finish = .ok (store.copy mid id.asStr) := by
      rw [← here]
      exact SectionBuilder.flush_builder_ok (fresh _ List.mem_cons_self)
    have same : next.versionSeen = state.versionSeen := by rw [← here]
    have few' : line + one.length + others.length ≤ MAX_GRANTS_LINES + 1 := by omega
    obtain ⟨final, after, seen, done⟩ := ih once' (fun key member => known key (List.mem_cons_of_mem _ member)) later few' flushed
      fun key member => (fresh key (List.mem_cons_of_mem _ member)).copy (by rintro rfl; exact new member)
    rw [same] at seen
    exact ⟨final, parseLines_append_ok read after, seen, done⟩

variable {next final : ParseState}

theorem parseLine_of_mem {raw : Text} (read : state.parseLines line ls = .ok final) (member : raw ∈ ls) :
    ∃ (before : ParseState) (n : Nat) (after : ParseState), before.parseLine n raw = .ok after := by
  induction ls generalizing state line with
  | nil => cases member
  | cons first rest ih =>
    obtain ⟨next, one, later⟩ := parseLines_cons read
    rcases List.mem_cons.mp member with rfl | inside
    · exact ⟨state, line, next, one⟩
    · exact ih later inside

theorem plain_of_parseLine {key : Text} (list : key = "granted".toList ∨ key = "cap_denied".toList) {caps : List CapabilityId}
    (renderable : ∀ c ∈ caps, '"' ∉ c.asStr) (read : state.parseLine line (assignment key (capList caps)) = .ok next) :
    ∀ c ∈ caps, c.Plain := by
  have word : Word key := by rcases list with rfl | rfl <;> decide
  have parsed := parseLine_assignment word (solid_capList caps) read
  cases current : state.current with
  | none =>
    rw [current] at parsed
    obtain ⟨pair, split, parsed⟩ := Except.bind_ok parsed
    rw [splitAssignment_assignment word (solid_capList caps)] at split
    obtain rfl := Except.ok.inj split
    have version := refuseIf_ok.mp (seq_ok.mp parsed).1
    rcases list with rfl | rfl <;> exact absurd (by decide) version
  | some builder =>
    rw [current] at parsed
    obtain ⟨builder', set, -⟩ := parsed
    rcases list with rfl | rfl
    · exact (SectionBuilder.set_granted renderable set).2
    · exact (SectionBuilder.set_capDenied renderable set).2

end ParseState

namespace GrantStore

variable {store : GrantStore} {text : Text} {ls : List Text}

theorem mem_sections {ids : List Text} {id : Text} (written : store.sections ids = .ok ls) (member : id ∈ ids) :
    ∃ one, store.sectionLines id = .ok one ∧ ∀ line ∈ one, line ∈ ls := by
  induction ids generalizing ls with
  | nil => cases member
  | cons first rest ih =>
    obtain ⟨one, here, written⟩ := Except.bind_ok written
    obtain ⟨others, later, written⟩ := Except.bind_ok written
    obtain rfl := Except.ok.inj written
    rcases List.mem_cons.mp member with rfl | inside
    · exact ⟨one, here, fun line front => List.mem_append_left _ front⟩
    · obtain ⟨two, found, sub⟩ := ih later inside
      exact ⟨two, found, fun line back => List.mem_append_right _ (sub line back)⟩

theorem lists_of_sectionLines {id : Text} (written : store.sectionLines id = .ok ls) :
    (∀ record, store.records[id]? = some record → (∀ c ∈ record.granted, '"' ∉ c.asStr) ∧
      assignment "granted".toList (capList (inOrder record.granted)) ∈ ls) ∧
    ∀ caps, store.deniedCaps[id]? = some caps → (∀ c ∈ caps, '"' ∉ c.asStr) ∧
      assignment "cap_denied".toList (capList (inOrder caps)) ∈ ls := by
  obtain ⟨-, written⟩ := seq_ok.mp written
  obtain ⟨recorded, filled, written⟩ := Except.bind_ok written
  obtain ⟨capDenied, listed, written⟩ := Except.bind_ok written
  obtain rfl := Except.ok.inj written
  constructor
  · intro record found
    rw [recordPart, found] at filled
    obtain ⟨hash, -, filled⟩ := Except.bind_ok filled
    obtain ⟨origin, -, filled⟩ := Except.bind_ok filled
    obtain ⟨granted, inside, filled⟩ := Except.bind_ok filled
    obtain rfl := Except.ok.inj filled
    obtain ⟨caps, rfl⟩ := capLine_ok inside
    exact ⟨fun c member => (caps c (mem_inOrder.mpr member)).1, by simp⟩
  · intro caps found
    obtain ⟨inside, rfl⟩ := capLine_ok listed
    rw [found, Option.getD_some] at inside ⊢
    exact ⟨fun c member => (inside c (mem_inOrder.mpr member)).1, by simp⟩

def twice (store : GrantStore) : Finset Text := (store.denials ∩ store.deniedCaps.keys.toFinset) \ store.records.keys.toFinset

theorem size_add_extraSections : store.records.size + store.extraSections = store.ids.card + store.twice.card := by
  have size : store.records.size = store.records.keys.toFinset.card := by
    rw [List.toFinset_card_of_nodup store.records.nodup_keys, Std.ExtTreeMap.length_keys]
  have absent (id : Text) : store.records[id]? = none ↔ id ∉ store.records.keys.toFinset := by
    rw [List.mem_toFinset, Std.ExtTreeMap.mem_keys, TreeMap.mem_iff]
    simp [Option.eq_none_iff_forall_ne_some]
  have extra : store.extraSections =
      (store.denials \ store.records.keys.toFinset).card + (store.deniedCaps.keys.toFinset \ store.records.keys.toFinset).card := by
    unfold extraSections
    congr 1
    · refine congrArg Finset.card (Finset.ext fun id => ?_)
      simp [absent]
    · rw [← List.toFinset_card_of_nodup (store.deniedCaps.nodup_keys.filter _)]
      refine congrArg Finset.card (Finset.ext fun id => ?_)
      simp [absent]
  rw [size, extra, ids, twice]
  generalize store.records.keys.toFinset = R
  generalize store.deniedCaps.keys.toFinset = C
  have split : R ∪ store.denials ∪ C = R ∪ ((store.denials \ R) ∪ (C \ R)) := by
    ext id
    simp only [Finset.mem_union, Finset.mem_sdiff]
    tauto
  have apart : Disjoint R ((store.denials \ R) ∪ (C \ R)) := by
    rw [Finset.disjoint_union_right]
    exact ⟨Finset.disjoint_sdiff, Finset.disjoint_sdiff⟩
  have both : (store.denials \ R) ∩ (C \ R) = (store.denials ∩ C) \ R := by
    ext id
    simp only [Finset.mem_inter, Finset.mem_sdiff]
    tauto
  rw [split, Finset.card_union_of_disjoint apart, ← both, Nat.add_assoc, Finset.card_union_add_card_inter]

/-- What is asked of a store that is written: names of plugins as their type promises, and the documented limits. -/
structure Storable (store : GrantStore) (text : Text) : Prop where
  named : ∀ key ∈ store.ids, ∃ id : PluginId, id.asStr = key
  plugins : store.ids.card ≤ MAX_GRANTS_PLUGINS
  granted : ∀ (key : Text) record, store.records[key]? = some record → record.granted.card ≤ MAX_GRANTS_CAPS
  denied : ∀ (key : Text) caps, store.deniedCaps[key]? = some caps → caps.card ≤ MAX_GRANTS_CAPS
  hashes : ∀ (key : Text) record, store.records[key]? = some record → HashRule record.manifestHash
  bytes : byteLen text ≤ MAX_GRANTS_FILE_BYTES
  lines : (lines text).length ≤ MAX_GRANTS_LINES

/-- No comma in a capability and none that only other catalogs know, and room for the plugins that are counted twice. -/
structure Restorable (store : GrantStore) : Prop where
  granted : ∀ (key : Text) record, store.records[key]? = some record → ∀ c ∈ record.granted, c.Plain
  denied : ∀ (key : Text) caps, store.deniedCaps[key]? = some caps → ∀ c ∈ caps, c.Plain
  room : store.ids.card + store.twice.card ≤ MAX_GRANTS_PLUGINS

theorem parse_of_restorable (rendered : store.render = .ok text) (storable : store.Storable text) (restorable : store.Restorable) :
    parse text = .ok store := by
  obtain ⟨written, sections, made⟩ := Except.bind_ok rendered
  obtain rfl := Except.ok.inj made
  have count := storable.lines
  rw [lines_written sections, List.length_cons, List.length_cons] at count
  have readable : store.Readable := {
    named := fun key member => storable.named key (TextSet.mem_inOrder.mp member)
    records := fun key record found =>
      ⟨storable.hashes key record found, storable.granted key record found, restorable.granted key record found⟩
    few := storable.denied
    plain := restorable.denied }
  have comment : ParseState.parseLine {} 1 GRANTS_COMMENT = .ok {} := by
    have skipped : (trim GRANTS_COMMENT).head? = some '#' := by decide
    unfold ParseState.parseLine
    rw [if_neg (by decide), if_pos (.inr skipped)]
  have version : ParseState.parseLine {} 2 (assignment "grants_version".toList (number GRANTS_STATE_VERSION)) =
      .ok { versionSeen := true } := by
    rw [ParseState.parseLine_assignment_eq (by decide) (by decide) (solid_number _)]
    refine bind_ok_iff.mpr ⟨_, splitAssignment_assignment (by decide) (solid_number _) 2, ?_⟩
    refine seq_ok.mpr ⟨refuseIf_ok.mpr (by decide), seq_ok.mpr ⟨refuseIf_ok.mpr nofun, ?_⟩⟩
    exact seq_ok.mpr ⟨refuseIf_ok.mpr (by decide), rfl⟩
  have once : store.orderedIds.Nodup := TextSet.nodup_inOrder
  have few : 3 + written.length ≤ MAX_GRANTS_LINES + 1 := by omega
  have all : ∃ final, ParseState.parseLines { versionSeen := true } 3 written = .ok final ∧ final.versionSeen = true ∧
      final.finish = .ok (store.orderedIds.foldl store.copy {}) :=
    ParseState.parseLines_sections_ok readable once (fun _ member => member) sections few rfl
      fun key _ => ⟨by simp, by simp, by simp⟩
  obtain ⟨final, read, seen, finished⟩ := all
  rw [foldl_copy_orderedIds] at finished
  refine seq_ok.mpr ⟨refuseIf_ok.mpr (Nat.not_lt.mpr storable.bytes), bind_ok_iff.mpr ⟨final, ?_, ?_⟩⟩
  · rw [lines_written sections]
    exact ParseState.parseLines_cons_ok comment (ParseState.parseLines_cons_ok version read)
  · refine bind_ok_iff.mpr ⟨store, finished, seq_ok.mpr ⟨refuseIf_ok.mpr ?_, seq_ok.mpr ⟨refuseIf_ok.mpr ?_, rfl⟩⟩⟩
    · rw [seen]
      exact Bool.noConfusion
    · rw [size_add_extraSections]
      exact Nat.not_lt.mpr restorable.room

theorem restorable_of_parse (rendered : store.render = .ok text) (parsed : parse text = .ok store) : store.Restorable := by
  obtain ⟨written, sections, made⟩ := Except.bind_ok rendered
  obtain rfl := Except.ok.inj made
  obtain ⟨-, parsed⟩ := seq_ok.mp parsed
  obtain ⟨final, read, parsed⟩ := Except.bind_ok parsed
  obtain ⟨back, -, parsed⟩ := Except.bind_ok parsed
  obtain ⟨-, parsed⟩ := seq_ok.mp parsed
  obtain ⟨room, parsed⟩ := seq_ok.mp parsed
  obtain rfl := Except.ok.inj parsed
  have room := refuseIf_ok.mp room
  rw [size_add_extraSections] at room
  rw [lines_written sections] at read
  have listed {key : Text} (known : key ∈ back.orderedIds) : ∃ one, back.sectionLines key = .ok one ∧ ∀ line ∈ one,
      ∃ (before : ParseState) (n : Nat) (after : ParseState), before.parseLine n line = .ok after := by
    obtain ⟨one, section', sub⟩ := mem_sections sections known
    refine ⟨one, section', fun line member => ParseState.parseLine_of_mem read ?_⟩
    exact List.mem_cons_of_mem _ (List.mem_cons_of_mem _ (sub line member))
  refine ⟨fun key record found c member => ?_, fun key caps found c member => ?_, Nat.not_lt.mp room⟩
  · obtain ⟨one, section', lines⟩ := listed (mem_orderedIds.mpr (.inl ⟨record, found⟩))
    obtain ⟨renderable, inside⟩ := (lists_of_sectionLines section').1 record found
    obtain ⟨before, n, after, taken⟩ := lines _ inside
    exact ParseState.plain_of_parseLine (.inl rfl) (fun c member => renderable c (mem_inOrder.mp member)) taken c
      (mem_inOrder.mpr member)
  · obtain ⟨one, section', lines⟩ := listed (mem_orderedIds.mpr (.inr (.inr ⟨caps, found⟩)))
    obtain ⟨renderable, inside⟩ := (lists_of_sectionLines section').2 caps found
    obtain ⟨before, n, after, taken⟩ := lines _ inside
    exact ParseState.plain_of_parseLine (.inr rfl) (fun c member => renderable c (mem_inOrder.mp member)) taken c
      (mem_inOrder.mpr member)

/-- A store within the documented limits is read back just when no capability has a comma in it, the core catalog knows them all,
and there is room for the plugins that are counted twice. -/
theorem parse_render_iff (rendered : store.render = .ok text) (storable : store.Storable text) :
    parse text = .ok store ↔ store.Restorable :=
  ⟨restorable_of_parse rendered, parse_of_restorable rendered storable⟩

def Named (store : GrantStore) : Prop :=
  (∀ key ∈ store.denials, ∃ id : PluginId, id.asStr = key) ∧
    ∀ (key : Text) caps, store.deniedCaps[key]? = some caps → ∃ id : PluginId, id.asStr = key

theorem Named.ids (named : store.Named) : ∀ key ∈ store.ids, ∃ id : PluginId, id.asStr = key := by
  intro key member
  rcases mem_orderedIds.mp (TextSet.mem_inOrder.mpr member) with ⟨record, found⟩ | denied | ⟨caps, found⟩
  · exact ⟨record.pluginId, store.keyed key record found⟩
  · exact named.1 key denied
  · exact named.2 key caps found

theorem Named.deny (named : store.Named) (id : PluginId) : (store.deny id.asStr).Named := by
  refine ⟨fun key member => ?_, named.2⟩
  rcases Finset.mem_insert.mp member with rfl | earlier
  · exact ⟨id, rfl⟩
  · exact named.1 key earlier

theorem Named.putDenied (named : store.Named) (id : PluginId) {caps : Finset CapabilityId} (some : caps ≠ ∅) :
    (store.putDenied id.asStr caps some).Named := by
  refine ⟨named.1, fun key others found => ?_⟩
  simp only [GrantStore.putDenied, TreeMap.find_insert] at found
  split at found
  next here => exact ⟨id, here⟩
  next => exact named.2 key others found

theorem Named.put (named : store.Named) (record : GrantRecord) : (store.put record).Named := named

theorem Named.remove (named : store.Named) (key : Text) : (store.remove key).Named := named

theorem Named.denyCap (named : store.Named) (id : PluginId) (c : CapabilityId) : (store.denyCap id.asStr c).Named :=
  named.putDenied id _

theorem Named.insert (named : store.Named) (record : GrantRecord) : (store.insert record).Named := by
  refine ⟨fun key member => ?_, named.2⟩
  change key ∈ (if record.denied then Insert.insert record.pluginId.asStr store.denials
    else store.denials.erase record.pluginId.asStr) at member
  split at member
  next => exact (named.deny record.pluginId).1 key member
  next => exact named.1 key (Finset.mem_of_mem_erase member)

theorem Named.clearCapDenial (named : store.Named) (id : PluginId) (c : CapabilityId) : (store.clearCapDenial id c).2.Named := by
  unfold GrantStore.clearCapDenial
  split
  next => exact named
  next caps listed =>
    split
    next => exact named
    next =>
      split
      next =>
        refine ⟨named.1, fun key others found => ?_⟩
        rw [TreeMap.find_erase] at found
        split at found
        next => cases found
        next => exact named.2 key others found
      next left => exact named.putDenied id left

theorem Named.step (named : store.Named) (op : GrantOp) : (store.step op).2.Named := by
  cases op with
  | insert record => exact named.insert record
  | insertWithConsent record consent =>
    change (store.insertWithConsent record consent).2.Named
    rcases insertWithConsent_cases store record consent with ⟨-, same⟩ | ⟨-, accepted⟩
    · rwa [same]
    · rw [accepted]
      exact named.insert record
  | applyUpdate id oldHash newHash newCaps approved decidedAt =>
    change (store.applyUpdate id oldHash newHash newCaps approved decidedAt).2.Named
    rcases applyUpdate_cases store id oldHash newHash newCaps approved decidedAt with same | ⟨-, current, new, update⟩
    · rwa [same]
    · rw [update.written]
      exact named.put new
  | revoke id capability =>
    change (store.revoke id capability).2.Named
    rcases revoke_cases store id capability with
      ⟨-, same⟩ | ⟨record, report, found, -, ⟨-, gone⟩ | ⟨cap, -, -, less | ⟨-, gone⟩⟩⟩
    · rwa [same]
    · rw [gone]
      exact (named.remove id.asStr).deny id
    · rw [less]
      exact (named.put _).denyCap id cap
    · rw [gone]
      exact (((named.put _).denyCap id cap).remove id.asStr).deny id
  | clearCapDenial id capability => exact named.clearCapDenial id capability
  | restart =>
    change store.restart.2.Named
    rwa [restart_cases]

theorem named_run (ops : List GrantOp) : (run {} ops).Named := by
  have keeps (store : GrantStore) (named : store.Named) : (store.run ops).Named := by
    induction ops generalizing store with
    | nil => exact named
    | cons op rest ih => exact ih _ (named.step op)
  exact keeps {} ⟨by simp, by simp⟩

theorem byteLen_le (text : Text) : byteLen text ≤ 4 * text.length := by
  induction text with
  | nil => exact Nat.zero_le _
  | cons c rest ih =>
    have wide := c.utf8Size_le_four
    rw [byteLen_cons, List.length_cons]
    omega

theorem length_linesFrom_le (line text : Text) : (linesFrom line text).length ≤ text.length + 1 := by
  induction text generalizing line with
  | nil =>
    unfold linesFrom
    split_ifs <;> simp
  | cons c rest ih =>
    have next := ih []
    have same := ih (c :: line)
    unfold linesFrom
    split_ifs
    · rw [List.length_cons, List.length_cons]
      omega
    · exact same.trans (by simp)

theorem storable_insert {record : GrantRecord} (hash : HashRule record.manifestHash) (few : record.granted.card ≤ MAX_GRANTS_CAPS)
    (short : text.length < 1024) : (insert {} record).Storable text := by
  have only (key : Text) (other : GrantRecord) (found : (insert {} record).records[key]? = some other) :
      record.pluginId.asStr = key ∧ record = other := by
    change (({} : GrantStore).records.insert record.pluginId.asStr record)[key]? = some other at found
    rw [TreeMap.find_insert] at found
    split at found
    next here => exact ⟨here, Option.some.inj found⟩
    next => cases found
  have sub : (insert {} record).ids ⊆ {record.pluginId.asStr} := by
    intro key member
    rw [Finset.mem_singleton]
    rcases mem_orderedIds.mp (TextSet.mem_inOrder.mpr member) with ⟨other, found⟩ | denied | ⟨caps, found⟩
    · exact (only key other found).1.symm
    · change key ∈ (if record.denied then Insert.insert record.pluginId.asStr ∅ else Finset.erase ∅ record.pluginId.asStr) at denied
      split at denied
      next => exact Finset.mem_singleton.mp denied
      next => simp at denied
    · cases found
  have bytes : byteLen text ≤ 64 * 1024 := (byteLen_le text).trans (by omega)
  have lines : (linesFrom [] text).length ≤ 4096 := (length_linesFrom_le [] text).trans (by omega)
  refine ⟨((named_run []).insert record).ids, ?_, fun key other found => ?_, ?_, fun key other found => ?_, bytes, lines⟩
  · exact (Finset.card_le_card sub).trans (by rw [Finset.card_singleton]; decide)
  · rwa [← (only key other found).2]
  · rintro _ _ ⟨⟩
  · rwa [← (only key other found).2]

def testFile (granted : Text) : Text :=
  unlines [GRANTS_COMMENT, "grants_version = 1".toList, [], "[grants.\"xuepoo.test\"]".toList, "manifest_hash = \"h\"".toList,
    "decided_at = 1".toList, "origin = \"consent-ui\"".toList, "denied = false".toList, "granted = ".toList ++ granted,
    "plugin_denied = false".toList, "cap_denied = []".toList]

theorem parse_render_iff_kept : parse (testFile "[\"ui.rich\"]".toList) =
    .ok (insert {} (testRecord {richUi})) := by
  refine (parse_render_iff (by decide +kernel) ?_).mpr ⟨fun key other found c member => ?_, nofun, by decide +kernel⟩
  · exact storable_insert ⟨by decide, by decide, by decide⟩ (by decide) (by decide +kernel)
  · change (({} : GrantStore).records.insert testPlugin.asStr (testRecord {richUi}))[key]? = some other at found
    rw [TreeMap.find_insert] at found
    split at found
    next =>
      obtain rfl := Option.some.inj found
      obtain rfl := Finset.mem_singleton.mp member
      exact ⟨by decide, by decide⟩
    next => cases found

def commaRead : CapabilityId := ⟨"fs.read:/a,b".toList, .core, by decide⟩

/-- The name of the directory that may be read has a comma in it, and the file that is written is refused. -/
theorem parse_render_comma : ∃ text, (run {} [.insert (testRecord {commaRead})]).render = .ok text ∧
    (run {} [.insert (testRecord {commaRead})]).Storable text ∧ parse text ≠ .ok (run {} [.insert (testRecord {commaRead})]) := by
  have rendered : (run {} [.insert (testRecord {commaRead})]).render = .ok (testFile "[\"fs.read:/a,b\"]".toList) := by
    decide +kernel
  refine ⟨_, rendered, ?_, fun parsed => ?_⟩
  · exact storable_insert ⟨by decide, by decide, by decide⟩ (by decide) (by decide +kernel)
  · have found : (run {} [.insert (testRecord {commaRead})]).records[testPlugin.asStr]? = some (testRecord {commaRead}) := by
      change (({} : GrantStore).records.insert testPlugin.asStr (testRecord {commaRead}))[testPlugin.asStr]? = _
      rw [TreeMap.find_insert, if_pos rfl]
    have plain := (restorable_of_parse rendered parsed).granted testPlugin.asStr _ found commaRead (Finset.mem_singleton_self _)
    exact plain.1 (by decide)

end GrantStore

end Bitty.Plugin
