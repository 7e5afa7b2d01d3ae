import Bitty.Library.Mutation
import Bitty.Plugin.Grant.Codec

namespace Bitty.Plugin

open Text Checks GrantStore

variable {value : Text}

theorem parseQuoted_quoted {text : Text} {line : Nat} (parsed : parseQuoted (quoted value) line = .ok text) : text = value := by
  have whole : (stripPrefix ['"'] (quoted value)).bind (stripSuffix ['"']) = some value := by
    change stripSuffix ['"'] (value ++ ['"']) = some value
    exact stripSuffix_append _ _
  unfold parseQuoted at parsed
  rw [whole] at parsed
  dsimp only at parsed
  split at parsed
  next => cases parsed
  next => exact (Except.ok.inj parsed).symm

theorem parseBool_boolText (b : Bool) (key : Text) (line : Nat) : parseBool (boolText b) key line = .ok b := by
  cases b with
  | true => rfl
  | false => rfl

theorem GrantOrigin.parse_asStr (origin : GrantOrigin) : GrantOrigin.parse origin.asStr = some origin := by
  cases origin <;> decide

theorem checkRenderable_ok {what : Text} (renderable : checkRenderable what value = .ok ()) :
    '"' ∉ value ∧ value.Inline := by
  obtain ⟨quote, -, control⟩ := by simpa only [checkRenderable, refuseIf_ok, not_or] using renderable
  refine ⟨quote, fun c member => ?_⟩
  have plain : isControl c ≠ true := fun bad => control (List.any_eq_true.mpr ⟨c, member, bad⟩)
  constructor
  · rintro rfl
    exact plain (by decide)
  · rintro rfl
    exact plain (by decide)

theorem solid_quoted (value : Text) : Solid (quoted value) := by
  refine ⟨⟨'"', rfl, by decide⟩, ⟨'"', ?_, by decide⟩⟩
  rw [quoted, List.getLast?_append]
  rfl

theorem inline_quoted {value : Text} (plain : value.Inline) : (quoted value).Inline :=
  Inline.cons (by decide) (plain.append (by decide))

theorem CapabilityId.dark (capability : CapabilityId) : ∀ c ∈ capability.asStr, isWhitespace c = false := by
  obtain ⟨catalog, valid⟩ := capability.valid
  simp only [validateCapability, seq_ok, refuseIf_ok] at valid
  intro c member
  cases blank : isWhitespace c with
  | false => rfl
  | true => exact absurd (List.any_eq_true.mpr ⟨c, member, by simp [blank]⟩) valid.2.2.1

def CapabilityId.Plain (capability : CapabilityId) : Prop :=
  ',' ∉ capability.asStr ∧ validateCapability .core capability.asStr = .ok ()

instance (capability : CapabilityId) : Decidable capability.Plain := inferInstanceAs (Decidable (_ ∧ _))

theorem CapabilityId.core_of_parse {capability parsed : CapabilityId} (known : CapabilityId.parse capability.asStr = .ok parsed) :
    validateCapability .core capability.asStr = .ok () := by
  unfold parse parseWith at known
  split at known
  next valid => exact valid
  next => cases known

theorem notMem_comma_of_read {line : Nat} {out found : Finset CapabilityId} {capability : CapabilityId} {rest : List Text}
    (before : Text) (blank : ∀ text, Solid text → trim (before ++ text) = text) (plain : ',' ∉ before)
    (renderable : '"' ∉ capability.asStr)
    (read : readCapabilities line out ((before ++ quoted capability.asStr).splitOn ',' ++ rest) = .ok found) :
    ',' ∉ capability.asStr := by
  intro comma
  obtain ⟨a, b, split, none⟩ := List.eq_append_cons_of_mem comma
  have part : ∀ c ∈ a, c ∈ capability.asStr := fun c member => split ▸ List.mem_append_left _ member
  have cut : (before ++ quoted capability.asStr).splitOn ',' = (before ++ '"' :: a) :: (b ++ ['"']).splitOn ',' := by
    have whole : before ++ quoted capability.asStr = (before ++ '"' :: a) ++ ',' :: (b ++ ['"']) := by simp [quoted, split]
    have absent : ',' ∉ before ++ '"' :: a := by simp [plain, none]
    rw [whole]
    exact List.splitOn_append_cons_self_of_not_mem absent _
  have solid : Solid ('"' :: a) := by
    refine ⟨⟨'"', rfl, by decide⟩, _, List.getLast?_eq_some_getLast (List.cons_ne_nil _ _), ?_⟩
    rcases List.mem_cons.mp (List.getLast_mem (List.cons_ne_nil '"' a)) with quote | inside
    · rw [quote]
      decide
    · exact capability.dark _ (part _ inside)
  rw [cut, List.cons_append, readCapabilities, blank _ solid] at read
  obtain ⟨text, quoted, -⟩ := Except.bind_ok read
  unfold parseQuoted at quoted
  split at quoted
  next => cases quoted
  next inner found =>
    obtain ⟨rest, opened, closed⟩ := Option.bind_eq_some_iff.mp found
    obtain rfl := Option.some.inj opened
    have quote : '"' ∈ a := by
      rw [eq_append_of_stripSuffix closed]
      exact List.mem_append_right _ (List.mem_singleton_self _)
    exact renderable (part _ quote)

theorem readCapabilities_quoted {line : Nat} {out found : Finset CapabilityId} {capability : CapabilityId} {rest : List Text}
    (before : Text) (blank : ∀ text, Solid text → trim (before ++ text) = text) (plain : ',' ∉ before)
    (renderable : '"' ∉ capability.asStr)
    (read : readCapabilities line out ((before ++ quoted capability.asStr).splitOn ',' ++ rest) = .ok found) :
    capability.Plain ∧ readCapabilities line (insert capability out) rest = .ok found := by
  have comma := notMem_comma_of_read before blank plain renderable read
  have single : (before ++ quoted capability.asStr).splitOn ',' = [before ++ quoted capability.asStr] :=
    List.splitOn_eq_singleton (by simp [plain, comma, quoted])
  rw [single, List.singleton_append, readCapabilities, blank _ (solid_quoted _)] at read
  obtain ⟨text, quoted, read⟩ := Except.bind_ok read
  obtain rfl := parseQuoted_quoted quoted
  obtain ⟨parsed, known, read⟩ := Except.bind_ok read
  have known := mapError_ok.mp known
  have same : parsed = capability := CapabilityId.ext (CapabilityId.asStr_of_parse known)
  subst same
  simp only [seq_ok] at read
  exact ⟨⟨comma, CapabilityId.core_of_parse known⟩, read.2.2⟩

theorem readCapabilities_rest {line : Nat} {out found : Finset CapabilityId} {caps : List CapabilityId}
    (renderable : ∀ c ∈ caps, '"' ∉ c.asStr)
    (read : readCapabilities line out (caps.flatMap fun c => (' ' :: quoted c.asStr).splitOn ',') = .ok found) :
    found = out ∪ caps.toFinset ∧ ∀ c ∈ caps, c.Plain := by
  induction caps generalizing out with
  | nil =>
    rw [List.toFinset_nil, Finset.union_empty]
    exact ⟨(Except.ok.inj read).symm, nofun⟩
  | cons c rest ih =>
    rw [List.flatMap_cons] at read
    obtain ⟨plain, next⟩ := readCapabilities_quoted [' '] (fun text solid => solid.trim_before) (by decide)
      (renderable c List.mem_cons_self) read
    obtain ⟨same, others⟩ := ih (fun d member => renderable d (List.mem_cons_of_mem _ member)) next
    rw [same, List.toFinset_cons, Finset.insert_union, Finset.union_insert]
    exact ⟨rfl, List.forall_mem_cons.mpr ⟨plain, others⟩⟩

theorem splitOn_capList (c : CapabilityId) (rest : List CapabilityId) :
    (List.intercalate ", ".toList ((c :: rest).map fun capability => quoted capability.asStr)).splitOn ',' =
      (quoted c.asStr).splitOn ',' ++ rest.flatMap fun c => (' ' :: quoted c.asStr).splitOn ',' := by
  have general (text : Text) : ∀ caps : List CapabilityId,
      (List.intercalate ", ".toList (text :: caps.map fun capability => quoted capability.asStr)).splitOn ',' =
        text.splitOn ',' ++ caps.flatMap fun c => (' ' :: quoted c.asStr).splitOn ',' := by
    intro caps
    induction caps generalizing text with
    | nil => simp
    | cons d others ih =>
      have join : List.intercalate ", ".toList (text :: (d :: others).map fun capability => quoted capability.asStr) =
          text ++ ',' :: List.intercalate ", ".toList ((' ' :: quoted d.asStr) :: others.map fun capability => quoted capability.asStr) := by
        cases others with
        | nil => simp [List.intercalate_cons_cons]
        | cons e more => simp [List.intercalate_cons_cons]
      rw [join, List.splitOn_append_cons_self, ih, List.flatMap_cons]
  exact general _ rest

theorem solid_capabilities (c : CapabilityId) (rest : List CapabilityId) :
    Solid (List.intercalate ", ".toList ((c :: rest).map fun capability => quoted capability.asStr)) := by
  induction rest generalizing c with
  | nil => simpa using solid_quoted c.asStr
  | cons d others ih =>
    rw [List.map_cons, List.map_cons, List.intercalate_cons_cons]
    exact (solid_quoted c.asStr).append ", ".toList (ih d)

theorem parseCapabilityArray_capList {caps : List CapabilityId} {line : Nat} {found : Finset CapabilityId}
    (renderable : ∀ c ∈ caps, '"' ∉ c.asStr) (parsed : parseCapabilityArray (capList caps) line = .ok found) :
    found = caps.toFinset ∧ ∀ c ∈ caps, c.Plain := by
  have whole : (stripPrefix ['['] (capList caps)).bind (stripSuffix [']']) =
      some (List.intercalate ", ".toList (caps.map fun capability => quoted capability.asStr)) := by
    change stripSuffix [']'] (_ ++ [']']) = _
    exact stripSuffix_append _ _
  unfold parseCapabilityArray at parsed
  rw [whole] at parsed
  dsimp only at parsed
  cases caps with
  | nil => exact ⟨(Except.ok.inj parsed).symm, nofun⟩
  | cons c rest =>
    have solid := solid_capabilities c rest
    rw [solid.trim_eq, if_neg solid.ne_nil, splitOn_capList] at parsed
    obtain ⟨plain, next⟩ := readCapabilities_quoted [] (fun text solid => solid.trim_eq) (by decide)
      (renderable c List.mem_cons_self) parsed
    obtain ⟨same, others⟩ := readCapabilities_rest (fun d member => renderable d (List.mem_cons_of_mem _ member)) next
    refine ⟨?_, List.forall_mem_cons.mpr ⟨plain, others⟩⟩
    rw [same, List.toFinset_cons]
    simp

def Word (key : Text) : Prop := key ≠ [] ∧ ∀ c ∈ key, c.isLower = true ∨ c = '_'

instance (key : Text) : Decidable (Word key) := inferInstanceAs (Decidable (_ ∧ _))

variable {key : Text}

theorem Word.ne_of_mem (word : Word key) {c d : Char} (member : c ∈ key) (other : ¬(d.isLower = true ∨ d = '_')) :
    c ≠ d := by
  rintro rfl
  exact other (word.2 _ member)

theorem Word.solid (word : Word key) : Solid key := by
  have dark (c : Char) (member : c ∈ key) : isWhitespace c = false := by
    rcases word.2 c member with small | rfl
    · have bounds : 97 ≤ c.toNat ∧ c.toNat ≤ 122 := by simpa [Char.isLower, UInt32.le_iff_toNat_le] using small
      have other (n : Nat) (outside : n < 97 ∨ 122 < n) : c.toNat ≠ n := by omega
      simp [isWhitespace, other]
      omega
    · decide
  obtain ⟨c, rest, rfl⟩ := List.exists_cons_of_ne_nil word.1
  exact ⟨⟨c, rfl, dark c List.mem_cons_self⟩, _, List.getLast?_eq_some_getLast (List.cons_ne_nil _ _),
    dark _ (List.getLast_mem _)⟩

theorem solid_assignment (word : Word key) (solid : Solid value) : Solid (assignment key value) :=
  word.solid.append _ solid

theorem splitAssignment_assignment (word : Word key) (solid : Solid value) (line : Nat) :
    splitAssignment (assignment key value) line = .ok (key, value) := by
  have cut : assignment key value = (key ++ [' ']) ++ '=' :: (' ' :: value) := by simp [assignment]
  have none : '=' ∉ key ++ [' '] := by
    intro member
    rcases List.mem_append.mp member with inside | blank
    · exact word.ne_of_mem inside (by decide) rfl
    · exact absurd blank (by decide)
  unfold splitAssignment
  rw [cut, splitOnce_append _ none]
  dsimp only
  rw [word.solid.trim_after, solid.trim_before, if_neg (not_or.mpr ⟨word.1, solid.ne_nil⟩)]

theorem head?_assignment (value : Text) (word : Word key) : ∃ c rest, assignment key value = c :: rest ∧ c ≠ '#' ∧ c ≠ '[' := by
  obtain ⟨c, rest, rfl⟩ := List.exists_cons_of_ne_nil word.1
  exact ⟨c, _, rfl, word.ne_of_mem List.mem_cons_self (by decide), word.ne_of_mem List.mem_cons_self (by decide)⟩

namespace ParseState

variable {state next : ParseState} {line : Nat}

theorem parseLine_assignment {key value : Text} (word : Word key) (solid : Solid value)
    (read : state.parseLine line (assignment key value) = .ok next) : match state.current with
      | none => state.parseVersion (assignment key value) line = .ok next
      | some builder => ∃ builder', builder.set key value line = .ok builder' ∧ next = { state with current := some builder' } := by
  obtain ⟨c, rest, shape, hash, bracket⟩ := head?_assignment value word
  have other : stripPrefix ['['] (assignment key value) = none := by
    rw [shape, stripPrefix]
    exact if_neg (Ne.symm bracket)
  have some : ¬(assignment key value = [] ∨ (assignment key value).head? = some '#') := by
    rw [shape]
    simp [hash]
  unfold parseLine at read
  split at read
  next => cases read
  next =>
    rw [(solid_assignment word solid).trim_eq, if_neg some, other] at read
    dsimp only at read
    cases current : state.current with
    | none => simpa [current] using read
    | some builder =>
      rw [current] at read
      dsimp only at read
      rw [splitAssignment_assignment word solid] at read
      obtain ⟨pair, split, read⟩ := Except.bind_ok read
      obtain rfl := Except.ok.inj split
      obtain ⟨builder', set, made⟩ := Except.bind_ok read
      exact ⟨builder', set, (Except.ok.inj made).symm⟩

theorem parseLine_blank (read : state.parseLine line [] = .ok next) : next = state := by
  unfold parseLine at read
  split at read
  next => cases read
  next =>
    rw [if_pos (.inl (by decide))] at read
    exact (Except.ok.inj read).symm

theorem parseLine_header {id : Text} (read : state.parseLine line (header id) = .ok next) : ∃ store,
    state.finish = .ok store ∧ next = { state with store, current := some { id, line } } := by
  have solid : Solid (header id) := by
    refine ⟨⟨'[', rfl, by decide⟩, ⟨']', ?_, by decide⟩⟩
    rw [header, List.getLast?_append]
    rfl
  have inside : Solid ("grants.".toList ++ quoted id) :=
    (show Solid ['g'] from ⟨⟨'g', rfl, by decide⟩, ⟨'g', rfl, by decide⟩⟩).append "rants.".toList (solid_quoted id)
  unfold parseLine at read
  split at read
  next => cases read
  next =>
    have open' : stripPrefix ['['] (header id) = some ("grants.".toList ++ quoted id ++ [']']) := rfl
    rw [solid.trim_eq, if_neg (by simp [header]), open'] at read
    obtain ⟨store, finished, read⟩ := Except.bind_ok read
    rw [stripSuffix_append] at read
    obtain ⟨builder, started, made⟩ := Except.bind_ok read
    refine ⟨store, finished, ?_⟩
    rw [← Except.ok.inj made]
    unfold SectionBuilder.start at started
    rw [inside.trim_eq, stripPrefix_append] at started
    dsimp only at started
    obtain ⟨text, named, checked⟩ := Except.bind_ok started
    obtain rfl := parseQuoted_quoted named
    obtain ⟨_, _, built⟩ := Except.bind_ok checked
    rw [← Except.ok.inj built]

end ParseState

end Bitty.Plugin
