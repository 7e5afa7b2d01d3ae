import Bitty.Plugin.Store.RoundTrip
import Bitty.Plugin.Store.Store

/-! What a store has committed is what it holds, and can be loaded again. -/

namespace Bitty.Plugin.Store

open Std (ExtTreeMap)
open Text Checks

/-! Keys. -/

theorem escape_of_key {c : Char} (allowed : isKeyChar c = true) : escape c = [c] := by
  have named {d : Char} (refused : isKeyChar d = false) : c ≠ d := by
    rintro rfl
    rw [refused] at allowed
    cases allowed
  have visible : ¬c.toNat < 32 := by
    intro control
    have all : ∀ n < 32, isKeyChar (Char.ofNat n) = false := by decide
    have refused := all c.toNat control
    rw [Char.ofNat_toNat, allowed] at refused
    cases refused
  unfold escape
  rw [if_neg (named (by decide)), if_neg (named (by decide)), if_neg (named (by decide)), if_neg (named (by decide)),
    if_neg (named (by decide)), if_neg visible]

variable {key : Text}

theorem validateKey_ok : validateKey key = .ok () ↔
    (key ≠ [] ∧ byteLen key ≤ STORE_MAX_KEY_BYTES) ∧ key.head?.any isLowerOrDigit = true ∧ key.all isKeyChar = true ∧
      ¬['.', '.'] <:+: key := by
  simp only [validateKey, seq_ok, refuseIf_ok, not_or, Nat.not_lt, Bool.not_eq_false, ne_eq]

theorem encodeString_key (valid : validateKey key = .ok ()) : encodeString key = '"' :: key ++ ['"'] := by
  obtain ⟨-, -, allowed, -⟩ := validateKey_ok.mp valid
  have plain : key.flatMap escape = key.flatMap fun c => [c] := by
    refine List.flatMap_congr fun c member => ?_
    exact escape_of_key (List.all_eq_true.mp allowed c member)
  rw [encodeString, plain, List.flatMap_singleton']

theorem validateEntry_ok {value : LuaValue} : validateEntry key value = .ok () ↔
    validateKey key = .ok () ∧ byteLen (encodeJson value) ≤ STORE_MAX_VALUE_BYTES ∧ validateJsonValue value 2 = .ok () := by
  simp only [validateEntry, seq_ok, refuseIf_ok, Nat.not_lt]

variable {entries : Entries}

theorem validateStoreQuota_ok : validateStoreQuota entries = .ok () ↔
    entries.size ≤ STORE_MAX_ENTRIES ∧ totalBytes entries ≤ STORE_MAX_TOTAL_BYTES := by
  simp only [validateStoreQuota, seq_ok, refuseIf_ok, Nat.not_lt]

/-! Entries within the limits. -/

structure Sound (entries : Entries) : Prop where
  valid : ∀ e ∈ entries.toList, validateEntry e.1 e.2 = .ok ()
  quota : validateStoreQuota entries = .ok ()

theorem Sound.empty : Sound ∅ where
  valid := by simp
  quota := by
    have none : (∅ : Entries).toList = [] := by simp [← List.length_eq_zero_iff]
    rw [validateStoreQuota_ok, totalBytes, none, ← ExtTreeMap.length_toList, none]
    exact ⟨Nat.zero_le _, Nat.zero_le _⟩

theorem valid_erase (valid : ∀ e ∈ entries.toList, validateEntry e.1 e.2 = .ok ()) (key : Text) :
    ∀ e ∈ (entries.erase key).toList, validateEntry e.1 e.2 = .ok () := by
  rintro ⟨k, v⟩ member
  rw [ExtTreeMap.mem_toList_iff_getElem?_eq_some, TreeMap.find_erase] at member
  split_ifs at member
  exact valid (k, v) (ExtTreeMap.mem_toList_iff_getElem?_eq_some.mpr member)

theorem valid_insert (valid : ∀ e ∈ entries.toList, validateEntry e.1 e.2 = .ok ())
    {value : LuaValue} (fits : validateEntry key value = .ok ()) :
    ∀ e ∈ (entries.insert key value).toList, validateEntry e.1 e.2 = .ok () := by
  rintro ⟨k, v⟩ member
  rw [ExtTreeMap.mem_toList_iff_getElem?_eq_some, TreeMap.find_insert] at member
  split_ifs at member with same
  · cases member
    rw [← same]
    exact fits
  · exact valid (k, v) (ExtTreeMap.mem_toList_iff_getElem?_eq_some.mpr member)

theorem totalBytes_erase_le (entries : Entries) (key : Text) : totalBytes (entries.erase key) ≤ totalBytes entries := by
  cases here : entries[key]? with
  | none => rw [TreeMap.erase_of_absent entries key here]
  | some value =>
    have parts := (TreeMap.toList_erase_perm entries key value here).map fun e => byteLen e.1 + byteLen (encodeJson e.2)
    have total : totalBytes entries = byteLen key + byteLen (encodeJson value) + totalBytes (entries.erase key) := by
      rw [totalBytes, parts.sum_eq, List.map_cons, List.sum_cons]
      rfl
    omega

theorem Sound.erase (sound : Sound entries) (key : Text) : Sound (entries.erase key) where
  valid := valid_erase sound.valid key
  quota := by
    obtain ⟨count, total⟩ := validateStoreQuota_ok.mp sound.quota
    have fewer := ExtTreeMap.size_erase_le (t := entries) (k := key)
    have less := totalBytes_erase_le entries key
    exact validateStoreQuota_ok.mpr ⟨fewer.trans count, less.trans total⟩

/-! The image. -/

theorem byteLen_intercalate_le (c : Char) (parts : List Text) :
    byteLen (List.intercalate [c] parts) ≤ (parts.map fun part => byteLen part + c.utf8Size).sum := by
  induction parts with
  | nil => exact Nat.zero_le _
  | cons part rest ih =>
    cases rest with
    | nil =>
      rw [List.intercalate_singleton, List.map_cons, List.map_nil, List.sum_cons, List.sum_nil]
      omega
    | cons next rest =>
      have single : byteLen [c] = c.utf8Size := by rw [byteLen_cons, byteLen_nil, Nat.add_zero]
      rw [List.intercalate_cons_cons, byteLen_append, byteLen_append, single, List.map_cons, List.sum_cons]
      omega

theorem imageOf_eq (entries : Entries) : imageOf entries =
    '\x7b' :: (List.intercalate [','] ((entries.toList.map fun e => (LuaValue.string e.1, e.2)).map encodeMember) ++
      ['\x7d']) := by
  rw [List.map_map]
  rfl

theorem byteLen_encodeMember (valid : validateKey key = .ok ()) (value : LuaValue) :
    byteLen (encodeMember (.string key, value)) = byteLen key + byteLen (encodeJson value) + 3 := by
  have quote : '"'.utf8Size = 1 := rfl
  have colon : ':'.utf8Size = 1 := rfl
  change byteLen (encodeString key ++ ':' :: encodeJson value) = _
  rw [encodeString_key valid, byteLen_append, byteLen_append, byteLen_cons, byteLen_cons, byteLen_cons, byteLen_nil, quote,
    colon]
  omega

theorem sum_map_add_const {α : Type} (f : α → Nat) (c : Nat) (as : List α) :
    (as.map fun a => f a + c).sum = (as.map f).sum + c * as.length := by
  induction as with
  | nil => simp
  | cons a as ih =>
    rw [List.map_cons, List.map_cons, List.sum_cons, List.sum_cons, ih, List.length_cons, Nat.mul_succ]
    omega

theorem byteLen_imageOf_le {entries : Entries} (sound : Sound entries) : byteLen (imageOf entries) ≤ STORE_FILE_MAX_BYTES := by
  obtain ⟨count, total⟩ := validateStoreQuota_ok.mp sound.quota
  have length : entries.toList.length = entries.size := ExtTreeMap.length_toList
  have comma : ','.utf8Size = 1 := rfl
  have bytes : (((entries.toList.map fun e => (LuaValue.string e.1, e.2)).map encodeMember).map
      fun part => byteLen part + ','.utf8Size).sum = totalBytes entries + 4 * entries.size := by
    rw [List.map_map, List.map_map, ← length, totalBytes, ← sum_map_add_const]
    refine congrArg List.sum (List.map_congr_left fun e member => ?_)
    have here := byteLen_encodeMember (validateEntry_ok.mp (sound.valid e member)).1 e.2
    change byteLen (encodeMember (.string e.1, e.2)) + ','.utf8Size = _
    rw [here, comma]
  have parts := byteLen_intercalate_le ',' ((entries.toList.map fun e => (LuaValue.string e.1, e.2)).map encodeMember)
  rw [bytes] at parts
  have left : '\x7b'.utf8Size = 1 := rfl
  have right : '\x7d'.utf8Size = 1 := rfl
  rw [imageOf_eq, byteLen_cons, byteLen_append, byteLen_cons, byteLen_nil, left, right]
  unfold STORE_MAX_ENTRIES at count
  unfold STORE_MAX_TOTAL_BYTES at total
  unfold STORE_FILE_MAX_BYTES STORE_MAX_TOTAL_BYTES STORE_MAX_ENTRIES STORE_MAX_KEY_BYTES
  omega

/-! Loading. -/

namespace PluginStore

def reloaded (entries : Entries) : Entries := entries.map fun _ v => normal v

theorem toList_reloaded (entries : Entries) : (reloaded entries).toList = entries.toList.map fun e => (e.1, normal e.2) :=
  ExtTreeMap.toList_map

theorem validateEntry_normal {key : Text} {value : LuaValue} (valid : validateEntry key value = .ok ()) :
    validateEntry key (normal value) = .ok () := by
  obtain ⟨named, small, shaped⟩ := validateEntry_ok.mp valid
  exact validateEntry_ok.mpr ⟨named, (encodeJson_normal shaped).symm ▸ small, validate_normal shaped⟩

theorem sound_reloaded {entries : Entries} (sound : Sound entries) : Sound (reloaded entries) where
  valid := by
    intro e member
    rw [toList_reloaded] at member
    obtain ⟨e', source, rfl⟩ := List.mem_map.mp member
    exact validateEntry_normal (sound.valid e' source)
  quota := by
    obtain ⟨count, total⟩ := validateStoreQuota_ok.mp sound.quota
    have size : (reloaded entries).size = entries.size := ExtTreeMap.size_map
    have bytes : totalBytes (reloaded entries) = totalBytes entries := by
      rw [totalBytes, toList_reloaded, List.map_map, totalBytes]
      refine congrArg List.sum (List.map_congr_left fun e member => ?_)
      have same := encodeJson_normal (validateEntry_ok.mp (sound.valid e member)).2.2
      change byteLen e.1 + byteLen (encodeJson (normal e.2)) = _
      rw [same]
    rw [validateStoreQuota_ok, size, bytes]
    exact ⟨count, total⟩

theorem loadEntries_of_valid {read : List (Text × LuaValue)} (valid : ∀ e ∈ read, validateEntry e.1 e.2 = .ok ())
    (entries : Entries) : loadEntries (read.map fun e => (.string e.1, e.2)) entries =
      .ok (read.foldl (fun m e => m.insert e.1 e.2) entries) := by
  induction read generalizing entries with
  | nil => rfl
  | cons e rest ih =>
    rw [List.map_cons, loadEntries, valid e List.mem_cons_self, List.foldl_cons]
    exact ih (fun e member => valid e (List.mem_cons_of_mem _ member)) _

theorem entriesOf_imageOf {entries : Entries} (sound : Sound entries) :
    entriesOf (imageOf entries).bytes = .ok (reloaded entries) := by
  have small : ¬STORE_FILE_MAX_BYTES < (imageOf entries).bytes.size := Nat.not_lt.mpr (byteLen_imageOf_le sound)
  have parsed : parseJson (imageOf entries) =
      .ok (.table (entries.toList.map fun e => (.string e.1, normal e.2))) := by
    have members : ∀ p ∈ entries.toList.map fun e => (LuaValue.string e.1, e.2), ReadsBack (parseValue 15) p.2 := by
      intro p member
      obtain ⟨e, source, rfl⟩ := List.mem_map.mp member
      exact readsBack (validateEntry_ok.mp (sound.valid e source)).2.2 rfl
    have object := parseObject_reads members []
    have dispatch (text : Text) : parseValue 16 ('\x7b' :: text) = parseObject (parseValue 15) text := rfl
    rw [parseJson, JSON_MAX_DEPTH, imageOf_eq, dispatch, object, List.map_map]
    rfl
  have valid : ∀ e ∈ entries.toList.map fun e => (e.1, normal e.2), validateEntry e.1 e.2 = .ok () := by
    rw [← toList_reloaded]
    exact (sound_reloaded sound).valid
  have loaded := loadEntries_of_valid valid ∅
  rw [List.foldl_map, TreeMap.foldl_insert_toList entries normal, List.map_map] at loaded
  have keys : entries.toList.map (fun e => (LuaValue.string e.1, normal e.2)) =
      entries.toList.map ((fun e : Text × LuaValue => (LuaValue.string e.1, e.2)) ∘ fun e => (e.1, normal e.2)) := rfl
  rw [entriesOf, if_neg small, ofBytes?_bytes]
  dsimp only
  rw [parsed]
  dsimp only
  rw [keys, loaded]
  dsimp only
  have quota : validateStoreQuota (entries.map fun _ v => normal v) = .ok () := (sound_reloaded sound).quota
  rw [quota]
  rfl

theorem loadEntries_sound {pairs : List (LuaValue × LuaValue)} {entries loaded : Entries}
    (run : loadEntries pairs entries = .ok loaded) (valid : ∀ e ∈ entries.toList, validateEntry e.1 e.2 = .ok ()) :
    ∀ e ∈ loaded.toList, validateEntry e.1 e.2 = .ok () := by
  induction pairs generalizing entries with
  | nil =>
    cases run
    exact valid
  | cons p rest ih =>
    unfold loadEntries at run
    split at run
    · contradiction
    · rename_i key entry others same
      cases same
      split at run
      · cases run
      · rename_i fits
        exact ih run (valid_insert valid fits)
    · cases run

theorem entriesOf_sound {image : ByteArray} {entries : Entries} (run : entriesOf image = .ok entries) :
    image.size ≤ STORE_FILE_MAX_BYTES ∧ Sound entries := by
  unfold entriesOf at run
  split_ifs at run with large
  split at run
  · cases run
  split at run
  · cases run
  · split at run
    · cases run
    rename_i loaded
    split at run
    · cases run
    rename_i quota
    cases run
    exact ⟨Nat.not_lt.mp large, loadEntries_sound loaded Sound.empty.valid, quota⟩
  · cases run

/-! Runs. -/

variable {B : Type} [KvCommitBackend B]

/-- A backend whose commits replace an image or leave it, and whose loads answer it. -/
structure Whole (image : B → Text → Option ByteArray) : Prop where
  committed : ∀ {path bytes b b'}, KvCommitBackend.commitStoreBytes path bytes b = (.ok (), b') → image b' path = some bytes
  refused : ∀ {path bytes b e b'}, KvCommitBackend.commitStoreBytes path bytes b = (.error e, b') → image b' path = image b path
  loaded : ∀ {path b found}, KvCommitBackend.loadStoreBytes path b = .ok found → found = image b path
  readable : ∀ {path b}, (∀ bytes, image b path = some bytes → bytes.size ≤ STORE_FILE_MAX_BYTES) →
    ∃ found, KvCommitBackend.loadStoreBytes path b = .ok found

variable (image : B → Text → Option ByteArray)

def committed (store : PluginStore B) : Option ByteArray :=
  match store.path, store.backend with
  | some path, some backend => image backend path
  | _, _ => none

omit [KvCommitBackend B] in
theorem committed_with (path : Text) (entries : Entries) (backend : B) :
    committed image ⟨some path, entries, some backend⟩ = image backend path := rfl

def SameText (entries others : Entries) : Prop :=
  ∀ key : Text, entries[key]?.map encodeJson = others[key]?.map encodeJson

theorem sameText_reloaded {entries : Entries} (sound : Sound entries) : SameText (reloaded entries) entries := by
  intro key
  have found : (reloaded entries)[key]? = entries[key]?.map normal := ExtTreeMap.getElem?_map
  rw [found]
  cases here : entries[key]? with
  | none => rfl
  | some value =>
    have valid := sound.valid (key, value) (ExtTreeMap.mem_toList_iff_getElem?_eq_some.mpr here)
    exact congrArg some (encodeJson_normal (validateEntry_ok.mp valid).2.2)

inductive Opened : PluginStore B → Prop
  | fresh {path : Option Text} {backend : Option B} (none : committed image (withBackend path backend) = none) :
    Opened (withBackend path backend)
  | loaded {path : Text} {backend : Option B} {store : PluginStore B} (run : loadWithBackend path backend = .ok store) :
    Opened store

/-- The stored image is within its limit and loads as the entries that are held. -/
structure Durable (store : PluginStore B) : Prop where
  sound : Sound store.entries
  fits : ∀ bytes, committed image store = some bytes → bytes.size ≤ STORE_FILE_MAX_BYTES
  encodes : ∀ path, store.path = some path → ∃ entries, SameText entries store.entries ∧
    match committed image store with
    | none => entries = ∅
    | some bytes => entriesOf bytes = .ok entries

variable {image}

theorem opened_durable (whole : Whole image) {store : PluginStore B} (opened : Opened image store) : Durable image store := by
  cases opened with
  | @fresh path backend none =>
    refine ⟨Sound.empty, ?_, fun _ _ => ⟨∅, fun _ => rfl, ?_⟩⟩
    · rw [none]
      exact nofun
    · rw [none]
  | @loaded path backend _ run =>
    cases backend with
    | none =>
      cases run
      exact ⟨Sound.empty, nofun, fun _ _ => ⟨∅, fun _ => rfl, rfl⟩⟩
    | some backend =>
      unfold loadWithBackend at run
      dsimp only at run
      split at run
      · cases run
      · rename_i read
        cases run
        have nothing := whole.loaded read
        refine ⟨Sound.empty, ?_, fun _ _ => ⟨∅, fun _ => rfl, ?_⟩⟩
        · rw [committed_with, ← nothing]
          exact nofun
        · rw [committed_with, ← nothing]
      · rename_i bytes read
        have stored := whole.loaded read
        cases parsed : entriesOf bytes with
        | error e =>
          rw [parsed] at run
          cases run
        | ok entries =>
          rw [parsed] at run
          cases run
          obtain ⟨small, sound⟩ := entriesOf_sound parsed
          refine ⟨sound, ?_, fun _ _ => ⟨entries, fun _ => rfl, ?_⟩⟩
          · intro found same
            rw [committed_with, ← stored] at same
            cases same
            exact small
          · rw [committed_with, ← stored]
            exact parsed

omit [KvCommitBackend B] in
theorem candidate_sound {key : Text} {value : LuaValue} {store : PluginStore B} {entries : Entries} (sound : Sound store.entries)
    (run : store.candidate key value = .ok entries) : Sound entries := by
  unfold candidate at run
  obtain ⟨-, run⟩ := seq_ok.mp run
  split at run
  · cases run
    exact sound.erase key
  · obtain ⟨valid, run⟩ := seq_ok.mp run
    obtain ⟨quota, run⟩ := seq_ok.mp run
    cases run
    exact ⟨valid_insert sound.valid valid, quota⟩

theorem set_cases (whole : Whole image) (key : Text) (value : LuaValue) (store : PluginStore B) :
    (store.set key value).2.path = store.path ∧
      ((∃ e, (store.set key value).1 = .error e) ∧ (store.set key value).2.entries = store.entries ∧
          committed image (store.set key value).2 = committed image store ∨
        (store.set key value).1 = .ok () ∧ store.candidate key value = .ok (store.set key value).2.entries ∧
          (store.path = none ∨
            committed image (store.set key value).2 = some (imageOf (store.set key value).2.entries).bytes)) := by
  obtain ⟨path, held, backend⟩ := store
  unfold set
  cases checked : candidate key value ⟨path, held, backend⟩ with
  | error e => exact ⟨rfl, .inl ⟨⟨e, rfl⟩, rfl, rfl⟩⟩
  | ok entries =>
    cases path with
    | none => exact ⟨rfl, .inr ⟨rfl, rfl, .inl rfl⟩⟩
    | some path =>
      cases backend with
      | none => exact ⟨rfl, .inl ⟨⟨_, rfl⟩, rfl, rfl⟩⟩
      | some backend =>
        unfold persistEntries
        dsimp only
        rcases commit : KvCommitBackend.commitStoreBytes path (imageOf entries).bytes backend with ⟨answer, after⟩
        cases answer with
        | error e => exact ⟨rfl, .inl ⟨⟨_, rfl⟩, rfl, whole.refused commit⟩⟩
        | ok u => exact ⟨rfl, .inr ⟨rfl, rfl, .inr (whole.committed commit)⟩⟩

theorem Durable.set (whole : Whole image) {store : PluginStore B} (durable : Durable image store) (key : Text)
    (value : LuaValue) : Durable image (store.set key value).2 := by
  obtain ⟨path, ⟨-, entries, bytes⟩ | ⟨-, taken, stored⟩⟩ := set_cases whole key value store
  · refine ⟨?_, ?_, ?_⟩
    · rw [entries]
      exact durable.sound
    · rw [bytes]
      exact durable.fits
    · rw [entries, bytes, path]
      exact durable.encodes
  · have sound := candidate_sound durable.sound taken
    refine ⟨sound, ?_, ?_⟩
    · intro bytes here
      rcases stored with memory | stored
      · have nothing : committed image (store.set key value).2 = none := by
          rw [committed, path, memory]
        rw [nothing] at here
        cases here
      · rw [stored] at here
        cases here
        exact byteLen_imageOf_le sound
    · intro named here
      rcases stored with memory | stored
      · rw [path, memory] at here
        cases here
      · refine ⟨_, sameText_reloaded sound, ?_⟩
        rw [stored]
        exact entriesOf_imageOf sound

def run (calls : List (Text × LuaValue)) (store : PluginStore B) : PluginStore B :=
  calls.foldl (fun store call => (store.set call.1 call.2).2) store

theorem Durable.run (whole : Whole image) (calls : List (Text × LuaValue)) {store : PluginStore B}
    (durable : Durable image store) : Durable image (store.run calls) := by
  induction calls generalizing store with
  | nil => exact durable
  | cons call rest ih => exact ih (durable.set whole call.1 call.2)

theorem run_path (whole : Whole image) (calls : List (Text × LuaValue)) (store : PluginStore B) :
    (store.run calls).path = store.path := by
  induction calls generalizing store with
  | nil => rfl
  | cons call rest ih => exact (ih _).trans (set_cases whole call.1 call.2 store).1

theorem run_exact (whole : Whole image) (calls : List (Text × LuaValue)) {store : PluginStore B} {path : Text}
    (stored : store.path = some path) :
    committed image (store.run calls) = committed image store ∧ (store.run calls).entries = store.entries ∨
      committed image (store.run calls) = some (imageOf (store.run calls).entries).bytes := by
  induction calls generalizing store with
  | nil => exact .inl ⟨rfl, rfl⟩
  | cons call rest ih =>
    obtain ⟨kept, ⟨-, entries, bytes⟩ | ⟨-, -, memory | written⟩⟩ := set_cases whole call.1 call.2 store
    · rcases ih (kept.trans stored) with ⟨same, held⟩ | exactly
      · exact .inl ⟨same.trans bytes, held.trans entries⟩
      · exact .inr exactly
    · rw [stored] at memory
      cases memory
    · rcases ih (kept.trans stored) with ⟨same, held⟩ | exactly
      · refine .inr ?_
        change committed image ((store.set call.1 call.2).2.run rest) =
          some (imageOf ((store.set call.1 call.2).2.run rest).entries).bytes
        rw [same, held]
        exact written
      · exact .inr exactly

theorem Durable.loads (whole : Whole image) {store : PluginStore B} (durable : Durable image store) {path : Text}
    (stored : store.path = some path) :
    ∃ loaded, loadWithBackend path store.backend = .ok loaded ∧ SameText loaded.entries store.entries := by
  obtain ⟨entries, same, encodes⟩ := durable.encodes path stored
  have fits := durable.fits
  obtain ⟨named, held, backend⟩ := store
  cases stored
  cases backend with
  | none =>
    cases encodes
    exact ⟨⟨some path, ∅, none⟩, rfl, same⟩
  | some backend =>
    obtain ⟨found, read⟩ := whole.readable fits
    rw [committed_with, ← whole.loaded read] at encodes
    unfold loadWithBackend
    dsimp only
    rw [read]
    cases found with
    | none =>
      cases encodes
      exact ⟨_, rfl, same⟩
    | some bytes =>
      have parsed : entriesOf bytes = .ok entries := encodes
      dsimp only
      rw [parsed]
      exact ⟨_, rfl, same⟩

/-- Whatever is set, in whatever order, the image that is committed is that of the entries and loads as
them, a set that is refused changes neither, and the limits hold. -/
theorem run_durable (whole : Whole image) {start : PluginStore B} (opened : Opened image start)
    (calls : List (Text × LuaValue)) :
    (∀ path, start.path = some path →
      (committed image (start.run calls) = committed image start ∧ (start.run calls).entries = start.entries ∨
        committed image (start.run calls) = some (imageOf (start.run calls).entries).bytes) ∧
      ∃ loaded, loadWithBackend path (start.run calls).backend = .ok loaded ∧
        SameText loaded.entries (start.run calls).entries) ∧
    (∀ bytes, committed image (start.run calls) = some bytes → bytes.size ≤ STORE_FILE_MAX_BYTES) ∧
    (∀ key value e, ((start.run calls).set key value).1 = .error e →
      ((start.run calls).set key value).2.entries = (start.run calls).entries ∧
        committed image ((start.run calls).set key value).2 = committed image (start.run calls)) ∧
    (start.run calls).entries.size ≤ STORE_MAX_ENTRIES ∧
    totalBytes (start.run calls).entries ≤ STORE_MAX_TOTAL_BYTES ∧
    ∀ (key : Text) value, (start.run calls).entries[key]? = some value →
      byteLen (encodeJson value) ≤ STORE_MAX_VALUE_BYTES := by
  have durable := (opened_durable whole opened).run whole calls
  obtain ⟨count, total⟩ := validateStoreQuota_ok.mp durable.sound.quota
  refine ⟨?_, durable.fits, ?_, count, total, ?_⟩
  · intro path stored
    exact ⟨run_exact whole calls stored, durable.loads whole ((run_path whole calls start).trans stored)⟩
  · intro key value e refused
    obtain ⟨-, ⟨-, entries, bytes⟩ | ⟨done, -⟩⟩ := set_cases whole key value (start.run calls)
    · exact ⟨entries, bytes⟩
    · rw [done] at refused
      cases refused
  · intro key value here
    have valid := durable.sound.valid (key, value) (ExtTreeMap.mem_toList_iff_getElem?_eq_some.mpr here)
    exact (validateEntry_ok.mp valid).2.1

structure Files where
  file : Text → Option ByteArray

instance : KvCommitBackend Files where
  commitStoreBytes path bytes files :=
    if STORE_FILE_MAX_BYTES < bytes.size then (.error ⟨"too large".toList⟩, files)
    else (.ok (), ⟨fun p => if p = path then some bytes else files.file p⟩)
  loadStoreBytes path files :=
    match files.file path with
    | none => .ok none
    | some bytes => if STORE_FILE_MAX_BYTES < bytes.size then .error ⟨"too large".toList⟩ else .ok (some bytes)

theorem files_whole : Whole Files.file where
  committed := by
    intro path bytes files after run
    simp only [KvCommitBackend.commitStoreBytes] at run
    split_ifs at run
    · cases run
    · cases run
      exact if_pos rfl
  refused := by
    intro path bytes files e after run
    simp only [KvCommitBackend.commitStoreBytes] at run
    split_ifs at run
    · cases run
      rfl
    · cases run
  loaded := by
    intro path files found run
    simp only [KvCommitBackend.loadStoreBytes] at run
    split at run
    · rename_i absent
      cases run
      exact absent.symm
    · rename_i bytes present
      split_ifs at run
      cases run
      exact present.symm
  readable := by
    intro path files small
    simp only [KvCommitBackend.loadStoreBytes]
    cases present : files.file path with
    | none => exact ⟨none, rfl⟩
    | some bytes => exact ⟨some bytes, if_neg (Nat.not_lt.mpr (small bytes present))⟩

/-- A table is set, a key that is none is refused, and what is left is loaded. -/
theorem files_durable : ∃ loaded, loadWithBackend "store.json".toList
      ((withBackend (some "store.json".toList) (some (Files.mk fun _ => none))).run
        [("tabs".toList, .array [.bool true, .string "a\n".toList]), ("Bad".toList, .bool false)]).backend = .ok loaded ∧
    SameText loaded.entries
      ((withBackend (some "store.json".toList) (some (Files.mk fun _ => none))).run
        [("tabs".toList, .array [.bool true, .string "a\n".toList]), ("Bad".toList, .bool false)]).entries :=
  ((run_durable files_whole (.fresh rfl) _).1 _ rfl).2

end PluginStore

end Bitty.Plugin.Store
