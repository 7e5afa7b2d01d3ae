import Bitty.Term.Screen.Shape

/-! Hyperlinks: what the table holds along a run, and what the identifiers in cells resolve to. -/

namespace Bitty.Screen

open Bitty.Vt

def Linked (L : Option Nat → Prop) (cells : List Cell) : Prop := ∀ cell ∈ cells, L cell.hyperlink

variable {F : Frame}

theorem Linked.closed {L : Option Nat → Prop} (none_ : L none) (pen : L F.links.current) : EditClosed F (Linked L) :=
  Each.closed (P := fun cell => L cell.hyperlink)
    { erased := fun _ => none_, spacer := fun _ => none_, mark := fun _ admitted => admitted, widen := fun admitted _ => admitted }
    fun _ linked _ _ => linked ▸ pen

/-- The table is a window of ascending identifiers that ends at the last one issued. -/
structure Links.Sound (links : Links) : Prop where
  window : ∀ {i entry}, links.table[i]? = some entry → entry.id + links.table.length = links.next + i
  distinct : links.table.Pairwise fun a b => ¬(a.idParam = b.idParam ∧ a.uri = b.uri)
  bounded : links.table.length ≤ HYPERLINK_TABLE_MAX
  next_le : links.next ≤ 2 ^ 32 - 1
  known : ∀ {id}, links.current = some id → id < links.next

namespace Links

variable {links : Links} {link : Hyperlink}

def issued (links : Links) (link : Hyperlink) : Option HyperlinkEntry :=
  if links.table.any fun entry => entry.idParam == link.id && entry.uri == link.uri then none
  else some ⟨if links.next = 2 ^ 32 - 1 then 0 else links.next, link.id, link.uri⟩

theorem osc_of_resident (found : links.issued link = none) :
    ∃ entry ∈ links.table, links.osc (some link) = { links with current := some entry.id } := by
  unfold issued at found
  split at found
  next resident =>
    obtain ⟨entry, member, same⟩ := List.any_eq_true.mp resident
    cases here : links.table.find? fun entry => entry.idParam == link.id && entry.uri == link.uri with
    | none => exact absurd same (List.find?_eq_none.mp here entry member)
    | some entry =>
      refine ⟨entry, List.mem_of_find?_eq_some here, ?_⟩
      simp only [osc, here]
  next => cases found

/-- The table before a new entry: emptied at the end of the identifiers, and without its oldest entry when it is full. -/
def room (links : Links) : List HyperlinkEntry :=
  let table := if links.next = 2 ^ 32 - 1 then [] else links.table
  if HYPERLINK_TABLE_MAX ≤ table.length then table.drop 1 else table

variable {entry : HyperlinkEntry}

theorem osc_of_issued (fresh : links.issued link = some entry) :
    links.osc (some link) = ⟨links.room ++ [entry], entry.id + 1, some entry.id⟩ ∧
      entry = ⟨if links.next = 2 ^ 32 - 1 then 0 else links.next, link.id, link.uri⟩ ∧
      ∀ old ∈ links.table, ¬(old.idParam = link.id ∧ old.uri = link.uri) := by
  unfold issued at fresh
  split at fresh
  next => cases fresh
  next absent =>
    obtain rfl := Option.some.inj fresh
    have missing : ∀ old ∈ links.table, ¬(old.idParam = link.id ∧ old.uri = link.uri) := by
      intro old member same
      exact absent (List.any_eq_true.mpr ⟨old, member, by simpa using same⟩)
    have none_ : (links.table.find? fun entry => entry.idParam == link.id && entry.uri == link.uri) = none := by
      refine List.find?_eq_none.mpr fun old member same => missing old member ?_
      simpa using same
    exact ⟨by simp only [osc, none_, room], rfl, missing⟩

theorem room_eq (inside : links.next ≠ 2 ^ 32 - 1) :
    links.room = links.table.drop (if HYPERLINK_TABLE_MAX ≤ links.table.length then 1 else 0) := by
  unfold room
  dsimp only
  rw [if_neg inside]
  split
  · rfl
  · rfl

theorem room_restart (full : links.next = 2 ^ 32 - 1) : links.room = [] := by
  simp [room, full]

theorem Sound.length_room (sound : links.Sound) : links.room.length < HYPERLINK_TABLE_MAX := by
  have bounded := sound.bounded
  have positive : 0 < HYPERLINK_TABLE_MAX := by decide
  by_cases full : links.next = 2 ^ 32 - 1
  · rw [room_restart full]
    exact positive
  · rw [room_eq full, List.length_drop]
    split <;> omega

theorem mem_room (member : entry ∈ links.room) : entry ∈ links.table := by
  by_cases full : links.next = 2 ^ 32 - 1
  · rw [room_restart full] at member
    cases member
  · rw [room_eq full] at member
    exact List.mem_of_mem_drop member

theorem Sound.window_room (sound : links.Sound) {i : Nat} (here : links.room[i]? = some entry) :
    entry.id + links.room.length = (if links.next = 2 ^ 32 - 1 then 0 else links.next) + i := by
  by_cases full : links.next = 2 ^ 32 - 1
  · rw [room_restart full] at here
    cases here
  · rw [room_eq full] at here ⊢
    rw [List.getElem?_drop] at here
    have window := sound.window here
    have inside := (List.getElem?_eq_some_iff.mp here).1
    rw [if_neg full, List.length_drop]
    omega

theorem Sound.osc (sound : links.Sound) (link : Option Hyperlink) : (links.osc link).Sound := by
  cases link with
  | none => exact ⟨sound.window, sound.distinct, sound.bounded, sound.next_le, nofun⟩
  | some link =>
    cases fresh : links.issued link with
    | none =>
      obtain ⟨entry, member, step⟩ := osc_of_resident fresh
      rw [step]
      refine ⟨sound.window, sound.distinct, sound.bounded, sound.next_le, fun {id} current => ?_⟩
      obtain ⟨i, here⟩ := List.mem_iff_getElem?.mp member
      have window := sound.window here
      have inside := (List.getElem?_eq_some_iff.mp here).1
      have same : entry.id = id := Option.some.inj current
      change id < links.next
      omega
    | some entry =>
      obtain ⟨step, new, absent⟩ := osc_of_issued fresh
      have room := sound.length_room
      have next := sound.next_le
      have start : entry.id = if links.next = 2 ^ 32 - 1 then 0 else links.next := by rw [new]
      have start_le : entry.id + 1 ≤ 2 ^ 32 - 1 := by
        rw [start]
        split <;> omega
      rw [step]
      refine ⟨fun {i old} here => ?_, ?_, ?_, start_le, fun {id} current => ?_⟩
      · rw [List.length_append, List.length_singleton]
        dsimp only at here ⊢
        rw [List.getElem?_append] at here
        split at here
        next inside =>
          have window := sound.window_room here
          omega
        next outside_ =>
          obtain ⟨last, rfl⟩ : i - links.room.length = 0 ∧ old = entry := by
            rw [List.getElem?_singleton] at here
            split at here
            next zero => exact ⟨zero, (Option.some.inj here).symm⟩
            next => cases here
          omega
      · refine List.pairwise_append.mpr ⟨?_, List.pairwise_singleton _ _, fun old member last isLast => ?_⟩
        · by_cases full : links.next = 2 ^ 32 - 1
          · rw [room_restart full]
            exact List.Pairwise.nil
          · rw [room_eq full]
            exact sound.distinct.sublist (List.drop_sublist _ _)
        · rw [List.mem_singleton.mp isLast, new]
          exact absent old (mem_room member)
      · rw [List.length_append, List.length_singleton]
        exact room
      · have same : entry.id = id := Option.some.inj current
        exact same ▸ Nat.lt_succ_self _

theorem Sound.hyperlinkEntry_eq (sound : links.Sound) (id : Nat) :
    links.hyperlinkEntry id = (links.table.find? (·.id == id)).map fun entry => (entry.idParam, entry.uri) := by
  cases found : links.table.find? (·.id == id) with
  | none =>
    have missing (entry : HyperlinkEntry) (member : entry ∈ links.table) : entry.id ≠ id := by
      simpa using List.find?_eq_none.mp found entry member
    refine Option.bind_eq_none_iff.mpr fun front _ => ?_
    split
    next =>
      refine Option.bind_eq_none_iff.mpr fun entry here => ?_
      exact if_neg (missing entry (List.mem_of_getElem? here))
    next => rfl
  | some entry =>
    obtain ⟨j, here⟩ := List.mem_iff_getElem?.mp (List.mem_of_find?_eq_some found)
    have same : entry.id = id := by simpa using List.find?_some found
    have window := sound.window here
    have inside := (List.getElem?_eq_some_iff.mp here).1
    have first : links.table[0]? = some links.table[0] := List.getElem?_eq_getElem (by omega)
    have start := sound.window first
    unfold hyperlinkEntry
    rw [List.head?_eq_getElem?, first, Option.bind_some, if_pos (by omega), show id - links.table[0].id = j by omega, here,
      Option.bind_some, if_pos same, Option.map_some]

end Links

/-- The links issued since the screens were last reset, in the order of their identifiers. -/
def Links.log (links : Links) (log : List HyperlinkEntry) : TerminalAction → List HyperlinkEntry
  | .fullReset => []
  | .oscHyperlink (some link) => log ++ (links.issued link).toList
  | _ => log

def Links.issues (links : Links) : TerminalAction → Bool
  | .oscHyperlink (some link) => (links.issued link).isSome
  | _ => false

/-- A run with the links issued since the last reset, and the number of links issued in all. -/
def State.issue (tables : UnicodeTables) (s : State) (log : List HyperlinkEntry) (count : Nat) :
    List TerminalAction → State × List HyperlinkEntry × Nat
  | [] => (s, log, count)
  | action :: rest =>
    (s.apply tables action).issue tables (s.links.log log action) (count + if s.links.issues action then 1 else 0) rest

theorem State.issue_fst (tables : UnicodeTables) (s : State) (log : List HyperlinkEntry) (count : Nat)
    (actions : List TerminalAction) : (s.issue tables log count actions).1 = s.applyAll tables actions := by
  induction actions generalizing s log count with
  | nil => rfl
  | cons action rest ih => exact ih _ _ _

def State.Shows (s : State) (cell : Cell) : Prop :=
  (∃ row ∈ s.screens.main.lines, cell ∈ row.cells) ∨ (∃ row ∈ s.screens.alt.lines, cell ∈ row.cells) ∨
    ∃ line ∈ s.scrollback.lines, cell ∈ line.cells

variable {s : State}

theorem State.Holds.shows {L : Option Nat → Prop} (held : s.Holds F (Linked L)) {cell : Cell}
    (shown : s.Shows cell) : L cell.hyperlink := by
  rcases shown with ⟨row, member, inside⟩ | ⟨row, member, inside⟩ | ⟨line, member, inside⟩
  · exact held.main.rows row member cell inside
  · exact held.alt.rows row member cell inside
  · exact held.scrollback line member cell inside

structure State.Unlinked (F : Frame) (s : State) : Prop where
  links : s.links = ⟨[], 0, none⟩
  bare : s.Holds F (Linked (· = none))

/-- An identifier that was issued before the log had `n` entries. -/
def IssuedBelow (n : Nat) (link : Option Nat) : Prop := ∀ id, link = some id → id < n

/-- While no identifier is used twice, the log gives each issued identifier its link, the table holds the newest
entries of the log, and every cell's identifier stands in the log. -/
structure Logged (F : Frame) (s : State) (log : List HyperlinkEntry) : Prop where
  sound : s.links.Sound
  numbered : ∀ {i} {entry : HyperlinkEntry}, log[i]? = some entry → entry.id = i
  next : log.length = s.links.next
  newest : ∃ k, k ≤ log.length ∧ s.links.table = log.drop k
  cells : s.Holds { F with links := s.links } (Linked (IssuedBelow log.length))

namespace Logged

variable {F : Frame} {s : State} {log : List HyperlinkEntry} {tables : UnicodeTables}

theorem closed (logged : Logged F s log) :
    EditClosed { F with links := s.links } (Linked (IssuedBelow log.length)) := by
  refine Linked.closed (fun _ linked => nomatch linked) fun id current => ?_
  rw [logged.next]
  exact logged.sound.known current

theorem mono (logged : Logged F s log) {n : Nat} (more : log.length ≤ n) :
    s.Holds { F with links := s.links } (Linked (IssuedBelow n)) := by
  have grows {cells : List Cell} (linked : Linked (IssuedBelow log.length) cells) : Linked (IssuedBelow n) cells :=
    fun cell member id same => Nat.lt_of_lt_of_le (linked cell member id same) more
  exact logged.cells.mono grows

theorem osc (logged : Logged F s log) (link : Hyperlink) (room : log.length < 2 ^ 32 - 1) :
    Logged F (s.oscHyperlink (some link)) (log ++ (s.links.issued link).toList) := by
  have sound := logged.sound.osc (some link)
  obtain ⟨k, inside, table⟩ := logged.newest
  cases fresh : s.links.issued link with
  | none =>
    obtain ⟨entry, _, step⟩ := Links.osc_of_resident fresh
    have same : (s.oscHyperlink (some link)).links = { s.links with current := some entry.id } := step
    rw [Option.toList_none, List.append_nil]
    refine ⟨sound, logged.numbered, logged.next.trans (by rw [same]), ⟨k, inside, by rw [same, table]⟩, ?_⟩
    exact logged.cells.oscHyperlink (some link)
  | some entry =>
    obtain ⟨step, new, _⟩ := Links.osc_of_issued fresh
    have unspent : s.links.next ≠ 2 ^ 32 - 1 := by
      have next := logged.next
      omega
    have same : (s.oscHyperlink (some link)).links = ⟨s.links.room ++ [entry], entry.id + 1, some entry.id⟩ := step
    have id : entry.id = log.length := by rw [new, if_neg unspent, logged.next]
    rw [Option.toList_some]
    refine ⟨sound, fun {i other} here => ?_, ?_, ?_, ?_⟩
    · rw [List.getElem?_append] at here
      split at here
      · exact logged.numbered here
      · rw [List.getElem?_singleton] at here
        split at here
        · obtain rfl := Option.some.inj here
          omega
        · cases here
    · rw [same, List.length_append, List.length_singleton, id]
    · rw [same]
      dsimp only
      rw [Links.room_eq unspent, table, List.drop_drop]
      by_cases full : HYPERLINK_TABLE_MAX ≤ (log.drop k).length
      · have positive : 0 < HYPERLINK_TABLE_MAX := by decide
        rw [List.length_drop] at full
        rw [if_pos (by rw [List.length_drop]; exact full)]
        refine ⟨k + 1, by rw [List.length_append]; omega, ?_⟩
        rw [List.drop_append_of_le_length (by omega)]
      · rw [if_neg full]
        refine ⟨k, by rw [List.length_append]; omega, ?_⟩
        rw [List.drop_append_of_le_length inside, Nat.add_zero]
    · refine State.Holds.oscHyperlink (logged.mono ?_) (some link)
      rw [List.length_append]
      omega

theorem reset (logged : Logged F s log) : Logged F s.fullReset [] where
  sound := ⟨nofun, List.Pairwise.nil, Nat.zero_le _, Nat.zero_le _, nofun⟩
  numbered := nofun
  next := rfl
  newest := ⟨0, Nat.le_refl 0, rfl⟩
  cells := logged.cells.fullReset fun style cell member id linked => by
    rw [(List.mem_replicate.mp member).2] at linked
    cases linked

theorem handle (logged : Logged F s log) (action : TerminalAction) (room : log.length < 2 ^ 32 - 1) :
    Logged F (s.handle tables action) (s.links.log log action) := by
  have plain {action : TerminalAction} (calm : action ≠ .fullReset) (unlinked : ∀ link, action ≠ .oscHyperlink link) :
      Logged F (s.handle tables action) log := by
    have kept := logged.cells.handle logged.closed tables calm unlinked
    have links : (s.handle tables action).links = s.links := kept.links
    refine ⟨links ▸ logged.sound, logged.numbered, links ▸ logged.next, links ▸ logged.newest, ?_⟩
    rw [links]
    exact kept
  cases action with
  | fullReset => exact logged.reset
  | oscHyperlink link =>
    cases link with
    | none =>
      exact ⟨logged.sound.osc none, logged.numbered, logged.next, logged.newest, logged.cells.oscHyperlink none⟩
    | some link => exact logged.osc link room
  | _ => exact plain (nofun) (nofun)

theorem apply (logged : Logged F s log) (action : TerminalAction) (room : log.length < 2 ^ 32 - 1) :
    Logged F (s.apply tables action) (s.links.log log action) := by
  obtain ⟨sound, numbered, next, newest, cells⟩ := @Logged.handle _ _ _ tables logged action room
  exact ⟨sound, numbered, next, newest, cells⟩

theorem resolves (logged : Logged F s log) {cell : Cell} (shown : s.Shows cell) {id : Nat}
    (stored : cell.hyperlink = some id) : ∃ entry, log[id]? = some entry ∧ entry.id = id ∧
      (s.links.hyperlinkEntry id = none ∨ s.links.hyperlinkEntry id = some (entry.idParam, entry.uri)) := by
  have issued : id < log.length := logged.cells.shows shown id stored
  obtain ⟨entry, here⟩ : ∃ entry, log[id]? = some entry := ⟨log[id], List.getElem?_eq_getElem issued⟩
  refine ⟨entry, here, logged.numbered here, ?_⟩
  rw [logged.sound.hyperlinkEntry_eq]
  cases found : s.links.table.find? (·.id == id) with
  | none => exact .inl rfl
  | some resident =>
    obtain ⟨k, _, table⟩ := logged.newest
    have member := List.mem_of_find?_eq_some found
    rw [table] at member
    obtain ⟨j, there⟩ := List.mem_iff_getElem?.mp (List.mem_of_mem_drop member)
    have same : resident.id = id := by simpa using List.find?_some found
    rw [← same, logged.numbered there, there] at here
    obtain rfl := Option.some.inj here
    exact .inr rfl

end Logged

/-- What a run keeps of the table, also when the identifiers start again. -/
structure Tabled (F : Frame) (s : State) : Prop where
  sound : s.links.Sound
  shape : s.Holds { F with links := s.links } (Linked fun _ => True)

namespace Tabled

variable {F : Frame} {s : State} {tables : UnicodeTables}

theorem apply (tabled : Tabled F s) (action : TerminalAction) : Tabled F (s.apply tables action) := by
  have plain {action : TerminalAction} (calm : action ≠ .fullReset) (unlinked : ∀ link, action ≠ .oscHyperlink link) :
      Tabled F (s.apply tables action) := by
    have kept := tabled.shape.handle (Linked.closed trivial trivial) tables calm unlinked
    have links : (s.apply tables action).links = s.links := kept.links
    refine ⟨links ▸ tabled.sound, ?_⟩
    rw [links]
    exact kept
  cases action with
  | fullReset =>
    exact ⟨⟨nofun, List.Pairwise.nil, Nat.zero_le _, Nat.zero_le _, nofun⟩,
      tabled.shape.fullReset fun _ _ _ => trivial⟩
  | oscHyperlink link => exact ⟨tabled.sound.osc link, tabled.shape.oscHyperlink link⟩
  | _ => exact plain nofun nofun

theorem applyAll (tabled : Tabled F s) (actions : List TerminalAction) : Tabled F (s.applyAll tables actions) := by
  induction actions generalizing s with
  | nil => exact tabled
  | cons action rest ih => exact ih (tabled.apply action)

end Tabled

theorem Links.length_log (links : Links) (log : List HyperlinkEntry) (action : TerminalAction) :
    (links.log log action).length ≤ log.length + if links.issues action then 1 else 0 := by
  cases action with
  | oscHyperlink link =>
    cases link with
    | none => exact Nat.le_add_right _ _
    | some link =>
      cases fresh : links.issued link with
      | none => simp [Links.log, Links.issues, fresh]
      | some entry => simp [Links.log, Links.issues, fresh]
  | fullReset => exact Nat.zero_le _
  | _ => exact Nat.le_add_right _ _

theorem State.issue_count (tables : UnicodeTables) (s : State) (log : List HyperlinkEntry) (count : Nat)
    (actions : List TerminalAction) : count ≤ (s.issue tables log count actions).2.2 := by
  induction actions generalizing s log count with
  | nil => exact Nat.le_refl _
  | cons action rest ih => exact Nat.le_trans (Nat.le_add_right _ _) (ih _ _ _)

theorem Logged.issue {count : Nat} {log : List HyperlinkEntry} {tables : UnicodeTables}
    (logged : Logged F s log) (few : log.length ≤ count) (actions : List TerminalAction)
    (room : (s.issue tables log count actions).2.2 < 2 ^ 32 - 1) :
    Logged F (s.issue tables log count actions).1 (s.issue tables log count actions).2.1 := by
  induction actions generalizing s log count with
  | nil => exact logged
  | cons action rest ih =>
    have more := State.issue_count tables (s.apply tables action) (s.links.log log action)
      (count + if s.links.issues action then 1 else 0) rest
    have after : (s.links.log log action).length ≤ count + if s.links.issues action then 1 else 0 :=
      Nat.le_trans (Links.length_log s.links log action) (Nat.add_le_add_right few _)
    refine ih (logged.apply action ?_) after room
    change (State.issue tables (s.apply tables action) (s.links.log log action) _ rest).2.2 < _ at room
    omega

theorem State.Unlinked.logged (fresh : s.Unlinked F) : Logged F s [] := by
  have same : { F with links := s.links } = F := by rw [fresh.bare.links]
  refine ⟨?_, nofun, by rw [fresh.links]; rfl, ⟨0, Nat.le_refl 0, by rw [fresh.links]; rfl⟩, ?_⟩
  · rw [fresh.links]
    exact ⟨nofun, List.Pairwise.nil, Nat.zero_le _, Nat.zero_le _, nofun⟩
  · rw [same]
    refine fresh.bare.mono fun linked cell member id stored => ?_
    rw [linked cell member] at stored
    cases stored

/-- Along every run the table is a bounded window of distinct links whose identifiers ascend one by one, and looking one up
by arithmetic searches it. As long as no identifier is issued twice, what a cell stores resolves to the link that it was
issued for, or to nothing. -/
theorem State.Unlinked.hyperlinks_resolve {F : Frame} {s : State} (fresh : s.Unlinked F) (tables : UnicodeTables)
    (actions : List TerminalAction) :
    let run := s.issue tables [] 0 actions
    let links := run.1.links
    run.1 = s.applyAll tables actions ∧
    (∃ front, ∀ {i} {entry : HyperlinkEntry}, links.table[i]? = some entry → entry.id = front + i) ∧
    (∀ id, links.hyperlinkEntry id = (links.table.find? (·.id == id)).map fun entry => (entry.idParam, entry.uri)) ∧
    links.table.Pairwise (fun a b => ¬(a.idParam = b.idParam ∧ a.uri = b.uri)) ∧
    links.table.length ≤ HYPERLINK_TABLE_MAX ∧
    (run.2.2 < 2 ^ 32 - 1 → ∀ cell, run.1.Shows cell → ∀ id, cell.hyperlink = some id →
      ∃ entry, run.2.1[id]? = some entry ∧ entry.id = id ∧
        (links.hyperlinkEntry id = none ∨ links.hyperlinkEntry id = some (entry.idParam, entry.uri))) := by
  have logged := fresh.logged
  have same := State.issue_fst tables s [] 0 actions
  have start : Tabled F s := ⟨logged.sound, logged.cells.mono fun _ _ _ => trivial⟩
  have sound := (@Tabled.applyAll _ _ tables start actions).sound
  rw [← same] at sound
  refine ⟨same, ⟨(s.issue tables [] 0 actions).1.links.next - (s.issue tables [] 0 actions).1.links.table.length, ?_⟩,
    sound.hyperlinkEntry_eq, sound.distinct, sound.bounded, fun room cell shown id stored => ?_⟩
  · intro i entry here
    have window := sound.window here
    have inside := (List.getElem?_eq_some_iff.mp here).1
    have first := sound.window (List.getElem?_eq_getElem (i := 0) (by omega))
    omega
  · exact (logged.issue (Nat.le_refl 0) actions room).resolves shown stored

def narrowTables : UnicodeTables where
  eawClass _ := .n
  extendedPictographic _ := false
  graphemeExtend _ := false
  spacingMark _ := false
  prepend _ := false
  control _ := false
  incbLinker _ := false
  incbConsonant _ := false
  incbExtend _ := false

theorem State.unlinked_withScrollbackLines (maxLines : Nat) :
    (State.withScrollbackLines maxLines).Unlinked ⟨GRID_COLUMNS, GRID_ROWS, GRID_COLUMNS, [], 0, none⟩ := by
  have grid : (Grid.new GRID_ROWS GRID_COLUMNS).Holds GRID_COLUMNS GRID_ROWS (Linked (· = none)) := by
    refine ⟨rfl, List.length_replicate, fun row member cell inside => ?_⟩
    rw [(List.mem_replicate.mp member).2] at inside
    rw [(List.mem_replicate.mp inside).2]
    rfl
  exact ⟨rfl, rfl, rfl, rfl, ⟨Nat.zero_le _, Nat.lt_succ_self 23⟩, grid, grid, nofun⟩

theorem State.hyperlinks_resolve_printed :
    let link : Hyperlink := ⟨none, BoundedString.new ['u', 'r', 'i']⟩
    let run := (State.withScrollbackLines 10).issue narrowTables [] 0 [.oscHyperlink (some link), .print 'a']
    run.2.2 = 1 ∧ ∀ cell, run.1.Shows cell → ∀ id, cell.hyperlink = some id →
      ∃ entry, run.2.1[id]? = some entry ∧ entry.id = id ∧
        (run.1.links.hyperlinkEntry id = none ∨ run.1.links.hyperlinkEntry id = some (entry.idParam, entry.uri)) :=
  ⟨rfl, ((State.unlinked_withScrollbackLines 10).hyperlinks_resolve narrowTables _).2.2.2.2.2 (by decide)⟩

end Bitty.Screen
