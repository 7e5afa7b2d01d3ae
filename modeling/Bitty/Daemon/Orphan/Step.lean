import Bitty.Daemon.Orphan.Journal

namespace Bitty.Daemon

open Std Text

namespace OrphanJournal

open Mutation

variable {j j' : OrphanJournal} {s : SessionId} {r : OrphanRecord} {disk : Disk} {now : UInt64}

def InSync (j : OrphanJournal) : Prop :=
  ∀ s : SessionId, j.records[s]? = j.directory[s]?.map (loadRecord j.limits s)

def put (s : SessionId) (text : Text) (r : OrphanRecord) (j : OrphanJournal) : OrphanJournal :=
  { j with directory := j.directory.insert s text.bytes, records := j.records.insert s r }

structure Stored (limits : OrphanJournalLimits) (s : SessionId) (text : Text) (r : OrphanRecord) : Prop where
  named : r.sessionId = s
  writable : r.Writable
  encoded : r.encode = some text
  fits : byteLen text ≤ limits.recordBytes

theorem Stored.load {limits : OrphanJournalLimits} {text : Text} (stored : Stored limits s text r) :
    loadRecord limits s text.bytes = r := by
  have size : ¬limits.recordBytes < text.bytes.size := Nat.not_lt.mpr stored.fits
  rw [loadRecord, if_neg size, ofBytes?_bytes, ← stored.named]
  exact OrphanRecord.parse_encode stored.writable stored.encoded

theorem InSync.put {text : Text} (sync : j.InSync) (stored : Stored j.limits s text r) : (j.put s text r).InSync := by
  intro a
  change (j.records.insert s r)[a]? = (j.directory.insert s text.bytes)[a]?.map (loadRecord j.limits a)
  rw [TreeMap.find_insert, TreeMap.find_insert]
  by_cases same : s = a
  · subst same
    rw [if_pos rfl, if_pos rfl, Option.map_some, stored.load]
  · rw [if_neg same, if_neg same]
    exact sync a

theorem InSync.forget (sync : j.InSync) : (j.forget s).InSync := by
  intro a
  change (j.records.erase s)[a]? = (j.directory.erase s)[a]?.map (loadRecord j.limits a)
  rw [TreeMap.find_erase, TreeMap.find_erase]
  by_cases same : s = a
  · rw [if_pos same, if_pos same, Option.map_none]
  · rw [if_neg same, if_neg same]
    exact sync a

theorem records_put (text : Text) (a : SessionId) :
    (j.put s text r).records[a]? = if s = a then some r else j.records[a]? := TreeMap.find_insert _ _ _ _

theorem records_forget (a : SessionId) : (j.forget s).records[a]? = if s = a then none else j.records[a]? :=
  TreeMap.find_erase _ _ _

theorem loadRecord_cases (limits : OrphanJournalLimits) (s : SessionId) (bytes : ByteArray) :
    loadRecord limits s bytes = .placeholder s ∨
      ∃ text, OrphanRecord.parseValid s text = some (loadRecord limits s bytes) := by
  rw [loadRecord]
  split
  · exact .inl rfl
  · split
    · rename_i text decoded
      cases read : OrphanRecord.parseValid s text with
      | none => exact .inl (by rw [OrphanRecord.parse, read, Option.getD_none])
      | some r => exact .inr ⟨text, by rw [OrphanRecord.parse, read, Option.getD_some]⟩
    · exact .inl rfl

theorem InSync.cases (sync : j.InSync) (here : j.records[s]? = some r) :
    r = .placeholder s ∨ ∃ text, OrphanRecord.parseValid s text = some r := by
  rw [sync s] at here
  obtain ⟨bytes, -, rfl⟩ := Option.map_eq_some_iff.mp here
  exact loadRecord_cases _ _ _

theorem InSync.named (sync : j.InSync) (here : j.records[s]? = some r) : r.sessionId = s := by
  rcases sync.cases here with rfl | ⟨text, read⟩
  · rfl
  · exact (OrphanRecord.parseValid_eq_some read).1

theorem InSync.eq_placeholder (sync : j.InSync) (here : j.records[s]? = some r) (unbooted : r.bootId = none) :
    r = .placeholder s := by
  rcases sync.cases here with same | ⟨text, read⟩
  · exact same
  · exact absurd unbooted (OrphanRecord.parseValid_eq_some read).2.1

theorem InSync.no_identity (sync : j.InSync) (here : j.records[s]? = some r) (reserved : r.orphanClass = .reserved) :
    r.identity = none := by
  rcases sync.cases here with rfl | ⟨text, read⟩
  · rfl
  · exact (OrphanRecord.parseValid_eq_some read).2.2 reserved

inductive Move (s : SessionId) (j : OrphanJournal) : OrphanJournal → Prop
  | stay : Move s j j
  | put {text : Text} {r₀ r : OrphanRecord} (stored : Stored j.limits s text r) (here : j.records[s]? = some r₀)
      (same : r₀.SameReservation r) (quarantine : r₀.orphanClass = .unverified → r.orphanClass = .unverified) :
      Move s j (j.put s text r)
  | forget : Move s j (j.forget s)

theorem Move.sync (move : Move s j j') (sync : j.InSync) : j'.InSync := by
  cases move with
  | stay => exact sync
  | put stored _ _ _ => exact sync.put stored
  | forget => exact sync.forget

theorem Move.limits (move : Move s j j') : j'.limits = j.limits := by
  cases move <;> rfl

theorem Move.other {a : SessionId} (move : Move s j j') (other : a ≠ s) : j'.records[a]? = j.records[a]? := by
  cases move with
  | stay => rfl
  | put stored _ _ _ => rw [records_put, if_neg (Ne.symm other)]
  | forget => rw [records_forget, if_neg (Ne.symm other)]

variable {res : Except JournalError Unit}

theorem store_cases (run : store disk r j = (res, j')) : (∃ e, res = .error e ∧ j' = j) ∨
      ∃ text, r.encode = some text ∧ byteLen text ≤ j.limits.recordBytes ∧ res = .ok () ∧
        j' = j.writeFile r.sessionId text := by
  unfold store at run
  split at run
  · obtain ⟨rfl, rfl⟩ := Prod.mk.inj run
    exact .inl ⟨_, rfl, rfl⟩
  · rename_i text encoded
    split at run
    · obtain ⟨rfl, rfl⟩ := Prod.mk.inj run
      exact .inl ⟨_, rfl, rfl⟩
    · rename_i room
      split at run
      · obtain ⟨rfl, rfl⟩ := Prod.mk.inj run
        exact .inr ⟨text, encoded, Nat.not_lt.mp room, rfl, rfl⟩
      · obtain ⟨rfl, rfl⟩ := Prod.mk.inj run
        exact .inl ⟨_, rfl, rfl⟩

theorem store_change_cases {f : OrphanJournal → OrphanJournal}
    (run : (do store disk r; change f : JournalM Unit) j = (res, j')) :
    (∃ e, res = .error e ∧ j' = j) ∨
      ∃ text, r.encode = some text ∧ byteLen text ≤ j.limits.recordBytes ∧ res = .ok () ∧
        j' = f (j.writeFile r.sessionId text) := by
  rcases bind_cases run with ⟨e, stored, rfl⟩ | ⟨_, j₁, stored, run⟩
  · rcases store_cases stored with ⟨e', -, rfl⟩ | ⟨text, -, -, impossible, -⟩
    · exact .inl ⟨e, rfl, rfl⟩
    · cases impossible
  · rcases store_cases stored with ⟨e, impossible, -⟩ | ⟨text, encoded, fits, -, rfl⟩
    · cases impossible
    · obtain ⟨rfl, rfl⟩ := Prod.mk.inj run
      exact .inr ⟨text, encoded, fits, rfl, rfl⟩

theorem writable_reserved (generation now : UInt64) (bootId : BootId) (containment : ContainmentRecord) :
    (OrphanRecord.reserved s generation bootId now containment).Writable where
  shape := rfl
  stamped := by
    intro unverified
    cases unverified

theorem writable_committed (identity : ProcessIdentity) : (r.committed identity).Writable where
  shape := rfl
  stamped := by
    intro unverified
    cases unverified

theorem writable_quarantined (bootTime : UInt64) : (r.quarantined bootTime).Writable where
  shape := by cases r.identity <;> rfl
  stamped := by
    intro _ unstamped
    cases unstamped

theorem reserve_cases {generation : UInt64} {containment : ContainmentRecord}
    (run : reserve disk s generation now containment j = (res, j')) :
    j' = j ∨ ∃ text, j.records[s]? = none ∧
      (OrphanRecord.reserved s generation j.bootId now containment).worstCaseEncodedBytes ≤ j.limits.recordBytes ∧
      Stored j.limits s text (.reserved s generation j.bootId now containment) ∧
      j' = j.put s text (.reserved s generation j.bootId now containment) := by
  unfold reserve at run
  split at run
  · obtain ⟨rfl, rfl⟩ := Prod.mk.inj run
    exact .inl rfl
  · rename_i fresh
    split at run
    · obtain ⟨rfl, rfl⟩ := Prod.mk.inj run
      exact .inl rfl
    · dsimp only at run
      split at run
      · obtain ⟨rfl, rfl⟩ := Prod.mk.inj run
        exact .inl rfl
      · rename_i room
        rcases store_change_cases run with ⟨e, -, rfl⟩ | ⟨text, encoded, fits, -, rfl⟩
        · exact .inl rfl
        · have absent : j.records[s]? = none := by simpa using fresh
          exact .inr ⟨text, absent, Nat.not_lt.mp room, ⟨rfl, writable_reserved _ _ _ _, encoded, fits⟩, rfl⟩

theorem commit_move (sync : j.InSync) {identity : ProcessIdentity}
    (run : commit disk s identity j = (res, j')) : Move s j j' := by
  unfold commit at run
  split at run
  · obtain ⟨rfl, rfl⟩ := Prod.mk.inj run
    exact .stay
  · rename_i r here
    split at run
    · obtain ⟨rfl, rfl⟩ := Prod.mk.inj run
      exact .stay
    · rename_i reserved
      rcases store_change_cases run with ⟨e, -, rfl⟩ | ⟨text, encoded, fits, -, rfl⟩
      · exact .stay
      · have reserved : r.orphanClass = .reserved := Decidable.not_not.mp reserved
        have named : (r.committed identity).sessionId = s := (sync.named here : r.sessionId = s)
        have moved : Move s j (j.put s text (r.committed identity)) :=
          .put ⟨named, writable_committed _, encoded, fits⟩ here ⟨rfl, rfl, rfl, rfl, rfl⟩
            fun unverified => by rw [reserved] at unverified; cases unverified
        rw [named]
        exact moved

theorem remove_cases (run : remove disk s j = (res, j')) :
    (res = .error .io ∧ j' = j) ∨ res = .ok () ∧ j' = j.forget s := by
  unfold remove at run
  split at run
  · obtain ⟨rfl, rfl⟩ := Prod.mk.inj run
    exact .inr ⟨rfl, rfl⟩
  · obtain ⟨rfl, rfl⟩ := Prod.mk.inj run
    exact .inl ⟨rfl, rfl⟩

theorem remove_move (run : remove disk s j = (res, j')) : Move s j j' := by
  rcases remove_cases run with ⟨-, rfl⟩ | ⟨-, rfl⟩
  · exact .stay
  · exact .forget

theorem quarantine_cases (sync : j.InSync) (here : j.records[s]? = some r)
    (run : quarantine disk r now j = (res, j')) :
    j' = j ∨ ∃ text, Stored j.limits s text (r.quarantined (j.bootTime now)) ∧
      j' = j.put s text (r.quarantined (j.bootTime now)) := by
  unfold quarantine at run
  rw [read_bind] at run
  have named : (r.quarantined (j.bootTime now)).sessionId = s := (sync.named here : r.sessionId = s)
  cases booted : r.bootId with
  | none =>
    have unbooted : (r.quarantined (j.bootTime now)).bootId.isSome = false := by simp [OrphanRecord.quarantined, booted]
    simp only [unbooted, Bool.false_eq_true, if_false] at run
    obtain ⟨rfl, rfl⟩ := Prod.mk.inj run
    left
    have same : r.quarantined (j.bootTime now) = r := by
      rw [sync.eq_placeholder here booted]
      rfl
    have records : j.records.insert r.sessionId r = j.records := by
      refine ExtTreeMap.ext_getElem? fun a => ?_
      rw [TreeMap.find_insert, sync.named here]
      split
      · rename_i same
        rw [← same, here]
      · rfl
    rw [same, remember, records]
  | some bootId =>
    have known : (r.quarantined (j.bootTime now)).bootId.isSome = true := by simp [OrphanRecord.quarantined, booted]
    simp only [known, if_true] at run
    rcases store_change_cases run with ⟨e, -, rfl⟩ | ⟨text, encoded, fits, -, rfl⟩
    · exact .inl rfl
    · refine .inr ⟨text, ⟨named, writable_quarantined _, encoded, fits⟩, ?_⟩
      rw [remember, named]
      rfl

theorem quarantine_move (sync : j.InSync) (here : j.records[s]? = some r)
    (run : quarantine disk r now j = (res, j')) : Move s j j' := by
  rcases quarantine_cases sync here run with rfl | ⟨text, stored, rfl⟩
  · exact .stay
  · exact .put stored here ⟨rfl, rfl, rfl, rfl, rfl⟩ fun _ => rfl

theorem retire_move (run : retire disk s j = (res, j')) : Move s j j' := by
  unfold retire at run
  split at run
  · obtain ⟨rfl, rfl⟩ := Prod.mk.inj run
    exact .stay
  · split at run
    · obtain ⟨rfl, rfl⟩ := Prod.mk.inj run
      exact .stay
    · exact remove_move run

theorem settle_move (sync : j.InSync) {cleanup : CleanupClass}
    (run : settle disk s cleanup now j = (res, j')) : Move s j j' := by
  cases cleanup with
  | notStarted => exact remove_move run
  | swept => exact remove_move run
  | groupSignalled | unverified =>
    unfold settle at run
    dsimp only at run
    split at run
    · rename_i r here
      exact quarantine_move sync here run
    · obtain ⟨rfl, rfl⟩ := Prod.mk.inj run
      exact .stay

end OrphanJournal

end Bitty.Daemon
