import Bitty.Daemon.Orphan.Sweep

namespace Bitty.Daemon

open Std Text

namespace OrphanJournal

open Mutation

variable {j j' : OrphanJournal} {s : SessionId} {r : OrphanRecord} {disk : Disk} {now : UInt64}

/-- The operations on a journal. A restart reads the files again; the limits are those of before. -/
inductive Call
  | reserve (sessionId : SessionId) (generation now : UInt64) (containment : ContainmentRecord)
  | commit (sessionId : SessionId) (identity : ProcessIdentity)
  | reapExcluding (around : Surroundings) (now : UInt64) (live : SessionId → Bool)
  | collectExpired (now : UInt64)
  | retire (sessionId : SessionId)
  | settle (sessionId : SessionId) (cleanup : CleanupClass) (now : UInt64)
  | restart (bootId : BootId) (bootOriginMs : UInt64)

/-- The journal after an operation; `none` where it does not open. -/
def perform (disk : Disk) (j : OrphanJournal) : Call → Option OrphanJournal
  | .reserve sessionId generation now containment => some (reserve disk sessionId generation now containment j).2
  | .commit sessionId identity => some (commit disk sessionId identity j).2
  | .reapExcluding around now live => some (reapExcluding disk around now live j).2.journal
  | .collectExpired now => some (collectExpired disk now j).2
  | .retire sessionId => some (retire disk sessionId j).2
  | .settle sessionId cleanup now => some (settle disk sessionId cleanup now j).2
  | .restart bootId bootOriginMs => (openAt j.directory j.limits bootId bootOriginMs).toOption

def after (start : Option OrphanJournal) (calls : List (Disk × Call)) : Option OrphanJournal :=
  calls.foldl (fun j call => j.bind fun j => j.perform call.1 call.2) start

def run (directory : Directory) (limits : OrphanJournalLimits) (bootId : BootId) (bootOriginMs : UInt64)
    (calls : List (Disk × Call)) : Option OrphanJournal :=
  after (openAt directory limits bootId bootOriginMs).toOption calls

variable {bootId : BootId} {bootOriginMs : UInt64}

theorem openAt_ok {directory : Directory} {limits : OrphanJournalLimits}
    (opened : (openAt directory limits bootId bootOriginMs).toOption = some j) :
    j.limits = limits ∧ j.directory = directory ∧ j.InSync := by
  unfold openAt loadRecords at opened
  dsimp only at opened
  split at opened
  · cases opened
  · obtain rfl := Option.some.inj opened
    refine ⟨rfl, rfl, fun s => ?_⟩
    change (directory.map (loadRecord limits))[s]? = directory[s]?.map (loadRecord limits s)
    rw [ExtTreeMap.getElem?_map]

theorem restart_cases (sync : j.InSync)
    (opened : (openAt j.directory j.limits bootId bootOriginMs).toOption = some j') :
    j'.limits = j.limits ∧ j'.InSync ∧ ∀ s : SessionId, j'.records[s]? = j.records[s]? := by
  obtain ⟨limits, directory, reloaded⟩ := openAt_ok opened
  refine ⟨limits, reloaded, fun s => ?_⟩
  rw [reloaded s, sync s, directory, limits]

theorem Moves.limits (moves : Moves j j') : j'.limits = j.limits := by
  induction moves with
  | refl => rfl
  | tail _ last ih =>
    obtain ⟨s, move⟩ := last
    exact move.limits.trans ih

theorem removeAll_moves {ids : List SessionId} {res : Except JournalError Unit}
    (run : removeAll disk ids j = (res, j')) : Moves j j' := by
  induction ids generalizing j with
  | nil =>
    obtain ⟨rfl, rfl⟩ := Prod.mk.inj run
    exact .refl
  | cons s ids ih =>
    rcases bind_cases run with ⟨e, first, -⟩ | ⟨_, j₁, first, later⟩
    · exact .single ⟨s, remove_move first⟩
    · exact .head ⟨s, remove_move first⟩ (ih later)

theorem removeAll_other {ids : List SessionId} {res : Except JournalError Unit}
    (run : removeAll disk ids j = (res, j')) (outside : s ∉ ids) : j'.records[s]? = j.records[s]? := by
  induction ids generalizing j with
  | nil =>
    obtain ⟨rfl, rfl⟩ := Prod.mk.inj run
    rfl
  | cons a ids ih =>
    have other : s ≠ a := fun same => outside (same ▸ List.mem_cons_self)
    have later : s ∉ ids := fun member => outside (List.mem_cons_of_mem _ member)
    rcases bind_cases run with ⟨e, first, -⟩ | ⟨_, j₁, first, rest⟩
    · exact (remove_move first).other other
    · exact (ih rest later).trans ((remove_move first).other other)

theorem collectExpired_journal (disk : Disk) (now : UInt64) (j : OrphanJournal) :
    (collectExpired disk now j).2 =
      (removeAll disk (((j.records.toList.map Prod.snd).filter (j.isExpired now)).map (·.sessionId)) j).2 := by
  rw [collectExpired, read_bind, bind_pure_apply]

theorem perform_cases (sync : j.InSync) {call : Call} (ran : j.perform disk call = some j') :
    Moves j j' ∨
    (∃ s text generation now containment, j.records[s]? = none ∧
      (OrphanRecord.reserved s generation j.bootId now containment).worstCaseEncodedBytes ≤ j.limits.recordBytes ∧
      Stored j.limits s text (.reserved s generation j.bootId now containment) ∧
      j' = j.put s text (.reserved s generation j.bootId now containment)) ∨
    j'.limits = j.limits ∧ j'.InSync ∧ ∀ s : SessionId, j'.records[s]? = j.records[s]? := by
  cases call with
  | reserve s generation now containment =>
    obtain rfl := Option.some.inj ran
    rcases reserve_cases (Prod.mk.eta (p := reserve disk s generation now containment j)).symm with
      same | ⟨text, absent, room, stored, written⟩
    · rw [same]
      exact .inl .refl
    · exact .inr (.inl ⟨s, text, generation, now, containment, absent, room, stored, written⟩)
  | commit s identity =>
    obtain rfl := Option.some.inj ran
    exact .inl (.single ⟨s, commit_move sync Prod.mk.eta.symm⟩)
  | reapExcluding around now live =>
    obtain rfl := Option.some.inj ran
    exact .inl (reapExcluding_swept sync disk around now live).moves
  | collectExpired now =>
    obtain rfl := Option.some.inj ran
    rw [collectExpired_journal]
    exact .inl (removeAll_moves Prod.mk.eta.symm)
  | retire s =>
    obtain rfl := Option.some.inj ran
    exact .inl (.single ⟨s, retire_move Prod.mk.eta.symm⟩)
  | settle s cleanup now =>
    obtain rfl := Option.some.inj ran
    exact .inl (.single ⟨s, settle_move sync Prod.mk.eta.symm⟩)
  | restart bootId bootOriginMs => exact .inr (.inr (restart_cases sync ran))

theorem perform_sync (sync : j.InSync) {call : Call} (ran : j.perform disk call = some j') :
    j'.InSync ∧ j'.limits = j.limits := by
  rcases perform_cases sync ran with moves | ⟨s, text, generation, now, containment, -, -, stored, rfl⟩ | reloaded
  · exact ⟨moves.sync sync, moves.limits⟩
  · exact ⟨sync.put stored, rfl⟩
  · exact ⟨reloaded.2.1, reloaded.1⟩

theorem after_concat (start : Option OrphanJournal) (calls : List (Disk × Call)) (call : Disk × Call) :
    after start (calls ++ [call]) = (after start calls).bind fun j => j.perform call.1 call.2 := by
  rw [after, List.foldl_concat]
  rfl

theorem after_append (start : Option OrphanJournal) (calls more : List (Disk × Call)) :
    after start (calls ++ more) = after (after start calls) more := List.foldl_append

theorem after_induction {P : OrphanJournal → Prop} {start : Option OrphanJournal} (first : ∀ j, start = some j → P j)
    (next : ∀ disk call j j', P j → j.perform disk call = some j' → P j') (calls : List (Disk × Call))
    (ran : after start calls = some j) : P j := by
  induction calls using List.reverseRecOn generalizing j with
  | nil => exact first j ran
  | append_singleton calls call ih =>
    rw [after_concat] at ran
    obtain ⟨j₁, earlier, last⟩ := Option.bind_eq_some_iff.mp ran
    exact next _ _ _ _ (ih earlier) last

theorem run_sync {directory : Directory} {limits : OrphanJournalLimits}
    {calls : List (Disk × Call)} (ran : run directory limits bootId bootOriginMs calls = some j) :
    j.InSync ∧ j.limits = limits := by
  refine after_induction (P := fun j => j.InSync ∧ j.limits = limits) (fun j opened => ?_) ?_ calls ran
  · obtain ⟨same, -, sync⟩ := openAt_ok opened
    exact ⟨sync, same⟩
  · intro disk call j j' kept performed
    obtain ⟨sync, same⟩ := perform_sync kept.1 performed
    exact ⟨sync, same.trans kept.2⟩

end OrphanJournal

end Bitty.Daemon

namespace Bitty.Daemon

open Std Text

namespace OrphanJournal

open Mutation

variable {j j' : OrphanJournal} {s : SessionId} {r r' : OrphanRecord} {disk : Disk} {now : UInt64}

/-- A record that a reservation with these limits let in, in whatever class it is now. -/
structure Accepted (limits : OrphanJournalLimits) (s : SessionId) (r : OrphanRecord) : Prop where
  named : r.sessionId = s
  writable : r.Writable
  contained : r.containment ≠ none
  room : r.worstCaseEncodedBytes ≤ limits.recordBytes

theorem worstCaseEncodedBytes_eq (same : r.SameReservation r') : r'.worstCaseEncodedBytes = r.worstCaseEncodedBytes := by
  have worst : r'.worstCase = r.worstCase := by
    obtain ⟨sessionId, generation, bootId, reservedAt, containment⟩ := same
    simp only [OrphanRecord.worstCase, sessionId, generation, bootId, reservedAt, containment]
  rw [OrphanRecord.worstCaseEncodedBytes, worst, OrphanRecord.worstCaseEncodedBytes]

theorem Accepted.of_same {limits : OrphanJournalLimits} (accepted : Accepted limits s r) (same : r.SameReservation r')
    (writable : r'.Writable) : Accepted limits s r' where
  named := same.sessionId.trans accepted.named
  writable := writable
  contained := by
    rw [same.containment]
    exact accepted.contained
  room := by
    rw [worstCaseEncodedBytes_eq same]
    exact accepted.room

def AllAccepted (j : OrphanJournal) : Prop := ∀ (s : SessionId) (r : OrphanRecord), j.records[s]? = some r → Accepted j.limits s r

theorem Move.accepted (move : Move s j j') (all : j.AllAccepted) : j'.AllAccepted := by
  cases move with
  | stay => exact all
  | @put text r₀ r stored here same _ =>
    intro a r₁ found
    rw [records_put] at found
    split at found
    · rename_i eq
      subst eq
      obtain rfl := Option.some.inj found
      exact (all s r₀ here).of_same same stored.writable
    · exact all a r₁ found
  | forget =>
    intro a r₁ found
    rw [records_forget] at found
    split at found
    · cases found
    · exact all a r₁ found

theorem Moves.accepted (moves : Moves j j') (all : j.AllAccepted) : j'.AllAccepted := by
  induction moves with
  | refl => exact all
  | tail _ last ih =>
    obtain ⟨s, move⟩ := last
    exact move.accepted ih

theorem perform_accepted (sync : j.InSync) (all : j.AllAccepted) {call : Call} (ran : j.perform disk call = some j') :
    j'.AllAccepted := by
  rcases perform_cases sync ran with moves | ⟨s, text, generation, now, containment, -, room, stored, rfl⟩ | reloaded
  · exact moves.accepted all
  · intro a r found
    rw [records_put] at found
    split at found
    · rename_i eq
      subst eq
      obtain rfl := Option.some.inj found
      exact ⟨rfl, stored.writable, Option.some_ne_none _, room⟩
    · exact all a r found
  · intro a r found
    rw [reloaded.2.2 a] at found
    rw [reloaded.1]
    exact all a r found

theorem run_accepted {limits : OrphanJournalLimits} {bootId : BootId} {bootOriginMs : UInt64}
    {calls : List (Disk × Call)} (ran : run ∅ limits bootId bootOriginMs calls = some j) : j.AllAccepted := by
  have kept : j.InSync ∧ j.AllAccepted := by
    refine after_induction (P := fun j => j.InSync ∧ j.AllAccepted) (fun j opened => ?_) ?_ calls ran
    · obtain ⟨-, empty, sync⟩ := openAt_ok opened
      refine ⟨sync, fun s r found => ?_⟩
      rw [sync s, empty] at found
      simp at found
    · intro disk call j j' kept performed
      exact ⟨(perform_sync kept.1 performed).1, perform_accepted kept.1 kept.2 performed⟩
  exact kept.2

def unwritable : Except JournalError Unit → Bool
  | .error .incompleteRecord | .error (.recordTooLarge _ _) => true
  | _ => false

theorem store_writable {text : Text} (encoded : r.encode = some text) (fits : byteLen text ≤ j.limits.recordBytes) :
    unwritable (store disk r j).1 = false := by
  have room : ¬j.limits.recordBytes < byteLen text := Nat.not_lt.mpr fits
  simp only [store, encoded, if_neg room]
  split <;> rfl

theorem store_change_writable {f : OrphanJournal → OrphanJournal} {text : Text} (encoded : r.encode = some text)
    (fits : byteLen text ≤ j.limits.recordBytes) :
    unwritable ((do store disk r; change f : JournalM Unit) j).1 = false := by
  have stored : unwritable (store disk r j).1 = false := store_writable encoded fits
  rw [bind_apply]
  split
  · rfl
  · rename_i e j₁ run
    rw [run] at stored
    exact stored

structure Recoverable (j : OrphanJournal) (s : SessionId) (r : OrphanRecord) : Prop where
  reads : ∀ text, r.encode = some text → OrphanRecord.parse s text = r
  writes : ∃ text, r.encode = some text ∧ byteLen text ≤ j.limits.recordBytes
  commits : ∀ identity, ∃ text, (r.committed identity).encode = some text ∧ byteLen text ≤ j.limits.recordBytes
  quarantines : ∀ bootTime, ∃ text, (r.quarantined bootTime).encode = some text ∧ byteLen text ≤ j.limits.recordBytes
  commit_writable : ∀ disk identity, unwritable (commit disk s identity j).1 = false
  quarantine_writable : ∀ disk now, unwritable (quarantine disk r now j).1 = false

theorem Accepted.recoverable (here : j.records[s]? = some r) (accepted : Accepted j.limits s r) : Recoverable j s r := by
  have fits (r' : OrphanRecord) (same : r.SameReservation r') :
      ∃ text, r'.encode = some text ∧ byteLen text ≤ j.limits.recordBytes :=
    OrphanRecord.encode_fits same accepted.contained accepted.room j.limits.recordBytes_lt
  have commits (identity : ProcessIdentity) := fits (r.committed identity) ⟨rfl, rfl, rfl, rfl, rfl⟩
  have quarantines (bootTime : UInt64) := fits (r.quarantined bootTime) ⟨rfl, rfl, rfl, rfl, rfl⟩
  refine ⟨?_, fits r ⟨rfl, rfl, rfl, rfl, rfl⟩, commits, quarantines, ?_, ?_⟩
  · intro text encoded
    rw [← accepted.named]
    exact OrphanRecord.parse_encode accepted.writable encoded
  · intro disk identity
    obtain ⟨text, encoded, room⟩ := commits identity
    unfold commit
    rw [here]
    dsimp only
    split
    · rfl
    · exact store_change_writable encoded room
  · intro disk now
    obtain ⟨text, encoded, room⟩ := quarantines (j.bootTime now)
    unfold quarantine
    rw [read_bind]
    dsimp only
    split
    · exact store_change_writable encoded room
    · rfl

/-- Every record that a journal holds after operations that started with no files is read back as
it was written, and both the commit of any identity and a quarantine at any time fit. -/
theorem run_recoverable {limits : OrphanJournalLimits} {bootId : BootId} {bootOriginMs : UInt64}
    {calls : List (Disk × Call)} (ran : run ∅ limits bootId bootOriginMs calls = some j)
    (here : j.records[s]? = some r) : Recoverable j s r :=
  (run_accepted ran s r here).recoverable here

def sampleBoot : BootId := ⟨"11111111-1111-4111-8111-111111111111".toList, by decide⟩

def sampleLimits : OrphanJournalLimits := ⟨64, 4096, 1000, by decide, by decide, by decide⟩

def sampleCalls : List (Disk × Call) :=
  [(fun _ => true, .reserve ⟨7⟩ 1 5 .subreaper), (fun _ => true, .settle ⟨7⟩ .groupSignalled 9)]

theorem run_recoverable_sample : ∃ j r, run ∅ sampleLimits sampleBoot 0 sampleCalls = some j ∧
    j.records[(⟨7⟩ : SessionId)]? = some r ∧ r.orphanClass = .unverified ∧ Recoverable j ⟨7⟩ r := by
  have found : ((run ∅ sampleLimits sampleBoot 0 sampleCalls).bind fun j => j.records[(⟨7⟩ : SessionId)]?).map
      (·.orphanClass) = some .unverified := by decide +kernel
  obtain ⟨r, held, quarantined⟩ := Option.map_eq_some_iff.mp found
  obtain ⟨j, ran, here⟩ := Option.bind_eq_some_iff.mp held
  exact ⟨j, r, ran, here, quarantined, run_recoverable ran here⟩

end OrphanJournal

end Bitty.Daemon
