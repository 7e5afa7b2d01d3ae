import Bitty.Daemon.Orphan.Codec
import Bitty.Library.Mutation
import Bitty.Library.TreeMap

namespace Bitty.Daemon

open Std Text

def MAX_ORPHAN_RECORDS_SYSTEM_MAX : Nat := 64

def ORPHAN_RECORD_BYTES_SYSTEM_MAX : Nat := 4096

def ORPHAN_RECORD_RETENTION_MS_SYSTEM_MAX : UInt64 := 86400000

inductive JournalError
  | io
  | limitExceeded (limit : Nat)
  | recordTooLarge (bytes limit : Nat)
  | notReserved
  | duplicateRecord
  | unknownRecord
  | notQuarantined
  | incompleteRecord
  | invalidLimits (limit : String) (value maximum : Nat)

structure OrphanJournalLimits where
  maxRecords : Nat
  recordBytes : Nat
  quarantineRetentionMs : UInt64
  maxRecords_le : maxRecords ≤ MAX_ORPHAN_RECORDS_SYSTEM_MAX
  recordBytes_le : recordBytes ≤ ORPHAN_RECORD_BYTES_SYSTEM_MAX
  quarantineRetentionMs_le : quarantineRetentionMs ≤ ORPHAN_RECORD_RETENTION_MS_SYSTEM_MAX

namespace OrphanJournalLimits

def new (maxRecords recordBytes : Nat) (quarantineRetentionMs : UInt64) : Except JournalError OrphanJournalLimits :=
  if maxRecords_le : maxRecords ≤ MAX_ORPHAN_RECORDS_SYSTEM_MAX then
    if recordBytes_le : recordBytes ≤ ORPHAN_RECORD_BYTES_SYSTEM_MAX then
      if quarantineRetentionMs_le : quarantineRetentionMs ≤ ORPHAN_RECORD_RETENTION_MS_SYSTEM_MAX then
        .ok ⟨maxRecords, recordBytes, quarantineRetentionMs, maxRecords_le, recordBytes_le, quarantineRetentionMs_le⟩
      else
        .error (.invalidLimits "orphan_record_retention_ms" quarantineRetentionMs.toNat
          ORPHAN_RECORD_RETENTION_MS_SYSTEM_MAX.toNat)
    else .error (.invalidLimits "orphan_record_bytes" recordBytes ORPHAN_RECORD_BYTES_SYSTEM_MAX)
  else .error (.invalidLimits "max_orphan_records" maxRecords MAX_ORPHAN_RECORDS_SYSTEM_MAX)

theorem recordBytes_lt (limits : OrphanJournalLimits) : limits.recordBytes < USIZE_MAX :=
  Nat.lt_of_le_of_lt limits.recordBytes_le (by decide)

end OrphanJournalLimits

inductive ReapResult
  | swept
  | unverified
  | deferred

structure ReapReport where
  reaped : Nat := 0
  unverified : Nat := 0
  stale : Nat := 0
  deriving DecidableEq

inductive Disposition
  | exact (orphan : VerifiedOrphan)
  | unverified
  | stale

def ProcessIdentity.matchesObservation (identity : ProcessIdentity) : ProcessObservation → Bool
  | .present startTime processGroup uid =>
    startTime = identity.startTime ∧ processGroup = identity.processGroup ∧ uid = identity.uid
  | .absent | .unreadable => false

def classify (record : OrphanRecord) (probeBoot : Option BootId) (observe : Pid → ProcessObservation) : Disposition :=
  match record.bootId, probeBoot with
  | some recordBoot, some probeBoot =>
    if recordBoot ≠ probeBoot then .stale
    else if record.orphanClass = .unverified then .unverified
    else
      match record.containment with
      | none => .unverified
      | some .subreaper =>
        match record.identity with
        | none => .unverified
        | some identity =>
          if identity.matchesObservation (observe identity.pid) then .exact ⟨recordBoot, some identity, .subreaper⟩
          else .unverified
      | some (.cgroup path) =>
        .exact ⟨recordBoot, record.identity.filter fun identity => identity.matchesObservation (observe identity.pid),
          .cgroup path⟩
      | some .windowsJob | some (.freebsdReaper _) | some (.processGroup _) => .unverified
  | _, _ => .unverified

abbrev Directory := ExtTreeMap SessionId ByteArray

def loadRecord (limits : OrphanJournalLimits) (sessionId : SessionId) (bytes : ByteArray) : OrphanRecord :=
  if limits.recordBytes < bytes.size then .placeholder sessionId
  else
    match ofBytes? bytes with
    | some text => .parse sessionId text
    | none => .placeholder sessionId

def loadRecords (directory : Directory) (limits : OrphanJournalLimits) :
    Except JournalError (ExtTreeMap SessionId OrphanRecord) :=
  let records := directory.map (loadRecord limits)
  if limits.maxRecords < records.size then .error (.limitExceeded limits.maxRecords) else .ok records

structure OrphanJournal where
  directory : Directory
  limits : OrphanJournalLimits
  bootId : BootId
  bootOriginMs : UInt64
  records : ExtTreeMap SessionId OrphanRecord

/-- Whether the write or the removal of the file of a session succeeds. One that fails leaves the
previous file. -/
abbrev Disk := SessionId → Bool

namespace OrphanRecord

def committed (r : OrphanRecord) (identity : ProcessIdentity) : OrphanRecord :=
  { r with orphanClass := .committed, identity := some identity }

def quarantined (r : OrphanRecord) (bootTime : UInt64) : OrphanRecord :=
  { r with orphanClass := .unverified, validatedAt := some (r.validatedAt.getD bootTime) }

end OrphanRecord

namespace OrphanJournal

open Mutation

abbrev JournalM := Mutation OrphanJournal JournalError

/-- The source's name is `open`. -/
def openAt (directory : Directory) (limits : OrphanJournalLimits) (bootId : BootId) (bootOriginMs : UInt64) :
    Except JournalError OrphanJournal :=
  (loadRecords directory limits).map fun records => ⟨directory, limits, bootId, bootOriginMs, records⟩

def bootTime (j : OrphanJournal) (now : UInt64) : UInt64 :=
  UInt64.ofNat (min (j.bootOriginMs.toNat + now.toNat) U64_MAX)

def counts (j : OrphanJournal) (orphanClass : OrphanClass) : Nat :=
  (j.records.filter fun _ record => record.orphanClass = orphanClass).size

def contains (j : OrphanJournal) (sessionId : SessionId) : Bool := j.records.contains sessionId

def writeFile (sessionId : SessionId) (text : Text) (j : OrphanJournal) : OrphanJournal :=
  { j with directory := j.directory.insert sessionId text.bytes }

def remember (record : OrphanRecord) (j : OrphanJournal) : OrphanJournal :=
  { j with records := j.records.insert record.sessionId record }

def forget (sessionId : SessionId) (j : OrphanJournal) : OrphanJournal :=
  { j with directory := j.directory.erase sessionId, records := j.records.erase sessionId }

def store (disk : Disk) (record : OrphanRecord) : JournalM Unit := fun j =>
  match record.encode with
  | none => (.error .incompleteRecord, j)
  | some encoded =>
    if j.limits.recordBytes < byteLen encoded then
      (.error (.recordTooLarge (byteLen encoded) j.limits.recordBytes), j)
    else if disk record.sessionId then (.ok (), j.writeFile record.sessionId encoded)
    else (.error .io, j)

def remove (disk : Disk) (sessionId : SessionId) : JournalM Unit := fun j =>
  if disk sessionId then (.ok (), j.forget sessionId) else (.error .io, j)

def quarantine (disk : Disk) (record : OrphanRecord) (now : UInt64) : JournalM Unit := do
  let bootTime ← read (·.bootTime now)
  let record := record.quarantined bootTime
  if record.bootId.isSome then
    store disk record
  change (remember record)

def reserve (disk : Disk) (sessionId : SessionId) (generation now : UInt64) (containment : ContainmentRecord) :
    JournalM Unit := fun j =>
  if j.records.contains sessionId then (.error .duplicateRecord, j)
  else if j.limits.maxRecords ≤ j.records.size then (.error (.limitExceeded j.limits.maxRecords), j)
  else
    let record := OrphanRecord.reserved sessionId generation j.bootId now containment
    let worstCase := record.worstCaseEncodedBytes
    if j.limits.recordBytes < worstCase then (.error (.recordTooLarge worstCase j.limits.recordBytes), j)
    else
      (do
        store disk record
        change (remember record) : JournalM Unit) j

def commit (disk : Disk) (sessionId : SessionId) (identity : ProcessIdentity) : JournalM Unit := fun j =>
  match j.records[sessionId]? with
  | none => (.error .unknownRecord, j)
  | some record =>
    if record.orphanClass ≠ .reserved then (.error .notReserved, j)
    else
      (do
        store disk (record.committed identity)
        change fun j => { j with records := j.records.insert sessionId (record.committed identity) } : JournalM Unit) j

/-- What the probe and the reaper answer during one pass. A pass visits a session once at most, so
the answers are given for each session: what is observed while its record is classified, and what
the reaper answers if it is called for it. -/
structure Surroundings where
  bootId : Option BootId
  observe : SessionId → Pid → ProcessObservation
  reap : SessionId → ReapResult

/-- A pass under way; `calls` are the calls of the reaper and the records they were made for. -/
structure Pass where
  journal : OrphanJournal
  report : ReapReport := {}
  calls : List (OrphanRecord × VerifiedOrphan) := []

abbrev PassM := Mutation Pass JournalError

def onJournal (m : JournalM Unit) : PassM Unit := zoom Pass.journal (fun pass journal => { pass with journal := journal }) id m

def countReaped : PassM Unit := change fun pass => { pass with report.reaped := pass.report.reaped + 1 }

def countUnverified : PassM Unit := change fun pass => { pass with report.unverified := pass.report.unverified + 1 }

def countStale : PassM Unit := change fun pass => { pass with report.stale := pass.report.stale + 1 }

/-- One round of the loop of `reap_excluding`. -/
def reapSession (disk : Disk) (around : Surroundings) (now : UInt64) (live : SessionId → Bool) (sessionId : SessionId) :
    PassM Unit := fun pass =>
  if live sessionId then (.ok (), pass)
  else
    match pass.journal.records[sessionId]? with
    | none => (.ok (), pass)
    | some record =>
      match classify record around.bootId (around.observe sessionId) with
      | .stale => (do
          onJournal (remove disk sessionId)
          countStale : PassM Unit) pass
      | .unverified => (do
          onJournal (quarantine disk record now)
          countUnverified : PassM Unit) pass
      | .exact verified =>
        let pass := { pass with calls := pass.calls ++ [(record, verified)] }
        match around.reap sessionId with
        | .swept => (do
            onJournal (remove disk sessionId)
            countReaped : PassM Unit) pass
        | .unverified => (do
            onJournal (quarantine disk record now)
            countUnverified : PassM Unit) pass
        | .deferred => (.ok (), pass)

def reapSessions (disk : Disk) (around : Surroundings) (now : UInt64) (live : SessionId → Bool) :
    List SessionId → PassM Unit
  | [] => pure ()
  | sessionId :: rest => do
    reapSession disk around now live sessionId
    reapSessions disk around now live rest

def reapExcluding (disk : Disk) (around : Surroundings) (now : UInt64) (live : SessionId → Bool) (j : OrphanJournal) :
    Except JournalError ReapReport × Pass :=
  let (result, pass) := reapSessions disk around now live j.records.keys { journal := j }
  (result.map fun _ => pass.report, pass)

def isExpired (j : OrphanJournal) (now : UInt64) (record : OrphanRecord) : Bool :=
  record.orphanClass = .unverified ∧
    record.validatedAt.any fun validated =>
      decide (j.limits.quarantineRetentionMs.toNat ≤ (j.bootTime now).toNat - validated.toNat)

def removeAll (disk : Disk) : List SessionId → JournalM Unit
  | [] => pure ()
  | sessionId :: rest => do
    remove disk sessionId
    removeAll disk rest

def collectExpired (disk : Disk) (now : UInt64) : JournalM (List SessionId) := do
  let expired ← read fun j => ((j.records.toList.map Prod.snd).filter (j.isExpired now)).map (·.sessionId)
  removeAll disk expired
  pure expired

def retire (disk : Disk) (sessionId : SessionId) : JournalM Unit := fun j =>
  match j.records[sessionId]? with
  | none => (.error .unknownRecord, j)
  | some record =>
    if record.orphanClass ≠ .unverified then (.error .notQuarantined, j) else remove disk sessionId j

def settle (disk : Disk) (sessionId : SessionId) (cleanup : CleanupClass) (now : UInt64) : JournalM Unit := fun j =>
  match cleanup with
  | .notStarted | .swept => remove disk sessionId j
  | .groupSignalled | .unverified =>
    match j.records[sessionId]? with
    | some record => quarantine disk record now j
    | none => (.ok (), j)

end OrphanJournal

end Bitty.Daemon
