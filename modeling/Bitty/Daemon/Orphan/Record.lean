import Bitty.Daemon.Registry.Session
import Bitty.Library.Text

namespace Bitty.Daemon

open Text

def BOOT_ID_CHARS : Nat := 36

def isLowerHex (c : Char) : Bool := ('0' ≤ c ∧ c ≤ '9') ∨ ('a' ≤ c ∧ c ≤ 'f')

def isCanonicalUuid (value : Text) : Bool :=
  byteLen value = BOOT_ID_CHARS ∧
    value.zipIdx.all fun (c, index) => if index ∈ [8, 13, 18, 23] then c = '-' else isLowerHex c

structure BootId where
  text : Text
  canonical : isCanonicalUuid text = true
  deriving DecidableEq

namespace BootId

def parse (value : Text) : Option BootId :=
  if canonical : isCanonicalUuid value = true then some ⟨value, canonical⟩ else none

@[simp] theorem parse_text (b : BootId) : parse b.text = some b := by
  rw [parse, dif_pos b.canonical]

theorem inline_text (b : BootId) : b.text.Inline := by
  have canonical := b.canonical
  simp only [isCanonicalUuid, Bool.decide_and, Bool.and_eq_true, decide_eq_true_eq] at canonical
  intro c member
  obtain ⟨index, bound, rfl⟩ := List.mem_iff_getElem.mp member
  have valid := List.all_eq_true.mp canonical.2 (b.text[index], index) (by simp [List.mem_zipIdx_iff_getElem?, bound])
  dsimp only at valid
  constructor
  · intro newline
    rw [newline] at valid
    split at valid <;> simp [isLowerHex] at valid
  · intro carriage
    rw [carriage] at valid
    split at valid <;> simp [isLowerHex] at valid

end BootId

/-- A positive number of 32 bits: a process id or a process group id. -/
structure NonZeroU32 where
  value : UInt32
  positive : value ≠ 0
  deriving DecidableEq

namespace NonZeroU32

def new (value : UInt32) : Option NonZeroU32 := if positive : value ≠ 0 then some ⟨value, positive⟩ else none

@[simp] theorem new_value (n : NonZeroU32) : new n.value = some n := by
  rw [new, dif_pos n.positive]

def max : NonZeroU32 := ⟨4294967295, by decide⟩

end NonZeroU32

abbrev Pid := NonZeroU32

abbrev ProcessGroupId := NonZeroU32

structure ProcessIdentity where
  pid : Pid
  startTime : UInt64
  processGroup : ProcessGroupId
  uid : UInt32

inductive ProcessObservation
  | absent
  | present (startTime : UInt64) (processGroup : ProcessGroupId) (uid : UInt32)
  | unreadable

inductive ContainmentRecord
  | cgroup (path : ByteArray)
  | subreaper
  | windowsJob
  | freebsdReaper (processGroup : Option ProcessGroupId)
  | processGroup (processGroup : Option ProcessGroupId)

structure VerifiedOrphan where
  bootId : BootId
  identity : Option ProcessIdentity
  containment : ContainmentRecord

def decodeNibble (c : Char) : Option Nat :=
  if '0' ≤ c ∧ c ≤ '9' then some (c.toNat - '0'.toNat)
  else if 'a' ≤ c ∧ c ≤ 'f' then some (c.toNat - 'a'.toNat + 10)
  else none

def decodeHex (value : Text) : Option (BitVec 128) :=
  if byteLen value ≠ 32 then none else (readDigits decodeNibble 16 0 value).map (BitVec.ofNat 128)

namespace HexId

variable {kind : IdKind}

def asHex (id : HexId kind) : Text := (encodeHex id.bytes).toList

def parse (value : Text) : Option (HexId kind) := (decodeHex value).map mk

theorem asHex_eq (id : HexId kind) : id.asHex = (Nat.toDigits 16 id.bytes.toNat).leftpad 32 '0' := by
  rw [asHex, encodeHex, String.toList_ofList]

theorem length_asHex (id : HexId kind) : id.asHex.length = 32 := by
  have short := (Nat.length_toDigits_le_iff (b := 16) (k := 32) (by omega) (by omega)).mpr id.bytes.isLt
  rw [asHex_eq, List.length_leftpad]
  omega

theorem exists_digit_of_mem_asHex {id : HexId kind} {c : Char} (member : c ∈ id.asHex) :
    ∃ d < 16, c = Nat.digitChar d := by
  rw [asHex_eq, List.leftpad, List.mem_append] at member
  rcases member with pad | digit
  · exact ⟨0, by omega, List.eq_of_mem_replicate pad⟩
  · exact exists_digit_of_mem_toDigits (by omega) digit

theorem inline_asHex (id : HexId kind) : id.asHex.Inline := by
  intro c member
  obtain ⟨d, small, rfl⟩ := exists_digit_of_mem_asHex member
  exact (by decide : ∀ d < 16, Nat.digitChar d ≠ '\n' ∧ Nat.digitChar d ≠ '\r') d small

theorem byteLen_asHex (id : HexId kind) : byteLen id.asHex = 32 := by
  rw [byteLen_of_ascii, length_asHex]
  intro c member
  obtain ⟨d, small, rfl⟩ := exists_digit_of_mem_asHex member
  exact (by decide : ∀ d < 16, (Nat.digitChar d).utf8Size = 1) d small

@[simp] theorem parse_asHex (id : HexId kind) : parse id.asHex = some id := by
  have reads : readDigits decodeNibble 16 0 (Nat.toDigits 16 id.bytes.toNat) = some id.bytes.toNat :=
    readDigits_toDigits (by omega) (by decide) id.bytes.toNat
  have whole : readDigits decodeNibble 16 0 id.asHex = some id.bytes.toNat := by
    rw [asHex_eq, List.leftpad, readDigits_append, readDigits_zeros (by decide), Option.bind_some, reads]
  have length : ¬byteLen id.asHex ≠ 32 := by simp [byteLen_asHex]
  rw [parse, decodeHex, if_neg length, whole]
  simp

end HexId

end Bitty.Daemon

namespace Bitty.Daemon

open Text

def JOURNAL_HEADER : Text := "bittyd-orphan 2".toList

def LEGACY_JOURNAL_HEADER : Text := "bittyd-orphan 1".toList

def MAX_RECORDED_CGROUP_PATH_BYTES : Nat := 1024

inductive OrphanClass
  | reserved
  | committed
  | unverified
  deriving DecidableEq

namespace OrphanClass

def asStr : OrphanClass → Text
  | .reserved => "reserved".toList
  | .committed => "committed".toList
  | .unverified => "unverified".toList

def parse (value : Text) : Option OrphanClass :=
  if value = "reserved".toList then some .reserved
  else if value = "committed".toList then some .committed
  else if value = "unverified".toList then some .unverified
  else none

end OrphanClass

def isAsciiWhitespace (c : Char) : Bool := c ∈ [' ', '\t', '\n', '\x0C', '\r']

def isAsciiControl (c : Char) : Bool := c.toNat < 0x20 ∨ c.toNat = 0x7F

/-- The components of a path that are its parent directory are its pieces `..`. -/
def validRecordedPath (path : Text) : Bool :=
  path.head? = some '/' ∧ byteLen path ≤ MAX_RECORDED_CGROUP_PATH_BYTES ∧ "..".toList ∉ path.splitOn '/' ∧
    ∀ c ∈ path, isAsciiWhitespace c = false ∧ isAsciiControl c = false

def encodeGroup (mechanism : Text) : Option ProcessGroupId → Text
  | some group => mechanism ++ ' ' :: number group.value.toNat
  | none => mechanism

def containmentField : Option ContainmentRecord → Option Text
  | none => some "-".toList
  | some .subreaper => some "subreaper".toList
  | some (.cgroup path) =>
    match ofBytes? path with
    | none => none
    | some text => if validRecordedPath text then some ("cgroup ".toList ++ text) else none
  | some .windowsJob => some "windows_job".toList
  | some (.freebsdReaper processGroup) => some (encodeGroup "freebsd_reaper".toList processGroup)
  | some (.processGroup processGroup) => some (encodeGroup "process_group".toList processGroup)

/-- `"<mechanism>"` or `"<mechanism> <pgid>"`. -/
def parseGroup (mechanism value : Text) : Option (Option ProcessGroupId) := do
  let rest ← stripPrefix mechanism value
  if rest = [] then some none
  else
    let digits ← stripPrefix " ".toList rest
    if digits = [] ∨ ¬digits.all Char.isDigit then none
    else
      let raw ← parseU32 digits
      let group ← NonZeroU32.new raw
      some (some group)

def parseContainment (value : Text) : Option (Option ContainmentRecord) :=
  if value = "-".toList then some none
  else if value = "subreaper".toList then some (some .subreaper)
  else if value = "windows_job".toList then some (some .windowsJob)
  else
    match parseGroup "freebsd_reaper".toList value with
    | some group => some (some (.freebsdReaper group))
    | none =>
      match parseGroup "process_group".toList value with
      | some group => some (some (.processGroup group))
      | none => do
        let path ← stripPrefix "cgroup ".toList value
        if validRecordedPath path then some (some (.cgroup path.bytes)) else none

def optionalNumber : Option Nat → Text
  | none => "-".toList
  | some n => number n

def parseOptionalMs (value : Text) : Option (Option UInt64) :=
  if value = "-".toList then some none else (parseU64 value).map some

def parseIdentity (pid startTime processGroup uid : Text) : Option (Option ProcessIdentity) :=
  if pid = "-".toList ∧ startTime = "-".toList ∧ processGroup = "-".toList ∧ uid = "-".toList then some none
  else do
    let pid ← (parseU32 pid).bind NonZeroU32.new
    let startTime ← parseU64 startTime
    let processGroup ← (parseU32 processGroup).bind NonZeroU32.new
    let uid ← parseU32 uid
    some (some ⟨pid, startTime, processGroup, uid⟩)

def field (line : Text) (key : String) : Option Text := (stripPrefix key.toList line).bind (stripPrefix " ".toList)

/-- `lines.next()?`, and the lines after it. -/
def nextLine : List Text → Option (Text × List Text)
  | [] => none
  | line :: rest => some (line, rest)

def nextField (key : String) (lines : List Text) : Option (Text × List Text) := do
  let (line, rest) ← nextLine lines
  let value ← field line key
  some (value, rest)

structure OrphanRecord where
  sessionId : SessionId
  generation : UInt64
  orphanClass : OrphanClass
  bootId : Option BootId
  reservedAt : UInt64
  validatedAt : Option UInt64
  identity : Option ProcessIdentity
  containment : Option ContainmentRecord

namespace OrphanRecord

def reserved (sessionId : SessionId) (generation : UInt64) (bootId : BootId) (now : UInt64)
    (containment : ContainmentRecord) : OrphanRecord :=
  { sessionId := sessionId
    generation := generation
    orphanClass := .reserved
    bootId := some bootId
    reservedAt := now
    validatedAt := none
    identity := none
    containment := some containment }

def placeholder (sessionId : SessionId) : OrphanRecord :=
  { sessionId := sessionId
    generation := 0
    orphanClass := .unverified
    bootId := none
    reservedAt := 0
    validatedAt := some 0
    identity := none
    containment := none }

def entry (key : String) (value : Text) : Text := key.toList ++ ' ' :: value

def fields (r : OrphanRecord) (bootId : BootId) (containment : Text) : List Text :=
  [JOURNAL_HEADER,
    entry "session_id" r.sessionId.asHex,
    entry "generation" (number r.generation.toNat),
    entry "class" r.orphanClass.asStr,
    entry "boot_id" bootId.text,
    entry "reserved_at_ms" (number r.reservedAt.toNat),
    entry "validated_at_ms" (optionalNumber (r.validatedAt.map UInt64.toNat)),
    entry "containment" containment,
    entry "pid" (optionalNumber (r.identity.map (·.pid.value.toNat))),
    entry "start_time" (optionalNumber (r.identity.map (·.startTime.toNat))),
    entry "process_group" (optionalNumber (r.identity.map (·.processGroup.value.toNat))),
    entry "uid" (optionalNumber (r.identity.map (·.uid.toNat)))]

def encode (r : OrphanRecord) : Option Text := do
  let bootId ← r.bootId
  let containment ← containmentField r.containment
  some (unlines (r.fields bootId containment))

def maxIdentity : ProcessIdentity := ⟨.max, 18446744073709551615, .max, 4294967295⟩

def worstCase (r : OrphanRecord) : OrphanRecord :=
  { r with
    orphanClass := .unverified
    identity := some maxIdentity
    validatedAt := some 18446744073709551615
    containment :=
      match r.containment with
      | none => some (.cgroup (bytes (List.replicate MAX_RECORDED_CGROUP_PATH_BYTES 'x')))
      | some containment => some containment }

def worstCaseEncodedBytes (r : OrphanRecord) : Nat :=
  match r.worstCase.encode with
  | none => USIZE_MAX
  | some encoded => byteLen encoded

def parseLegacyTail (lines : List Text) : Option (Option ContainmentRecord × Option ProcessIdentity) := do
  let (_, lines) ← nextField "pid" lines
  let (_, lines) ← nextField "start_time" lines
  let (_, lines) ← nextField "process_group" lines
  if lines = [] then some (none, none) else none

def parseTail (lines : List Text) : Option (Option ContainmentRecord × Option ProcessIdentity) := do
  let (containment, lines) ← nextField "containment" lines
  let containment ← parseContainment containment
  let (pid, lines) ← nextField "pid" lines
  let (startTime, lines) ← nextField "start_time" lines
  let (processGroup, lines) ← nextField "process_group" lines
  let (uid, lines) ← nextField "uid" lines
  if lines = [] then
    let identity ← parseIdentity pid startTime processGroup uid
    some (containment, identity)
  else none

def fits : OrphanClass → Option ProcessIdentity → Bool
  | .reserved, some _ => false
  | .committed, none => false
  | _, _ => true

def parseValid (sessionId : SessionId) (text : Text) : Option OrphanRecord := do
  let (header, lines) ← nextLine (lines text)
  let legacy := header = LEGACY_JOURNAL_HEADER
  if ¬legacy ∧ header ≠ JOURNAL_HEADER then none
  else
    let (encodedSession, lines) ← nextField "session_id" lines
    let parsedSession ← HexId.parse encodedSession
    if parsedSession ≠ sessionId then none
    else
      let (generation, lines) ← nextField "generation" lines
      let generation ← parseU64 generation
      let (orphanClass, lines) ← nextField "class" lines
      let orphanClass ← OrphanClass.parse orphanClass
      let (bootId, lines) ← nextField "boot_id" lines
      let bootId ← BootId.parse bootId
      let (reservedAt, lines) ← nextField "reserved_at_ms" lines
      let reservedAt ← parseU64 reservedAt
      let (validatedAt, lines) ← nextField "validated_at_ms" lines
      let validatedAt ← parseOptionalMs validatedAt
      let validatedAt := if orphanClass = .unverified ∧ validatedAt = none then some 0 else validatedAt
      let (containment, identity) ← if legacy then parseLegacyTail lines else parseTail lines
      if ¬legacy ∧ ¬fits orphanClass identity then none
      else
        some
          { sessionId := sessionId
            generation := generation
            orphanClass := orphanClass
            bootId := some bootId
            reservedAt := reservedAt
            validatedAt := validatedAt
            identity := identity
            containment := containment }

def parse (sessionId : SessionId) (text : Text) : OrphanRecord :=
  (parseValid sessionId text).getD (placeholder sessionId)

end OrphanRecord

end Bitty.Daemon
