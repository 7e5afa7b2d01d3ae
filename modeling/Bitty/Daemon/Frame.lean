import Bitty.Library.Framing
import Bitty.Library.Transducer

/-! Frames are read off a socket, each from the captured peer. -/

namespace Bitty.Daemon.Frame

open Framing Stream

structure FramePeer where
  uid : UInt32
  pid : UInt32
  deriving DecidableEq

inductive FrameError
  | closed
  | unauthenticated
  | frameTooLarge (limit actual : Nat)
  | budgetExceeded (limit : Nat)
  | io

structure PeerFrameReader where
  header : List UInt8
  declared : Option Nat
  body : List UInt8
  peer : Option FramePeer

/-- What one `recvmsg` comes back with. -/
inductive Arrival
  | wouldBlock
  | closed
  | failed
  | data (count : Nat) (credentials : Option FramePeer)

/-- What was asked for at one `recvmsg`, and what was read. -/
structure Receipt where
  want : Nat
  bytes : List UInt8
  credentials : Option FramePeer

/-- The bytes that were sent and not read yet, what the next reads come back with, and what was read. -/
structure Socket where
  stream : List UInt8
  arrivals : List Arrival
  log : List Receipt

/-- At least one byte is read, at most as many as were asked for; where nothing was sent there is none to read. -/
def readSome (want : Nat) (stream : List UInt8) :
    Arrival → Except FrameError (Option (List UInt8 × Option FramePeer))
  | .wouldBlock => .ok none
  | .closed => .error .closed
  | .failed => .error .io
  | .data count credentials =>
    if stream = [] then .ok none else .ok (some (stream.take (min (max 1 count) want), credentials))

def credentialsMatch (expected : FramePeer) (previous observed : Option FramePeer) : Bool :=
  match observed with
  | none => false
  | some observed =>
    if observed.uid ≠ expected.uid ∨ observed.pid ≠ expected.pid then false
    else
      match previous with
      | some previous => previous = observed
      | none => true

abbrev Answer := Except FrameError (Option (List UInt8))

namespace PeerFrameReader

def new : PeerFrameReader := ⟨[], none, [], none⟩

def bufferedLen (r : PeerFrameReader) : Nat :=
  r.header.length + (r.declared.map fun declared => min r.body.length declared).getD 0

def want (r : PeerFrameReader) : Nat :=
  match r.declared with
  | none => 4 - r.header.length
  | some declared => declared - r.body.length

/-- How much is asked for, unless the cap is reached; a sum that overflows panics. -/
def allowance (r : PeerFrameReader) : Option UInt64 → Option (Except FrameError Nat)
  | none => some (.ok r.want)
  | some cap =>
    if cap.toNat ≤ r.bufferedLen then some (.error (.budgetExceeded cap.toNat))
    else if cap.toNat - r.bufferedLen + 1 < 2 ^ 64 then some (.ok (min r.want (cap.toNat - r.bufferedLen + 1)))
    else none

def store (maxFrameBytes : Nat) (r : PeerFrameReader) (bytes : List UInt8) : Except FrameError PeerFrameReader :=
  match r.declared with
  | none =>
    let header := r.header ++ bytes
    if header.length = 4 then
      let declared := beValue header
      if maxFrameBytes < declared then .error (.frameTooLarge maxFrameBytes declared)
      else .ok { r with header, declared := some declared, body := [] }
    else .ok { r with header }
  | some _ => .ok { r with body := r.body ++ bytes }

def absorb (maxFrameBytes : Nat) (expected : FramePeer) (cap : Option UInt64) (r : PeerFrameReader) (bytes : List UInt8)
    (credentials : Option FramePeer) : Except FrameError PeerFrameReader :=
  if credentialsMatch expected r.peer credentials = false then .error .unauthenticated
  else
    let r := { r with peer := credentials <|> r.peer }
    match cap.filter fun cap => cap.toNat < r.bufferedLen + bytes.length with
    | some cap => .error (.budgetExceeded cap.toNat)
    | none => r.store maxFrameBytes bytes

def readLoop (maxFrameBytes : Nat) (expected : FramePeer) (cap : Option UInt64) :
    List Arrival → List UInt8 → List Receipt → PeerFrameReader → Option Answer × PeerFrameReader × Socket
  | arrivals, stream, log, r =>
    if r.want = 0 then (some (.ok (some r.body)), new, ⟨stream, arrivals, log⟩)
    else
      match r.allowance cap, arrivals with
      | none, _ => (none, r, ⟨stream, arrivals, log⟩)
      | some (.error e), _ => (some (.error e), new, ⟨stream, arrivals, log⟩)
      | some (.ok want), [] => (some (.ok none), r, ⟨stream, [], log ++ [⟨want, [], none⟩]⟩)
      | some (.ok want), arrival :: rest =>
        match readSome want stream arrival with
        | .error e => (some (.error e), r, ⟨stream, rest, log ++ [⟨want, [], none⟩]⟩)
        | .ok none => (some (.ok none), r, ⟨stream, rest, log ++ [⟨want, [], none⟩]⟩)
        | .ok (some (bytes, credentials)) =>
          let unread := stream.drop bytes.length
          let log := log ++ [⟨want, bytes, credentials⟩]
          match r.absorb maxFrameBytes expected cap bytes credentials with
          | .error e => (some (.error e), new, ⟨unread, rest, log⟩)
          | .ok r => readLoop maxFrameBytes expected cap rest unread log r

def readCapped (maxFrameBytes : Nat) (expected : FramePeer) (cap : Option UInt64) (r : PeerFrameReader) (socket : Socket) :
    Option Answer × PeerFrameReader × Socket :=
  readLoop maxFrameBytes expected cap socket.arrivals socket.stream socket.log r

end PeerFrameReader

/-! What a reader holds of an unfinished frame. -/

def received (log : List Receipt) : List UInt8 := log.flatMap Receipt.bytes

@[simp] theorem received_nil : received [] = [] := rfl

@[simp] theorem received_append (a b : List Receipt) : received (a ++ b) = received a ++ received b := List.flatMap_append

@[simp] theorem received_singleton (receipt : Receipt) : received [receipt] = receipt.bytes :=
  List.flatMap_singleton _ _

def announced (pending : List UInt8) : Nat := 4 + if pending.length < 4 then 0 else beValue (pending.take 4)

theorem announced_append_of_le {pending more : List UInt8} (known : 4 ≤ pending.length) :
    announced (pending ++ more) = announced pending := by
  have long : ¬(pending ++ more).length < 4 := by
    rw [List.length_append]
    omega
  rw [announced, announced, if_neg long, if_neg (Nat.not_lt.mpr known), List.take_append_of_le_length known]

theorem announced_le_append (pending more : List UInt8) : announced pending ≤ announced (pending ++ more) := by
  by_cases known : 4 ≤ pending.length
  · exact (announced_append_of_le known).ge
  · rw [announced, if_pos (Nat.lt_of_not_le known)]
    exact Nat.le_add_right _ _

variable {maxFrameBytes : Nat} {expected : FramePeer} {cap : Option UInt64} {pending bytes : List UInt8}
  {peer credentials : Option FramePeer}

namespace PeerFrameReader

def held (pending : List UInt8) (peer : Option FramePeer) : PeerFrameReader where
  header := pending.take 4
  declared := if pending.length < 4 then none else some (beValue (pending.take 4))
  body := pending.drop 4
  peer

theorem held_of_lt (early : pending.length < 4) : held pending peer = ⟨pending, none, [], peer⟩ := by
  rw [held, if_pos early, List.take_of_length_le early.le, List.drop_of_length_le early.le]

theorem held_of_le (known : 4 ≤ pending.length) :
    held pending peer = ⟨pending.take 4, some (beValue (pending.take 4)), pending.drop 4, peer⟩ := by
  rw [held, if_neg (Nat.not_lt.mpr known)]

theorem held_want (pending : List UInt8) (peer : Option FramePeer) :
    (held pending peer).want = announced pending - pending.length := by
  rw [want, held, announced]
  by_cases short : pending.length < 4
  · simp only [if_pos short, List.length_take]
    omega
  · simp only [if_neg short, List.length_drop]
    omega

theorem held_bufferedLen (short : pending.length ≤ announced pending) :
    (held pending peer).bufferedLen = pending.length := by
  rw [announced] at short
  rw [bufferedLen, held]
  by_cases early : pending.length < 4
  · simp only [if_pos early, List.length_take, Option.map_none, Option.getD_none]
    omega
  · rw [if_neg early] at short
    simp only [if_neg early, List.length_take, List.length_drop, Option.map_some, Option.getD_some]
    omega

end PeerFrameReader

structure Fits (maxFrameBytes : Nat) (pending : List UInt8) : Prop where
  short : pending.length ≤ announced pending
  bounded : 4 ≤ pending.length → beValue (pending.take 4) ≤ maxFrameBytes

theorem Fits.nil (maxFrameBytes : Nat) : Fits maxFrameBytes [] := ⟨Nat.zero_le _, fun known => absurd known (by decide)⟩

theorem credentialsMatch_iff {expected : FramePeer} {previous observed : Option FramePeer} :
    credentialsMatch expected previous observed = true ↔
      observed = some expected ∧ (previous = none ∨ previous = some expected) := by
  cases observed with
  | none => exact iff_of_false nofun nofun
  | some observed =>
    unfold credentialsMatch
    dsimp only
    rw [Option.some.injEq]
    by_cases same : observed = expected
    · subst same
      cases previous with
      | none => simp
      | some previous => simp
    · have other : observed.uid ≠ expected.uid ∨ observed.pid ≠ expected.pid := by
        by_contra both
        rw [not_or, not_not, not_not] at both
        cases observed
        cases expected
        exact same (by rw [FramePeer.mk.injEq]; exact both)
      rw [if_pos other]
      exact iff_of_false nofun fun both => same both.1

theorem filter_cap_eq_some {cap : Option UInt64} {size : Nat} {c : UInt64} :
    (cap.filter fun cap => cap.toNat < size) = some c ↔ cap = some c ∧ c.toNat < size := by
  rw [Option.filter_eq_some_iff, decide_eq_true_eq]

namespace PeerFrameReader

theorem store_held (fits : Fits maxFrameBytes pending) (room : bytes.length ≤ announced pending - pending.length) :
    (held pending peer).store maxFrameBytes bytes =
      if 4 ≤ (pending ++ bytes).length ∧ maxFrameBytes < beValue ((pending ++ bytes).take 4) then
        .error (.frameTooLarge maxFrameBytes (beValue ((pending ++ bytes).take 4)))
      else .ok (held (pending ++ bytes) peer) := by
  by_cases early : pending.length < 4
  · rw [announced, if_pos early] at room
    have limited : (pending ++ bytes).length ≤ 4 := by
      rw [List.length_append]
      omega
    rw [held_of_lt early, List.take_of_length_le limited, store]
    dsimp only
    by_cases complete : (pending ++ bytes).length = 4
    · rw [if_pos complete]
      by_cases large : maxFrameBytes < beValue (pending ++ bytes)
      · rw [if_pos large, if_pos ⟨complete.ge, large⟩]
      · rw [if_neg large, if_neg fun both => large both.2, held_of_le complete.ge, List.take_of_length_le limited,
          List.drop_of_length_le limited]
    · have more : (pending ++ bytes).length < 4 := by omega
      rw [if_neg complete, if_neg fun both => absurd both.1 (Nat.not_le.mpr more), held_of_lt more]
  · have known : 4 ≤ pending.length := Nat.le_of_not_lt early
    have later : 4 ≤ (pending ++ bytes).length := by
      rw [List.length_append]
      omega
    rw [held_of_le known, held_of_le later, List.take_append_of_le_length known, List.drop_append_of_le_length known,
      if_neg fun both => absurd (fits.bounded known) (Nat.not_le.mpr both.2), store]

theorem absorb_held (fits : Fits maxFrameBytes pending) (room : bytes.length ≤ announced pending - pending.length)
    (known : credentialsMatch expected peer credentials = true)
    (low : ∀ c, cap = some c → pending.length + bytes.length ≤ c.toNat) :
    (held pending peer).absorb maxFrameBytes expected cap bytes credentials =
      if 4 ≤ (pending ++ bytes).length ∧ maxFrameBytes < beValue ((pending ++ bytes).take 4) then
        .error (.frameTooLarge maxFrameBytes (beValue ((pending ++ bytes).take 4)))
      else .ok (held (pending ++ bytes) (some expected)) := by
  obtain ⟨rfl, -⟩ := credentialsMatch_iff.mp known
  have stored : (held pending (some expected)).bufferedLen = pending.length := held_bufferedLen fits.short
  have under : (cap.filter fun cap => cap.toNat < pending.length + bytes.length) = none := by
    rw [Option.filter_eq_none_iff]
    rintro c rfl
    rw [decide_eq_true_eq]
    exact Nat.not_lt.mpr (low c rfl)
  have present : credentialsMatch expected (held pending peer).peer (some expected) = true := known
  rw [absorb, present, if_neg (by decide)]
  show (match cap.filter fun cap => cap.toNat < (held pending (some expected)).bufferedLen + bytes.length with
    | some cap => Except.error (FrameError.budgetExceeded cap.toNat)
    | none => (held pending (some expected)).store maxFrameBytes bytes) = _
  rw [stored, under]
  exact store_held fits room

theorem absorb_cases (fits : Fits maxFrameBytes pending) (room : bytes.length ≤ announced pending - pending.length) :
    (held pending peer).absorb maxFrameBytes expected cap bytes credentials = .error .unauthenticated ∧
        credentialsMatch expected peer credentials = false ∨
      (∃ c, cap = some c ∧ c.toNat < pending.length + bytes.length ∧
        (held pending peer).absorb maxFrameBytes expected cap bytes credentials = .error (.budgetExceeded c.toNat)) ∨
      ((4 ≤ (pending ++ bytes).length ∧ maxFrameBytes < beValue ((pending ++ bytes).take 4)) ∧
        (held pending peer).absorb maxFrameBytes expected cap bytes credentials =
          .error (.frameTooLarge maxFrameBytes (beValue ((pending ++ bytes).take 4)))) ∨
      (credentialsMatch expected peer credentials = true ∧ Fits maxFrameBytes (pending ++ bytes) ∧
        (∀ c, cap = some c → pending.length + bytes.length ≤ c.toNat) ∧
        (held pending peer).absorb maxFrameBytes expected cap bytes credentials =
          .ok (held (pending ++ bytes) (some expected))) := by
  cases known : credentialsMatch expected peer credentials with
  | false => exact .inl ⟨if_pos known, rfl⟩
  | true =>
    by_cases low : ∀ c, cap = some c → pending.length + bytes.length ≤ c.toNat
    · have absorbed := absorb_held fits room known low
      by_cases large : 4 ≤ (pending ++ bytes).length ∧ maxFrameBytes < beValue ((pending ++ bytes).take 4)
      · exact .inr (.inr (.inl ⟨large, absorbed.trans (if_pos large)⟩))
      · refine .inr (.inr (.inr ⟨rfl, ⟨?_, fun long => ?_⟩, low, absorbed.trans (if_neg large)⟩))
        · have whole := announced_le_append pending bytes
          have before := fits.short
          rw [List.length_append]
          omega
        · by_contra beyond
          exact large ⟨long, Nat.lt_of_not_le beyond⟩
    · push Not at low
      obtain ⟨c, rfl, high⟩ := low
      refine .inr (.inl ⟨c, rfl, high, ?_⟩)
      have stored : (held pending (credentials <|> peer)).bufferedLen = pending.length := held_bufferedLen fits.short
      have present : credentialsMatch expected (held pending peer).peer credentials = true := known
      rw [absorb, present, if_neg (by decide)]
      show (match (some c).filter fun cap => cap.toNat < (held pending (credentials <|> peer)).bufferedLen + bytes.length with
        | some cap => Except.error (FrameError.budgetExceeded cap.toNat)
        | none => (held pending (credentials <|> peer)).store maxFrameBytes bytes) = _
      rw [stored, filter_cap_eq_some.mpr ⟨rfl, high⟩]

end PeerFrameReader

/-! What one call does. -/

def encode (payload : List UInt8) : List UInt8 := frameBe 4 payload

open PeerFrameReader

/-- A reader between two calls: these reads are of the frame that is being assembled. -/
structure Assembling (maxFrameBytes : Nat) (r : PeerFrameReader) (segment : List Receipt) : Prop where
  state : r = held (received segment) r.peer
  fits : Fits maxFrameBytes (received segment)
  attributed : ∀ receipt ∈ segment, receipt.bytes ≠ [] → r.peer ≠ none ∧ receipt.credentials = r.peer

def Within (bound : Nat) (log : List Receipt) : Prop :=
  Each (fun before receipt => (received before).length + receipt.want ≤ bound) log

/-- How a call may end; `pending` was held before and `stream` was not read yet, `segment` are the reads of the frame. -/
inductive Ending (maxFrameBytes : Nat) (expected : FramePeer) (cap : Option UInt64) (peer : Option FramePeer)
    (arrivals : List Arrival) (ahead : List UInt8) (segment : List Receipt) : Answer → PeerFrameReader → Prop
  | frame {payload : List UInt8} (whole : received segment = encode payload) (bounded : payload.length ≤ maxFrameBytes)
      (small : payload.length < 2 ^ 32)
      (attributed : ∀ receipt ∈ segment, receipt.bytes ≠ [] → receipt.credentials = some expected) :
      Ending maxFrameBytes expected cap peer arrivals ahead segment (.ok (some payload)) new
  | waiting {r : PeerFrameReader} (assembling : Assembling maxFrameBytes r segment) (unfinished : r.want ≠ 0)
      (low : ∀ c, cap = some c → (received segment).length < c.toNat) (same : r.peer = peer ∨ r.peer = some expected) :
      Ending maxFrameBytes expected cap peer arrivals ahead segment (.ok none) r
  | lost {r : PeerFrameReader} {e : FrameError} (cause : e = .closed ∧ .closed ∈ arrivals ∨ e = .io ∧ .failed ∈ arrivals)
      (assembling : Assembling maxFrameBytes r segment) (unfinished : r.want ≠ 0)
      (low : ∀ c, cap = some c → (received segment).length < c.toNat) (same : r.peer = peer ∨ r.peer = some expected) :
      Ending maxFrameBytes expected cap peer arrivals ahead segment (.error e) r
  | foreign (cause : (∃ count credentials, .data count credentials ∈ arrivals ∧ credentials ≠ some expected) ∨
        ∃ p, peer = some p ∧ p ≠ expected) :
      Ending maxFrameBytes expected cap peer arrivals ahead segment (.error .unauthenticated) new
  | large (known : 4 ≤ ahead.length) (beyond : maxFrameBytes < beValue (ahead.take 4)) :
      Ending maxFrameBytes expected cap peer arrivals ahead segment
        (.error (.frameTooLarge maxFrameBytes (beValue (ahead.take 4)))) new
  | budget {c : UInt64} (capped : cap = some c) (beyond : c.toNat < announced ahead) :
      Ending maxFrameBytes expected cap peer arrivals ahead segment (.error (.budgetExceeded c.toNat)) new

theorem Assembling.blocked {r : PeerFrameReader} {segment : List Receipt} (assembling : Assembling maxFrameBytes r segment)
    (want : Nat) : Assembling maxFrameBytes r (segment ++ [⟨want, [], none⟩]) := by
  have same : received (segment ++ [⟨want, [], none⟩]) = received segment := by
    rw [received_append, received_singleton, List.append_nil]
  refine ⟨by rw [same]; exact assembling.state, by rw [same]; exact assembling.fits, fun receipt member bytes => ?_⟩
  rcases List.mem_append.mp member with member | member
  · exact assembling.attributed receipt member bytes
  · rw [List.mem_singleton.mp member] at bytes
    exact absurd rfl bytes

theorem encode_of_complete (known : 4 ≤ pending.length) (complete : announced pending ≤ pending.length)
    (short : pending.length ≤ announced pending) : pending = encode (pending.drop 4) := by
  have size : (pending.drop 4).length = beValue (pending.take 4) := by
    rw [announced, if_neg (Nat.not_lt.mpr known)] at complete short
    rw [List.length_drop]
    omega
  have four : (pending.take 4).length = 4 := List.length_take_of_le known
  have header : beBytes 4 (pending.drop 4).length = pending.take 4 := by
    rw [size]
    have back := beBytes_beValue (pending.take 4)
    rwa [four] at back
  rw [encode, frameBe, header, List.take_append_drop]

variable {r : PeerFrameReader} {earlier segment : List Receipt} {stream : List UInt8}

theorem Assembling.want_eq (assembling : Assembling maxFrameBytes r segment) :
    r.want = announced (received segment) - (received segment).length := by
  rw [assembling.state]
  exact held_want _ _

theorem Assembling.bufferedLen_eq (assembling : Assembling maxFrameBytes r segment) :
    r.bufferedLen = (received segment).length := by
  rw [assembling.state]
  exact held_bufferedLen assembling.fits.short

theorem Assembling.complete (assembling : Assembling maxFrameBytes r segment) (done : r.want = 0) :
    received segment = encode r.body ∧ r.body.length ≤ maxFrameBytes ∧ r.body.length < 2 ^ 32 := by
  have full : announced (received segment) ≤ (received segment).length := by
    have want := assembling.want_eq
    omega
  have known : 4 ≤ (received segment).length := le_trans (Nat.le_add_right 4 _) full
  have body : r.body = (received segment).drop 4 := by rw [assembling.state, held]
  have bounded := assembling.fits.bounded known
  have short := assembling.fits.short
  have small := beValue_lt ((received segment).take 4)
  rw [List.length_take_of_le known] at small
  rw [body]
  refine ⟨encode_of_complete known full short, ?_⟩
  rw [announced, if_neg (Nat.not_lt.mpr known)] at short
  rw [List.length_drop]
  omega

theorem Assembling.allowance_cases (assembling : Assembling maxFrameBytes r segment) (unfinished : r.want ≠ 0)
    (representable : cap = some (.ofNat (2 ^ 64 - 1)) → received segment ≠ []) :
    (∃ c, cap = some c ∧ c.toNat ≤ (received segment).length ∧
        r.allowance cap = some (.error (.budgetExceeded c.toNat))) ∨
      ∃ n, 0 < n ∧ n ≤ r.want ∧ (∀ c, cap = some c → (received segment).length < c.toNat) ∧
        r.allowance cap = some (.ok n) := by
  cases cap with
  | none => exact .inr ⟨r.want, Nat.pos_of_ne_zero unfinished, Nat.le_refl _, nofun, rfl⟩
  | some c =>
    rw [allowance, assembling.bufferedLen_eq]
    by_cases reached : c.toNat ≤ (received segment).length
    · exact .inl ⟨c, rfl, reached, if_pos reached⟩
    · have small := c.toNat_lt
      have fits : c.toNat - (received segment).length + 1 < 2 ^ 64 := by
        by_contra beyond
        have empty : (received segment).length = 0 := by omega
        have largest : c = .ofNat (2 ^ 64 - 1) := by
          refine UInt64.toNat_inj.mp ?_
          rw [UInt64.toNat_ofNat']
          omega
        exact representable (congrArg some largest) (List.length_eq_zero_iff.mp empty)
      refine .inr ⟨min r.want (c.toNat - (received segment).length + 1), by omega, Nat.min_le_left _ _, ?_, ?_⟩
      · rintro _ ⟨⟩
        exact Nat.lt_of_not_le reached
      · rw [if_neg reached, if_pos fits]

variable {want : Nat}

theorem readSome_cases (positive : 0 < want) (arrival : Arrival) :
    (∃ e, readSome want stream arrival = .error e ∧ (e = .closed ∧ arrival = .closed ∨ e = .io ∧ arrival = .failed)) ∨
      readSome want stream arrival = .ok none ∨
      ∃ count credentials bytes, arrival = .data count credentials ∧
        readSome want stream arrival = .ok (some (bytes, credentials)) ∧ bytes ≠ [] ∧ bytes.length ≤ want ∧
        stream = bytes ++ stream.drop bytes.length := by
  cases arrival with
  | wouldBlock => exact .inr (.inl rfl)
  | closed => exact .inl ⟨_, rfl, .inl ⟨rfl, rfl⟩⟩
  | failed => exact .inl ⟨_, rfl, .inr ⟨rfl, rfl⟩⟩
  | data count credentials =>
    by_cases empty : stream = []
    · exact .inr (.inl (if_pos empty))
    · have some_byte : 0 < min (min (max 1 count) want) stream.length := by
        have long := List.length_pos_iff.mpr empty
        omega
      refine .inr (.inr ⟨count, credentials, _, rfl, if_neg empty, ?_, ?_, ?_⟩)
      · rw [← List.length_pos_iff, List.length_take]
        exact some_byte
      · rw [List.length_take]
        omega
      · exact (List.prefix_iff_eq_append.mp (List.take_prefix _ _)).symm

theorem within_concat {bound : Nat} {log : List Receipt} {receipt : Receipt} :
    Within bound (log ++ [receipt]) ↔ Within bound log ∧ (received log).length + receipt.want ≤ bound := each_concat

theorem Assembling.within (assembling : Assembling maxFrameBytes r segment) (limited : want ≤ r.want)
    (unfinished : r.want ≠ 0) (log : Within ((received earlier).length + announced (received segment ++ stream)) (earlier ++ segment))
    (bytes : List UInt8) (credentials : Option FramePeer) :
    Within ((received earlier).length + announced (received segment ++ stream)) (earlier ++ segment ++ [⟨want, bytes, credentials⟩]) := by
  refine within_concat.mpr ⟨log, ?_⟩
  have size := assembling.want_eq
  have whole := announced_le_append (received segment) stream
  rw [received_append, List.length_append]
  show (received earlier).length + (received segment).length + want ≤ _
  omega

structure Answered (maxFrameBytes : Nat) (expected : FramePeer) (cap : Option UInt64) (earlier segment : List Receipt)
    (stream : List UInt8) (arrivals : List Arrival) (peer : Option FramePeer) (answer : Answer) (more : List Receipt)
    (r : PeerFrameReader) (socket : Socket) : Prop where
  log : socket.log = earlier ++ (segment ++ more)
  read : stream = received more ++ socket.stream
  later : ∀ arrival ∈ socket.arrivals, arrival ∈ arrivals
  within : Within ((received earlier).length + announced (received segment ++ stream)) (earlier ++ segment) →
    Within ((received earlier).length + announced (received segment ++ stream)) socket.log
  ending : Ending maxFrameBytes expected cap peer arrivals (received segment ++ stream) (segment ++ more) answer r

section

variable {arrivals rest : List Arrival} {arrival : Arrival} {log : List Receipt} {want : Nat}

theorem readLoop_done (done : r.want = 0) : readLoop maxFrameBytes expected cap arrivals stream log r =
    (some (.ok (some r.body)), new, ⟨stream, arrivals, log⟩) := by
  unfold readLoop
  rw [if_pos done]

theorem readLoop_reached (unfinished : r.want ≠ 0) {e : FrameError} (reached : r.allowance cap = some (.error e)) :
    readLoop maxFrameBytes expected cap arrivals stream log r = (some (.error e), new, ⟨stream, arrivals, log⟩) := by
  unfold readLoop
  rw [if_neg unfinished, reached]

theorem readLoop_nil (unfinished : r.want ≠ 0) (asked : r.allowance cap = some (.ok want)) :
    readLoop maxFrameBytes expected cap [] stream log r =
      (some (.ok none), r, ⟨stream, [], log ++ [⟨want, [], none⟩]⟩) := by
  unfold readLoop
  rw [if_neg unfinished, asked]

theorem readLoop_cons (unfinished : r.want ≠ 0) (asked : r.allowance cap = some (.ok want)) :
    readLoop maxFrameBytes expected cap (arrival :: rest) stream log r =
      match readSome want stream arrival with
      | .error e => (some (.error e), r, ⟨stream, rest, log ++ [⟨want, [], none⟩]⟩)
      | .ok none => (some (.ok none), r, ⟨stream, rest, log ++ [⟨want, [], none⟩]⟩)
      | .ok (some (bytes, credentials)) =>
        match r.absorb maxFrameBytes expected cap bytes credentials with
        | .error e => (some (.error e), new, ⟨stream.drop bytes.length, rest, log ++ [⟨want, bytes, credentials⟩]⟩)
        | .ok r => readLoop maxFrameBytes expected cap rest (stream.drop bytes.length)
            (log ++ [⟨want, bytes, credentials⟩]) r := by
  conv_lhs => unfold readLoop
  rw [if_neg unfinished, asked]

end

variable {arrivals : List Arrival} {answer : Answer}

theorem Answered.blocked {later : List Arrival}
    (assembling : Assembling maxFrameBytes r segment) (unfinished : r.want ≠ 0) (limited : want ≤ r.want)
    (fewer : ∀ arrival ∈ later, arrival ∈ arrivals)
    (ending : Ending maxFrameBytes expected cap r.peer arrivals (received segment ++ stream)
      (segment ++ [⟨want, [], none⟩]) answer r) :
    Answered maxFrameBytes expected cap earlier segment stream arrivals r.peer answer [⟨want, [], none⟩] r
      ⟨stream, later, earlier ++ segment ++ [⟨want, [], none⟩]⟩ where
  log := List.append_assoc _ _ _
  read := rfl
  later := fewer
  within log := assembling.within limited unfinished log _ _
  ending := ending

variable {ahead : List UInt8} {r' : PeerFrameReader}

theorem Ending.later {more : List Arrival}
    (ending : Ending maxFrameBytes expected cap (some expected) arrivals ahead segment answer r')
    (more_arrivals : ∀ arrival ∈ arrivals, arrival ∈ more) : Ending maxFrameBytes expected cap peer more ahead segment answer r' := by
  cases ending with
  | frame whole bounded small attributed => exact .frame whole bounded small attributed
  | waiting assembling unfinished low same => exact .waiting assembling unfinished low (.inr (same.elim id id))
  | lost cause assembling unfinished low same =>
    refine .lost ?_ assembling unfinished low (.inr (same.elim id id))
    rcases cause with ⟨rfl, member⟩ | ⟨rfl, member⟩
    · exact .inl ⟨rfl, more_arrivals _ member⟩
    · exact .inr ⟨rfl, more_arrivals _ member⟩
  | foreign cause =>
    rcases cause with ⟨count, credentials, member, other⟩ | ⟨p, same, other⟩
    · exact .foreign (.inl ⟨count, credentials, more_arrivals _ member, other⟩)
    · exact absurd (Option.some.inj same).symm other
  | large known beyond => exact .large known beyond
  | budget capped beyond => exact .budget capped beyond

theorem Assembling.concat (assembling : Assembling maxFrameBytes r segment) (want : Nat)
    (known : credentialsMatch expected r.peer credentials = true) (fits : Fits maxFrameBytes (received segment ++ bytes)) :
    Assembling maxFrameBytes (held (received segment ++ bytes) (some expected)) (segment ++ [⟨want, bytes, credentials⟩]) := by
  have all : received (segment ++ [⟨want, bytes, credentials⟩]) = received segment ++ bytes := by
    rw [received_append, received_singleton]
  obtain ⟨rfl, previous⟩ := credentialsMatch_iff.mp known
  refine ⟨by rw [all]; rfl, by rw [all]; exact fits, fun receipt member nonempty => ⟨Option.some_ne_none _, ?_⟩⟩
  rcases List.mem_append.mp member with member | member
  · obtain ⟨present, same⟩ := assembling.attributed receipt member nonempty
    exact same.trans (previous.resolve_left present)
  · rw [List.mem_singleton.mp member]
    rfl

theorem Assembling.refused (assembling : Assembling maxFrameBytes r segment) {count : Nat}
    (here : .data count credentials ∈ arrivals) (room : bytes.length ≤ r.want) (split : stream = bytes ++ stream.drop bytes.length)
    {e : FrameError} (refused : r.absorb maxFrameBytes expected cap bytes credentials = .error e) (want : Nat) :
    Ending maxFrameBytes expected cap r.peer arrivals (received segment ++ stream) (segment ++ [⟨want, bytes, credentials⟩])
      (.error e) new := by
  have room' : bytes.length ≤ announced (received segment) - (received segment).length := by rwa [← assembling.want_eq]
  have ahead : received segment ++ stream = received segment ++ bytes ++ stream.drop bytes.length := by
    rw [List.append_assoc, ← split]
  have same : (held (received segment) r.peer).absorb maxFrameBytes expected cap bytes credentials = .error e := by
    rwa [← assembling.state]
  rcases absorb_cases assembling.fits room' with ⟨other, foreign⟩ | ⟨c, capped, beyond, other⟩ | ⟨⟨known, beyond⟩, other⟩ |
    ⟨-, -, -, other⟩
  · cases same.symm.trans other
    refine .foreign ?_
    by_cases mine : credentials = some expected
    · have unlike : ¬(r.peer = none ∨ r.peer = some expected) := fun previous =>
        absurd (credentialsMatch_iff.mpr ⟨mine, previous⟩) (by rw [foreign]; exact Bool.false_ne_true)
      rw [not_or] at unlike
      obtain ⟨p, found⟩ := Option.ne_none_iff_exists'.mp unlike.1
      exact .inr ⟨p, found, fun equal => unlike.2 (by rw [found, equal])⟩
    · exact .inl ⟨count, credentials, here, mine⟩
  · cases same.symm.trans other
    refine .budget capped ?_
    have whole := announced_le_append (received segment) stream
    have short := assembling.fits.short
    omega
  · cases same.symm.trans other
    have front : (received segment ++ stream).take 4 = (received segment ++ bytes).take 4 := by
      rw [ahead, List.take_append_of_le_length known]
    rw [← front] at beyond ⊢
    refine .large ?_ beyond
    rw [ahead, List.length_append]
    omega
  · cases same.symm.trans other

theorem Assembling.accepted (assembling : Assembling maxFrameBytes r segment) (room : bytes.length ≤ r.want)
    (absorbed : r.absorb maxFrameBytes expected cap bytes credentials = .ok r') :
    credentialsMatch expected r.peer credentials = true ∧ Fits maxFrameBytes (received segment ++ bytes) ∧
      r' = held (received segment ++ bytes) (some expected) := by
  have room' : bytes.length ≤ announced (received segment) - (received segment).length := by rwa [← assembling.want_eq]
  have same : (held (received segment) r.peer).absorb maxFrameBytes expected cap bytes credentials = .ok r' := by
    rwa [← assembling.state]
  rcases absorb_cases assembling.fits room' with ⟨other, -⟩ | ⟨c, -, -, other⟩ | ⟨-, other⟩ | ⟨known, fits, -, other⟩
  · cases same.symm.trans other
  · cases same.symm.trans other
  · cases same.symm.trans other
  · exact ⟨known, fits, Except.ok.inj (same.symm.trans other)⟩

theorem readLoop_stops (arrivals : List Arrival) (assembling : Assembling maxFrameBytes r segment)
    (ready : r.want = 0 → r.peer = some expected)
    (representable : cap = some (.ofNat (2 ^ 64 - 1)) → received segment ≠ []) :
    (∃ answer more r' socket, readLoop maxFrameBytes expected cap arrivals stream (earlier ++ segment) r =
        (some answer, r', socket) ∧
      Answered maxFrameBytes expected cap earlier segment stream arrivals r.peer answer more r' socket) ∨
      r.want ≠ 0 ∧ ∃ want, 0 < want ∧ want ≤ r.want ∧ (∀ c, cap = some c → (received segment).length < c.toNat) ∧
        r.allowance cap = some (.ok want) := by
  have untouched {answer : Answer} {r' : PeerFrameReader}
      (ending : Ending maxFrameBytes expected cap r.peer arrivals (received segment ++ stream) (segment ++ []) answer r') :
      Answered maxFrameBytes expected cap earlier segment stream arrivals r.peer answer [] r'
        ⟨stream, arrivals, earlier ++ segment⟩ :=
    ⟨by rw [List.append_nil], rfl, fun _ member => member, fun log => log, ending⟩
  by_cases done : r.want = 0
  · obtain ⟨whole, bounded, small⟩ := assembling.complete done
    have ending : Ending maxFrameBytes expected cap r.peer arrivals (received segment ++ stream) (segment ++ [])
        (.ok (some r.body)) new := by
      rw [List.append_nil]
      refine .frame whole bounded small fun receipt member bytes => ?_
      rw [(assembling.attributed receipt member bytes).2, ready done]
    exact .inl ⟨_, _, _, _, readLoop_done done, untouched ending⟩
  · rcases assembling.allowance_cases done representable with ⟨c, capped, low, reached⟩ | asked
    · refine .inl ⟨_, _, _, _, readLoop_reached done reached, untouched (.budget capped ?_)⟩
      have size := assembling.want_eq
      have whole := announced_le_append (received segment) stream
      omega
    · exact .inr ⟨done, asked⟩

theorem readLoop_spec (arrivals : List Arrival) (assembling : Assembling maxFrameBytes r segment)
    (ready : r.want = 0 → r.peer = some expected)
    (representable : cap = some (.ofNat (2 ^ 64 - 1)) → received segment ≠ []) :
    ∃ answer more r' socket, readLoop maxFrameBytes expected cap arrivals stream (earlier ++ segment) r =
        (some answer, r', socket) ∧
      Answered maxFrameBytes expected cap earlier segment stream arrivals r.peer answer more r' socket := by
  induction arrivals generalizing r segment stream with
  | nil =>
    rcases readLoop_stops [] assembling ready representable with stopped | ⟨unfinished, want, positive, limited, high, asked⟩
    · exact stopped
    · refine ⟨_, [⟨want, [], none⟩], _, _, readLoop_nil unfinished asked, ?_⟩
      refine .blocked assembling unfinished limited (List.forall_mem_nil _) ?_
      refine .waiting (assembling.blocked want) unfinished ?_ (.inl rfl)
      rw [received_append, received_singleton, List.append_nil]
      exact high
  | cons arrival rest ih =>
    rcases readLoop_stops (arrival :: rest) assembling ready representable with
      stopped | ⟨unfinished, want, positive, limited, high, asked⟩
    · exact stopped
    · rw [readLoop_cons unfinished asked]
      have fewer : ∀ a ∈ rest, a ∈ arrival :: rest := fun a member => List.mem_cons_of_mem _ member
      have still : ∀ c, cap = some c → (received (segment ++ [⟨want, [], none⟩])).length < c.toNat := by
        rw [received_append, received_singleton, List.append_nil]
        exact high
      rcases readSome_cases positive arrival with ⟨e, failed, cause⟩ | blocked |
        ⟨count, credentials, bytes, rfl, read, nonempty, few, split⟩
      · rw [failed]
        have cause' : e = .closed ∧ Arrival.closed ∈ arrival :: rest ∨ e = .io ∧ Arrival.failed ∈ arrival :: rest := by
          rcases cause with ⟨rfl, rfl⟩ | ⟨rfl, rfl⟩
          · exact .inl ⟨rfl, List.mem_cons_self⟩
          · exact .inr ⟨rfl, List.mem_cons_self⟩
        exact ⟨_, _, _, _, rfl, .blocked assembling unfinished limited fewer
          (.lost cause' (assembling.blocked want) unfinished still (.inl rfl))⟩
      · rw [blocked]
        exact ⟨_, _, _, _, rfl, .blocked assembling unfinished limited fewer
          (.waiting (assembling.blocked want) unfinished still (.inl rfl))⟩
      · rw [read]
        dsimp only
        have here : Arrival.data count credentials ∈ Arrival.data count credentials :: rest := List.mem_cons_self
        have room : bytes.length ≤ r.want := few.trans limited
        have asked' (log : Within ((received earlier).length + announced (received segment ++ stream)) (earlier ++ segment)) :=
          assembling.within limited unfinished log bytes credentials
        cases absorbed : r.absorb maxFrameBytes expected cap bytes credentials with
        | error e =>
          refine ⟨_, [⟨want, bytes, credentials⟩], _, _, rfl, List.append_assoc _ _ _, ?_, fewer, asked', ?_⟩
          · rw [received_singleton]
            exact split
          · exact assembling.refused here room split absorbed want
        | ok r' =>
          obtain ⟨known, fits, rfl⟩ := assembling.accepted room absorbed
          have next := assembling.concat want known fits
          have all : received (segment ++ [⟨want, bytes, credentials⟩]) = received segment ++ bytes := by
            rw [received_append, received_singleton]
          have filled : received (segment ++ [⟨want, bytes, credentials⟩]) ≠ [] := by
            rw [all]
            exact List.append_ne_nil_of_right_ne_nil _ nonempty
          obtain ⟨answer, more, r'', socket, run, answered⟩ := @ih _ _ (stream.drop bytes.length) next (fun _ => rfl) fun _ => filled
          have ahead : received (segment ++ [⟨want, bytes, credentials⟩]) ++ stream.drop bytes.length =
              received segment ++ stream := by
            rw [all, List.append_assoc, ← split]
          have later := answered.ending
          have within := answered.within
          rw [ahead] at later within
          refine ⟨answer, ⟨want, bytes, credentials⟩ :: more, r'', socket, ?_, ?_, ?_, ?_, ?_, ?_⟩
          · rw [List.append_assoc]
            exact run
          · rw [answered.log, List.append_assoc, List.singleton_append]
          · show stream = bytes ++ received more ++ socket.stream
            rw [List.append_assoc, ← answered.read]
            exact split
          · exact fun a member => fewer a (answered.later a member)
          · intro log
            refine within ?_
            rw [← List.append_assoc]
            exact asked' log
          · rw [List.append_assoc, List.singleton_append] at later
            exact later.later fewer

/-! Calls one after another. -/

/-- One call of `read_capped`. -/
structure Call where
  expected : FramePeer
  cap : Option UInt64

abbrev Connection := PeerFrameReader × Socket

def respond (maxFrameBytes : Nat) (state : Connection) (call : Call) : Connection × List (Option Answer) :=
  let outcome := readCapped maxFrameBytes call.expected call.cap state.1 state.2
  (outcome.2, [outcome.1])

def session (maxFrameBytes : Nat) (stream : List UInt8) (arrivals : List Arrival) (calls : List Call) :
    Connection × List (Option Answer) :=
  Transducer.run (respond maxFrameBytes) (new, ⟨stream, arrivals, []⟩) calls

def payloads (answers : List (Option Answer)) : List (List UInt8) :=
  answers.filterMap fun answer => match answer with
    | some (.ok payload) => payload
    | _ => none

@[simp] theorem payloads_append (a b : List (Option Answer)) : payloads (a ++ b) = payloads a ++ payloads b :=
  List.filterMap_append

def Representable (maxFrameBytes : Nat) (stream : List UInt8) (arrivals : List Arrival) (before : List Call) (call : Call) :
    Prop :=
  call.cap = some (.ofNat (2 ^ 64 - 1)) → (session maxFrameBytes stream arrivals before).1.1.bufferedLen ≠ 0

theorem session_concat (maxFrameBytes : Nat) (stream : List UInt8) (arrivals : List Arrival) (before : List Call) (call : Call) :
    session maxFrameBytes stream arrivals (before ++ [call]) =
      ((respond maxFrameBytes (session maxFrameBytes stream arrivals before).1 call).1,
        (session maxFrameBytes stream arrivals before).2 ++
          (respond maxFrameBytes (session maxFrameBytes stream arrivals before).1 call).2) := by
  rw [session, Transducer.run_append, Transducer.run_singleton]
  rfl

theorem Assembling.start (maxFrameBytes : Nat) : Assembling maxFrameBytes new [] :=
  ⟨rfl, .nil maxFrameBytes, List.forall_mem_nil _⟩

theorem want_new : new.want ≠ 0 := by decide

/-- What holds between two calls. -/
def Resting (maxFrameBytes : Nat) (state : Connection) : Prop :=
  ∃ earlier segment, state.2.log = earlier ++ segment ∧ Assembling maxFrameBytes state.1 segment ∧ state.1.want ≠ 0

theorem Ending.resting
    (ending : Ending maxFrameBytes expected cap peer arrivals ahead segment answer r) {socket : Socket}
    (log : socket.log = earlier ++ segment) : Resting maxFrameBytes (r, socket) := by
  have fresh : Resting maxFrameBytes (new, socket) := ⟨socket.log, [], (List.append_nil _).symm, .start _, want_new⟩
  cases ending with
  | waiting assembling unfinished => exact ⟨earlier, segment, log, assembling, unfinished⟩
  | lost _ assembling unfinished => exact ⟨earlier, segment, log, assembling, unfinished⟩
  | frame => exact fresh
  | foreign => exact fresh
  | large => exact fresh
  | budget => exact fresh

theorem readCapped_spec (expected : FramePeer) {socket : Socket} (log : socket.log = earlier ++ segment) (assembling : Assembling maxFrameBytes r segment)
    (unfinished : r.want ≠ 0) (representable : cap = some (.ofNat (2 ^ 64 - 1)) → r.bufferedLen ≠ 0) :
    ∃ answer more r' socket', readCapped maxFrameBytes expected cap r socket = (some answer, r', socket') ∧
      Answered maxFrameBytes expected cap earlier segment socket.stream socket.arrivals r.peer answer more r' socket' := by
  rw [readCapped, log]
  refine readLoop_spec socket.arrivals assembling (fun done => absurd done unfinished) fun largest empty => ?_
  refine representable largest ?_
  rw [assembling.bufferedLen_eq, empty]
  rfl

variable {calls : List Call}

theorem session_resting {stream : List UInt8}
    (representable : Each (Representable maxFrameBytes stream arrivals) calls) :
    Resting maxFrameBytes (session maxFrameBytes stream arrivals calls).1 := by
  induction calls using List.reverseRecOn with
  | nil => exact ⟨[], [], rfl, .start _, want_new⟩
  | append_singleton before call ih =>
    obtain ⟨earlier', here⟩ := each_concat.mp representable
    obtain ⟨earlier, segment, log, assembling, unfinished⟩ := ih earlier'
    obtain ⟨answer, more, r', socket', done, answered⟩ := readCapped_spec call.expected log assembling unfinished here
    rw [session_concat, respond]
    show Resting maxFrameBytes (readCapped _ _ _ _ _).2
    rw [done]
    exact answered.ending.resting answered.log

/-- The frames are sent whole by the expected peer, and at each call the cap leaves room for the frame that is being
assembled. -/
structure Sent (maxFrameBytes : Nat) (peer : FramePeer) (frames : List (List UInt8)) (stream : List UInt8)
    (arrivals : List Arrival) (calls : List Call) : Prop where
  bounded : ∀ frame ∈ frames, frame.length ≤ maxFrameBytes ∧ frame.length < 2 ^ 32
  sent : stream = frames.flatMap encode
  own : ∀ arrival ∈ arrivals, arrival = .wouldBlock ∨ ∃ count, arrival = .data count (some peer)
  expected : ∀ call ∈ calls, call.expected = peer
  room : Each (fun before call => ∀ c frame, call.cap = some c →
    frames[(payloads (session maxFrameBytes stream arrivals before).2).length]? = some frame →
      (encode frame).length ≤ c.toNat) calls

/-- The answers so far are the first frames; what is held and what is not read yet make up the others. -/
structure Delivering (maxFrameBytes : Nat) (peer : FramePeer) (frames : List (List UInt8)) (state : Connection)
    (answers : List (Option Answer)) (rest : List (List UInt8)) (earlier segment : List Receipt) : Prop where
  frames : frames = payloads answers ++ rest
  log : state.2.log = earlier ++ segment
  assembling : Assembling maxFrameBytes state.1 segment
  unfinished : state.1.want ≠ 0
  own : state.1.peer = none ∨ state.1.peer = some peer
  delivered : received earlier = (payloads answers).flatMap encode
  ahead : received segment ++ state.2.stream = rest.flatMap encode
  arrivals : ∀ arrival ∈ state.2.arrivals, arrival = .wouldBlock ∨ ∃ count, arrival = .data count (some peer)
  within : Within ((received earlier).length + announced (rest.flatMap encode)) state.2.log

variable {owner : FramePeer} {frames rest : List (List UInt8)} {answers : List (Option Answer)} {state : Connection}

theorem length_encode (payload : List UInt8) : (encode payload).length = 4 + payload.length := by
  rw [encode, frameBe, List.length_append, length_beBytes]

theorem take_encode (payload tail : List UInt8) : (encode payload ++ tail).take 4 = beBytes 4 payload.length := by
  rw [encode, frameBe, List.append_assoc, List.take_append_of_le_length (length_beBytes 4 _).ge,
    List.take_of_length_le (length_beBytes 4 _).le]

theorem announced_encode {payload : List UInt8} (small : payload.length < 2 ^ 32) (tail : List UInt8) :
    announced (encode payload ++ tail) = (encode payload).length := by
  have long : ¬(encode payload ++ tail).length < 4 := by
    rw [List.length_append, length_encode]
    omega
  rw [announced, if_neg long, take_encode, beValue_beBytes small, length_encode]

theorem Within.mono {a b : Nat} {log : List Receipt} (within : Within a log) (le : a ≤ b) : Within b log :=
  fun before receipt inside => (within before receipt inside).trans le

/-- A call when frames are sent. -/
theorem Delivering.call (delivering : Delivering maxFrameBytes owner frames state answers rest earlier segment)
    (bounded : ∀ frame ∈ frames, frame.length ≤ maxFrameBytes ∧ frame.length < 2 ^ 32)
    (room : ∀ c frame, cap = some c → frames[(payloads answers).length]? = some frame → (encode frame).length ≤ c.toNat)
    {more : List Receipt} {socket' : Socket}
    (answered : Answered maxFrameBytes owner cap earlier segment state.2.stream state.2.arrivals state.1.peer answer more
      r' socket') :
    ∃ rest' earlier' segment', Delivering maxFrameBytes owner frames (r', socket') (answers ++ [some answer]) rest' earlier'
        segment' ∧ ∀ payload, answer = .ok (some payload) → Within (received earlier').length socket'.log := by
  have within := answered.within
  have ending := answered.ending
  rw [delivering.ahead, ← delivering.log] at within
  rw [delivering.ahead] at ending
  have within' := within delivering.within
  have kept : ∀ arrival ∈ socket'.arrivals, arrival = .wouldBlock ∨ ∃ count, arrival = .data count (some owner) :=
    fun arrival member => delivering.arrivals arrival (answered.later arrival member)
  have moved : received (segment ++ more) ++ socket'.stream = rest.flatMap encode := by
    rw [received_append, List.append_assoc, ← answered.read, delivering.ahead]
  have before : frames[(payloads answers).length]? = rest.head? := by
    rw [delivering.frames, List.getElem?_append_right (Nat.le_refl _), Nat.sub_self, List.head?_eq_getElem?]
  have waits (e : Answer) (quiet : payloads [some e] = []) (assembling : Assembling maxFrameBytes r' (segment ++ more))
      (unfinished : r'.want ≠ 0) (same : r'.peer = state.1.peer ∨ r'.peer = some owner) :
      Delivering maxFrameBytes owner frames (r', socket') (answers ++ [some e]) rest earlier (segment ++ more) := by
    refine ⟨?_, answered.log, assembling, unfinished, ?_, ?_, moved, kept, within'⟩
    · rw [payloads_append, quiet, List.append_nil]
      exact delivering.frames
    · rcases same with same | same
      · rw [same]
        exact delivering.own
      · exact .inr same
    · rw [payloads_append, quiet, List.append_nil]
      exact delivering.delivered
  cases ending with
  | waiting assembling unfinished low same =>
    exact ⟨rest, earlier, segment ++ more, waits _ rfl assembling unfinished same, nofun⟩
  | lost cause assembling unfinished low same =>
    rcases cause with ⟨-, closed⟩ | ⟨-, failed⟩
    · rcases delivering.arrivals _ closed with other | ⟨count, other⟩
      · cases other
      · cases other
    · rcases delivering.arrivals _ failed with other | ⟨count, other⟩
      · cases other
      · cases other
  | foreign cause =>
    rcases cause with ⟨count, credentials, member, other⟩ | ⟨p, same, other⟩
    · rcases delivering.arrivals _ member with blocked | ⟨count', data⟩
      · cases blocked
      · cases data
        exact absurd rfl other
    · rcases delivering.own with absent | present
      · rw [absent] at same
        cases same
      · rw [present] at same
        cases same
        exact absurd rfl other
  | @frame payload whole _ small =>
    rw [whole] at moved
    cases rest with
    | nil =>
      have empty := congrArg List.length moved
      rw [List.length_append, length_encode, List.flatMap_nil, List.length_nil] at empty
      omega
    | cons frame later =>
      have inside : frame ∈ frames := by
        rw [delivering.frames]
        exact List.mem_append_right _ List.mem_cons_self
      obtain ⟨rfl, tail⟩ := frameBe_append_inj small (bounded frame inside).2 moved
      have through : received socket'.log = received earlier ++ encode payload := by
        rw [answered.log, received_append, whole]
      rw [List.flatMap_cons, announced_encode small] at within'
      have exact : Within (received socket'.log).length socket'.log := by
        rw [through, List.length_append]
        exact within'
      refine ⟨later, socket'.log, [], ⟨?_, (List.append_nil _).symm, .start _, want_new, .inl rfl, ?_, tail, kept,
        exact.mono (Nat.le_add_right _ _)⟩, fun _ _ => exact⟩
      · rw [payloads_append, List.append_assoc]
        exact delivering.frames
      · rw [through, payloads_append, List.flatMap_append, delivering.delivered]
        exact congrArg _ (List.flatMap_singleton encode payload).symm
  | large known beyond =>
    cases rest with
    | nil => exact absurd known (by decide)
    | cons frame later =>
      have inside : frame ∈ frames := by
        rw [delivering.frames]
        exact List.mem_append_right _ List.mem_cons_self
      rw [List.flatMap_cons, take_encode, beValue_beBytes (bounded frame inside).2] at beyond
      exact absurd (bounded frame inside).1 (Nat.not_le.mpr beyond)
  | budget capped beyond =>
    cases rest with
    | nil =>
      obtain ⟨nothing, unread⟩ := List.append_eq_nil_iff.mp moved
      have through : received socket'.log = received earlier := by
        rw [answered.log, received_append, nothing, List.append_nil]
      refine ⟨[], socket'.log, [], ⟨?_, (List.append_nil _).symm, .start _, want_new, .inl rfl, ?_, unread, kept, ?_⟩, nofun⟩
      · rw [payloads_append]
        exact delivering.frames.trans (List.append_nil _).symm
      · rw [through, payloads_append, List.flatMap_append, delivering.delivered]
        exact (List.append_nil _).symm
      · rw [through]
        exact within'
    | cons frame later =>
      have inside : frame ∈ frames := by
        rw [delivering.frames]
        exact List.mem_append_right _ List.mem_cons_self
      rw [List.flatMap_cons, announced_encode (bounded frame inside).2] at beyond
      exact absurd (room _ frame capped before) (Nat.not_le.mpr beyond)

theorem Sent.delivering {stream : List UInt8} (sent : Sent maxFrameBytes owner frames stream arrivals calls)
    (representable : Each (Representable maxFrameBytes stream arrivals) calls) :
    ∃ rest earlier segment, Delivering maxFrameBytes owner frames (session maxFrameBytes stream arrivals calls).1
        (session maxFrameBytes stream arrivals calls).2 rest earlier segment ∧
      ∀ payload, (session maxFrameBytes stream arrivals calls).2.getLast? = some (some (.ok (some payload))) →
        Within (received earlier).length (session maxFrameBytes stream arrivals calls).1.2.log := by
  induction calls using List.reverseRecOn with
  | nil => exact ⟨frames, [], [], ⟨rfl, rfl, .start _, want_new, .inl rfl, rfl, sent.sent, sent.own, .nil⟩, nofun⟩
  | append_singleton before call ih =>
    have shorter : Sent maxFrameBytes owner frames stream arrivals before :=
      ⟨sent.bounded, sent.sent, sent.own, fun c member => sent.expected c (List.mem_append_left _ member),
        (each_concat.mp sent.room).1⟩
    obtain ⟨earlier', here⟩ := each_concat.mp representable
    obtain ⟨rest, earlier, segment, delivering, -⟩ := ih shorter earlier'
    have same : call.expected = owner := sent.expected call (List.mem_append_right _ List.mem_cons_self)
    obtain ⟨answer, more, r', socket', done, answered⟩ :=
      readCapped_spec owner delivering.log delivering.assembling delivering.unfinished here
    obtain ⟨rest', earlier'', segment', next, exact⟩ := delivering.call sent.bounded (each_concat.mp sent.room).2 answered
    rw [session_concat, respond, same, done]
    refine ⟨rest', earlier'', segment', next, fun payload last => ?_⟩
    rw [List.getLast?_concat] at last
    exact exact payload (Option.some.inj (Option.some.inj last))

theorem Delivering.finished (delivering : Delivering maxFrameBytes owner frames state answers rest earlier segment)
    (bounded : ∀ frame ∈ frames, frame.length ≤ maxFrameBytes ∧ frame.length < 2 ^ 32) (read : state.2.stream = []) :
    rest = [] := by
  cases rest with
  | nil => rfl
  | cons frame later =>
    have inside : frame ∈ frames := by
      rw [delivering.frames]
      exact List.mem_append_right _ List.mem_cons_self
    have whole := delivering.ahead
    rw [read, List.append_nil, List.flatMap_cons] at whole
    have want := delivering.assembling.want_eq
    rw [whole, announced_encode (bounded frame inside).2, List.length_append, Nat.sub_eq_zero_of_le (Nat.le_add_right _ _)] at want
    exact absurd want delivering.unfinished

structure Reassembles (maxFrameBytes : Nat) (stream : List UInt8) (arrivals : List Arrival) (before : List Call) (call : Call)
    (state : Connection) (outcome : Option Answer × Connection) : Prop where
  returns : outcome.1 ≠ none
  /-- Sent frames are returned in their order, all of them once all bytes were read; no byte after the frame that is returned
  was asked for. -/
  delivers : ∀ owner frames, Sent maxFrameBytes owner frames stream arrivals (before ++ [call]) →
    (∃ rest, frames = payloads (session maxFrameBytes stream arrivals (before ++ [call])).2 ++ rest ∧
      (outcome.2.2.stream = [] → rest = [])) ∧
    ∀ payload, outcome.1 = some (.ok (some payload)) →
      Within ((payloads (session maxFrameBytes stream arrivals (before ++ [call])).2).flatMap encode).length outcome.2.2.log
  /-- No more is retained than the cap. -/
  retains : ∀ c, call.cap = some c → outcome.2.1.bufferedLen ≤ c.toNat
  /-- The frame of which a part is held and the rest is ahead is larger than a budget that it exceeds. -/
  budget : ∀ n, outcome.1 = some (.error (.budgetExceeded n)) → (∃ c, call.cap = some c ∧ c.toNat = n) ∧
    n < announced (state.1.header ++ state.1.body ++ state.2.stream)
  /-- A frame is made of the last reads, which all were of the expected peer. -/
  attributed : ∀ payload, outcome.1 = some (.ok (some payload)) → ∃ earlier segment, outcome.2.2.log = earlier ++ segment ∧
    received segment = encode payload ∧
      ∀ receipt ∈ segment, receipt.bytes ≠ [] → receipt.credentials = some call.expected

theorem Ending.retains (ending : Ending maxFrameBytes expected cap peer arrivals ahead segment answer r) :
    ∀ c, cap = some c → r.bufferedLen ≤ c.toNat := by
  intro c capped
  cases ending with
  | waiting assembling _ low => exact assembling.bufferedLen_eq.trans_le (low c capped).le
  | lost _ assembling _ low => exact assembling.bufferedLen_eq.trans_le (low c capped).le
  | frame => exact Nat.zero_le _
  | foreign => exact Nat.zero_le _
  | large => exact Nat.zero_le _
  | budget => exact Nat.zero_le _

theorem representable_of_caps {stream : List UInt8} (caps : ∀ call ∈ calls, call.cap ≠ some (.ofNat (2 ^ 64 - 1))) :
    Each (Representable maxFrameBytes stream arrivals) calls :=
  fun _ call inside largest => absurd largest (caps call (inside.subset (List.mem_append_right _ List.mem_cons_self)))

def client : FramePeer := ⟨1000, 42⟩

def parts : List Arrival := [.data 3 (some client), .wouldBlock, .data 9 (some client), .data 9 (some client)]

theorem sent_parts : Sent 1048576 client [[104, 105]] (encode [104, 105]) parts ([⟨client, some 6⟩] ++ [⟨client, none⟩]) where
  bounded := by decide
  sent := rfl
  own arrival member := by
    simp only [parts, List.mem_cons, List.not_mem_nil, or_false] at member
    rcases member with rfl | rfl | rfl | rfl
    · exact .inr ⟨_, rfl⟩
    · exact .inl rfl
    · exact .inr ⟨_, rfl⟩
    · exact .inr ⟨_, rfl⟩
  expected := by decide
  room before call inside c frame capped found := by
    have listed := inside.subset (List.mem_append_right _ List.mem_cons_self)
    have whole := List.mem_singleton.mp (List.mem_of_getElem? found)
    rcases List.mem_cons.mp listed with rfl | last
    · cases capped
      rw [whole]
      decide
    · rw [List.mem_singleton.mp last] at capped
      cases capped

end Bitty.Daemon.Frame
