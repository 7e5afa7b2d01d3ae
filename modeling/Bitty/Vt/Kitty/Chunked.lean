import Bitty.Vt.Kitty.Assembler
import Bitty.Vt.Kitty.Decoders

namespace Bitty.Vt

structure KittyChunk where
  control : List UInt8
  slices : List (List UInt8)

def KittyChunk.text (chunk : KittyChunk) : List UInt8 := chunk.slices.flatten

namespace KittyApcAssembler

def pushSlices (k : KittyApcAssembler) : List (List UInt8) → KittyApcAssembler × Except KittyApcReject Unit
  | [] => (k, .ok ())
  | slice :: rest =>
    match k.pushPayload slice with
    | (k, .error reason) => (k, .error reason)
    | (k, .ok ()) => k.pushSlices rest

section

variable (inflate : List UInt8 → Nat → Inflated)

def feedSlices (k : KittyApcAssembler) (slices : List (List UInt8)) : KittyApcAssembler × KittyFeedOutcome :=
  match k.pushSlices slices with
  | (k, .error reason) => (k, .rejected reason)
  | (k, .ok ()) => k.finish inflate

def feedChunk (k : KittyApcAssembler) (chunk : KittyChunk) : KittyApcAssembler × KittyFeedOutcome :=
  match k.beginControl chunk.control with
  | (k, .error reason) => (k, .rejected reason)
  | (k, .ok ()) => k.feedSlices inflate chunk.slices

def feedChunks (k : KittyApcAssembler) : List KittyChunk → KittyApcAssembler × KittyFeedOutcome
  | [] => (k, .needMore k.pendingEncodedLen)
  | chunk :: rest =>
    match k.feedChunk inflate chunk with
    | (k, .needMore _) => k.feedChunks rest
    | ended => ended

end

inductive Reachable : KittyApcAssembler → Prop
  | withCaps (ledgerCap decodeCap : Nat) : Reachable (withCaps ledgerCap decodeCap)
  | reserveHeaderByte {k : KittyApcAssembler} : Reachable k → Reachable k.reserveHeaderByte.1
  | releaseHeader {k : KittyApcAssembler} (amount : Nat) : Reachable k → Reachable (k.releaseHeader amount)
  | abort {k : KittyApcAssembler} : Reachable k → Reachable k.abort
  | noteInterleaved {k : KittyApcAssembler} (amount : Nat) : Reachable k → Reachable (k.noteInterleaved amount).1
  | beginControl {k : KittyApcAssembler} (control : List UInt8) : Reachable k → Reachable (k.beginControl control).1
  | pushPayload {k : KittyApcAssembler} (payload : List UInt8) : Reachable k → Reachable (k.pushPayload payload).1
  | finish {k : KittyApcAssembler} (inflate : List UInt8 → Nat → Inflated) : Reachable k → Reachable (k.finish inflate).1

structure Sound (k : KittyApcAssembler) : Prop where
  payload : k.budget.payloadLimit = k.decodeCap
  total : k.budget.totalLimit = k.decodeCap + KITTY_APC_MAX_CONTROL_BYTES + KITTY_APC_CODEC_SCRATCH_BYTES
  header : k.budget.current ≤ KITTY_APC_MAX_CONTROL_BYTES

variable {k k' : KittyApcAssembler}

theorem Sound.of_same (sound : k.Sound) (cap : k'.decodeCap = k.decodeCap)
    (payload : k'.budget.payloadLimit = k.budget.payloadLimit) (total : k'.budget.totalLimit = k.budget.totalLimit)
    (header : k'.budget.current ≤ k.budget.current) : k'.Sound where
  payload := by rw [payload, cap, sound.payload]
  total := by rw [total, cap, sound.total]
  header := header.trans sound.header

theorem Sound.abort (sound : k.Sound) : k.abort.Sound := sound.of_same rfl rfl rfl le_rfl

theorem Sound.noteInterleaved (sound : k.Sound) (amount : Nat) : (k.noteInterleaved amount).1.Sound := by
  unfold KittyApcAssembler.noteInterleaved
  split
  · exact sound
  · dsimp only
    split
    · exact sound.of_same rfl rfl rfl le_rfl
    · exact sound.of_same rfl rfl rfl le_rfl

theorem beginContinuation_cases (k : KittyApcAssembler) (q : PendingKitty) (control afterG : List UInt8) :
    (∃ reason, k.beginContinuation q control afterG = (k.abort, .error reason)) ∨
    ∃ more action, continuationFlags afterG = .ok ⟨some more, false, action⟩ ∧ actionOk q action ∧
      k.beginContinuation q control afterG =
        let noted := k.noteInterleaved (control.length + 1)
        if noted.2 then (noted.1, .error .aborted) else ({ noted.1 with currentFinal := some !more }, .ok ()) := by
  unfold beginContinuation
  rcases flagged : continuationFlags afterG with reason | ⟨_ | more, _ | _, action⟩
  · exact .inl ⟨_, rfl⟩
  · exact .inl ⟨_, rfl⟩
  · exact .inl ⟨_, rfl⟩
  · by_cases allowed : actionOk q action
    · exact .inr ⟨more, action, rfl, allowed, by simp [allowed]⟩
    · exact .inl ⟨.aborted, by simp [allowed]⟩
  · exact .inl ⟨_, rfl⟩

theorem Sound.beginControl (sound : k.Sound) (control : List UInt8) : (k.beginControl control).1.Sound := by
  unfold KittyApcAssembler.beginControl
  split_ifs
  · exact sound
  · exact sound
  · split
    · split
      · rename_i afterG _ _ q _
        rcases k.beginContinuation_cases q (0x47 :: afterG) afterG with ⟨reason, dropped⟩ | ⟨more, action, -, -, charged⟩
        · rw [dropped]
          exact sound.abort
        · have noted := sound.noteInterleaved ((0x47 :: afterG).length + 1)
          rw [charged]
          dsimp only
          split
          · exact noted
          · exact noted.of_same rfl rfl rfl le_rfl
      · unfold beginStream
        split
        · exact sound
        · split
          · exact sound
          · exact sound.of_same rfl rfl rfl le_rfl
    · exact sound.noteInterleaved _

theorem reserveRetained_eq {budget budget' : IntakeBudget} {amount : Nat} (reserved : budget.reserveRetained amount = some budget') :
    budget' = { budget with decoded := amount } := by
  unfold IntakeBudget.reserveRetained at reserved
  split_ifs at reserved
  exact (Option.some.inj reserved).symm

theorem Sound.reserveRetained (sound : k.Sound) {amount : Nat} (room : amount ≤ k.decodeCap) :
    k.budget.reserveRetained amount = some { k.budget with decoded := amount } := by
  have payload := sound.payload
  have total := sound.total
  have header := sound.header
  unfold IntakeBudget.reserveRetained
  rw [if_neg (by omega)]

theorem push_budget {q q' : PendingKitty} {input : List UInt8} {available : Nat} {budget budget' : IntakeBudget}
    (pushed : q.push input available budget = .ok (q', budget')) : budget' = { budget with decoded := q'.payload.capacity } := by
  unfold PendingKitty.push at pushed
  dsimp only at pushed
  split_ifs at pushed
  rcases decoded : q.decoder.push input q.payload available with reason | ⟨decoder, payload⟩
  · simp [decoded, bind, Except.bind] at pushed
  · simp only [decoded, bind, Except.bind] at pushed
    split at pushed
    · exact absurd pushed nofun
    · rename_i reserved
      cases pushed
      exact reserveRetained_eq reserved

theorem Sound.pushPayload (sound : k.Sound) (payload : List UInt8) : (k.pushPayload payload).1.Sound := by
  unfold KittyApcAssembler.pushPayload
  split
  · exact sound
  · exact sound.abort
  · dsimp only
    split
    · exact sound.abort
    · split
      · exact sound.abort
      · rename_i pushed
        rw [push_budget pushed]
        exact sound.of_same rfl rfl rfl le_rfl

theorem Sound.finish (sound : k.Sound) (inflate : List UInt8 → Nat → Inflated) : (k.finish inflate).1.Sound := by
  unfold KittyApcAssembler.finish
  split
  · exact sound
  · exact sound.of_same rfl rfl rfl le_rfl
  · exact sound.of_same rfl rfl rfl le_rfl
  · dsimp only
    split <;> exact sound.of_same rfl rfl rfl le_rfl

theorem Reachable.sound (reachable : Reachable k) : k.Sound := by
  induction reachable with
  | withCaps ledgerCap decodeCap => exact ⟨rfl, rfl, Nat.zero_le _⟩
  | @reserveHeaderByte k _ ih =>
    unfold KittyApcAssembler.reserveHeaderByte IntakeBudget.reserveCurrent
    dsimp only
    split_ifs with full
    · exact ⟨ih.payload, ih.total, ih.header⟩
    · exact ⟨ih.payload, ih.total, by dsimp only; omega⟩
  | releaseHeader amount _ ih => exact ih.of_same rfl rfl rfl (Nat.sub_le _ _)
  | abort _ ih => exact ih.abort
  | noteInterleaved amount _ ih => exact ih.noteInterleaved amount
  | beginControl control _ ih => exact ih.beginControl control
  | pushPayload payload _ ih => exact ih.pushPayload payload
  | finish inflate _ ih => exact ih.finish inflate

def Hopeless (text : List UInt8) (limit : Nat) : Prop :=
  ∀ more bytes, standard.Encodes (text ++ more) bytes → limit < bytes.length

variable {limit : Nat}

theorem Hopeless.append {text : List UInt8} (hopeless : Hopeless text limit) (more : List UInt8) :
    Hopeless (text ++ more) limit :=
  fun rest bytes encodes => hopeless (more ++ rest) bytes (List.append_assoc text more rest ▸ encodes)

theorem hopeless_of_long {text : List UInt8} (long : maxEncodedLenForDecodeCap limit < text.length) :
    Hopeless text limit := by
  intro more bytes encodes
  have fits := encodes.length_le
  rw [List.length_append] at fits
  unfold maxEncodedLenForDecodeCap at long
  split_ifs at long fits <;> omega

theorem hopeless_of_refused {text : List UInt8} {reason : KittyApcReject}
    (refused : Base64Stream.push {} text {} limit = .error reason) : Hopeless text limit := by
  intro more bytes encodes
  by_contra room
  obtain ⟨capacity, drained⟩ := Base64Stream.drain_start_iff (text ++ more) |>.mpr ⟨encodes, Nat.not_lt.mp room⟩
  simp [Base64Stream.drain, Base64Stream.push_append, refused, bind, Except.bind] at drained

/-- A stream of image data sent directly and uncompressed, whose declared size its caps allow. -/
structure Plain (k : KittyApcAssembler) (q : PendingKitty) : Prop where
  within : q.limit ≤ k.decodeCap
  claim : ∃ claim, rawClaimBytes q.formatF q.widthS q.heightV k.decodeCap = .ok claim
  data : q.controlOnly = false
  direct : q.keys.medium.isDirect
  uncompressed : q.compressed = false

theorem Plain.of_same {q : PendingKitty} (plain : k.Plain q) (cap : k'.decodeCap = k.decodeCap) : k'.Plain q :=
  ⟨cap ▸ plain.within, cap ▸ plain.claim, plain.data, plain.direct, plain.uncompressed⟩

/-- The stream that its first header opened, with what it has taken since. -/
def grown (q : PendingKitty) (encodedLen interleaved : Nat) (decoder : Base64Stream) (payload : Buffer) : PendingKitty :=
  { q with encodedLen, interleaved, decoder, payload }

def holding (k : KittyApcAssembler) (q : PendingKitty) : KittyApcAssembler :=
  { k with pending := some q, budget := { k.budget with decoded := q.payload.capacity } }

/-- The stream as its first header opened it, after a part of its text and bytes charged to it since. -/
structure Midway (k : KittyApcAssembler) (q : PendingKitty) (text : List UInt8) (n : Nat) : Prop where
  sound : k.Sound
  plain : k.Plain q
  short : text.length ≤ maxEncodedLenForDecodeCap q.limit
  taken : ∃ d o, Base64Stream.push {} text {} q.limit = .ok (d, o) ∧ o.capacity ≤ q.limit ∧
    k.pending = some (grown q text.length n d o)

variable {q : PendingKitty} {text : List UInt8} {n : Nat}

theorem Midway.pushPayload (midway : Midway k q text n) {final : Bool} (chunk : k.currentFinal = some final) (slice : List UInt8) :
    (∃ k', k.pushPayload slice = (k', .ok ()) ∧ k'.currentFinal = some final ∧
      Midway k' q (text ++ slice) (if slice = [] then n else 0)) ∨
    (∃ reason, k.pushPayload slice = (k.abort, .error reason)) ∧ Hopeless (text ++ slice) q.limit := by
  obtain ⟨sound, plain, short, d, o, pushed, room, pending⟩ := midway
  have available : min q.limit k.budget.payloadLimit = q.limit := by
    rw [sound.payload]
    exact Nat.min_eq_left plain.within
  have reset : (if slice ≠ [] then { grown q text.length n d o with interleaved := 0 } else grown q text.length n d o) =
      grown q text.length (if slice = [] then n else 0) d o := by
    split_ifs with some <;> simp_all [grown]
  have data : (grown q text.length n d o).controlOnly = false := plain.data
  unfold KittyApcAssembler.pushPayload
  rw [chunk, pending]
  dsimp only
  rw [if_neg (by simp [data]), reset]
  unfold PendingKitty.push
  simp only [grown, available]
  by_cases long : text.length + slice.length > maxEncodedLenForDecodeCap q.limit
  · rw [if_pos long]
    exact .inr ⟨⟨_, rfl⟩, hopeless_of_long (by rwa [List.length_append])⟩
  rw [if_neg long]
  have whole : Base64Stream.push {} (text ++ slice) {} q.limit = d.push slice o q.limit := by
    rw [Base64Stream.push_append, pushed]
    rfl
  rcases decoded : d.push slice o q.limit with reason | ⟨d', o'⟩
  · exact .inr ⟨⟨_, rfl⟩, hopeless_of_refused (whole.trans decoded)⟩
  have fits := Base64Stream.push_capacity decoded room
  have reserved := sound.reserveRetained (fits.trans plain.within)
  refine .inl ⟨k.holding (grown q (text.length + slice.length) (if slice = [] then n else 0) d' o'), ?_, chunk,
    sound.of_same rfl rfl rfl le_rfl, plain.of_same rfl, ?_, d', o', whole.trans decoded, fits, ?_⟩
  · simp only [bind, Except.bind, reserved]
    rw [← chunk]
    rfl
  · rw [List.length_append]
    omega
  · rw [List.length_append]
    rfl

theorem Midway.pushSlices (midway : Midway k q text n) {final : Bool} (chunk : k.currentFinal = some final)
    (slices : List (List UInt8)) :
    (∃ k', k.pushSlices slices = (k', .ok ()) ∧ k'.currentFinal = some final ∧
      Midway k' q (text ++ slices.flatten) (if slices.flatten = [] then n else 0)) ∨
    (∃ (k' : KittyApcAssembler) (reason : KittyApcReject), k.pushSlices slices = (k'.abort, .error reason)) ∧
      Hopeless (text ++ slices.flatten) q.limit := by
  induction slices generalizing k text n with
  | nil => exact .inl ⟨k, rfl, chunk, by simpa using midway⟩
  | cons slice rest ih =>
    unfold KittyApcAssembler.pushSlices
    rw [List.flatten_cons, ← List.append_assoc]
    rcases midway.pushPayload chunk slice with ⟨k₁, pushed, still, midway⟩ | ⟨⟨reason, dropped⟩, hopeless⟩
    · rw [pushed]
      rcases ih midway still with ⟨k', pushed, still, midway⟩ | dropped
      · refine .inl ⟨k', pushed, still, ?_⟩
        convert midway using 1
        by_cases first : slice = [] <;> by_cases others : rest.flatten = [] <;> simp [first, others]
      · exact .inr dropped
    · rw [dropped]
      exact .inr ⟨⟨k, reason, rfl⟩, hopeless.append _⟩

theorem Midway.finish_more (midway : Midway k q text n) (chunk : k.currentFinal = some false)
    (inflate : List UInt8 → Nat → Inflated) :
    ∃ k' buffered, k.finish inflate = (k', .needMore buffered) ∧ k'.currentFinal = none ∧ Midway k' q text n := by
  obtain ⟨sound, plain, short, d, o, pushed, room, pending⟩ := midway
  refine ⟨{ k with currentFinal := none }, text.length, ?_, rfl, sound.of_same rfl rfl rfl le_rfl, plain.of_same rfl, short, d, o, pushed,
    room, pending⟩
  unfold KittyApcAssembler.finish
  rw [chunk, pending]
  rfl

/-- An assembler without a stream, and without anything retained for one. -/
structure Dropped (k : KittyApcAssembler) : Prop where
  pending : k.pending = none
  currentFinal : k.currentFinal = none
  decoded : k.budget.decoded = 0

/-- How the chunks of a stream end: with what their text encodes, or with nothing. -/
structure Ends (r : KittyApcAssembler × KittyFeedOutcome) (text : List UInt8) (limit : Nat) (stalled : Bool) : Prop where
  completes : ∀ bytes, (∃ done, r.2 = .completed done ∧ done.payload = bytes) ↔
    standard.Encodes text bytes ∧ bytes.length ≤ limit ∧ stalled = false
  ends : (∃ done, r.2 = .completed done) ∨ ∃ reason, r.2 = .rejected reason
  dropped : Dropped r.1

theorem Ends.rejected {stalled : Bool} (dropped : Dropped k) (reason : KittyApcReject)
    (never : ∀ bytes, standard.Encodes text bytes → bytes.length ≤ limit → stalled = false → False) :
    Ends (k, .rejected reason) text limit stalled where
  completes bytes := by
    constructor
    · rintro ⟨_, ⟨⟩, -⟩
    · rintro ⟨encodes, room, lively⟩
      exact (never bytes encodes room lively).elim
  ends := .inr ⟨reason, rfl⟩
  dropped := dropped

theorem Midway.finish_last (midway : Midway k q text n) (chunk : k.currentFinal = some true)
    (inflate : List UInt8 → Nat → Inflated) : Ends (k.finish inflate) text q.limit false := by
  obtain ⟨sound, plain, short, d, o, pushed, room, pending⟩ := midway
  obtain ⟨claim, claimed⟩ := plain.claim
  have available : min q.limit k.budget.payloadLimit = q.limit := by
    rw [sound.payload]
    exact Nat.min_eq_left plain.within
  have whole : Base64Stream.drain {} text {} q.limit = (d.finish o q.limit).map (·.2) := by
    rw [Base64Stream.drain, pushed]
    cases finished : d.finish o q.limit <;> simp [finished, bind, Except.bind, Except.map, pure, Except.pure]
  have reads : ∀ bytes, (∃ capacity, Base64Stream.drain {} text {} q.limit = .ok ⟨bytes, capacity⟩) ↔
      standard.Encodes text bytes ∧ bytes.length ≤ q.limit := fun bytes => Base64Stream.drain_start_iff text
  simp only [whole] at reads
  rcases finished : d.finish o q.limit with reason | ⟨d', o'⟩
  · have refused : finishPayload inflate k (grown q text.length n d o) = .error reason := by
      simp [finishPayload, grown, available, finished, bind, Except.bind]
    unfold KittyApcAssembler.finish
    rw [chunk, pending]
    dsimp only
    rw [refused]
    refine .rejected ⟨rfl, rfl, rfl⟩ _ fun bytes encodes room _ => ?_
    obtain ⟨capacity, impossible⟩ := (reads bytes).mpr ⟨encodes, room⟩
    simp [finished, Except.map] at impossible
  · have handed : finishPayload inflate k (grown q text.length n d o) = .ok o'.bytes := by
      have reserved := sound.reserveRetained ((Base64Stream.finish_capacity finished room).trans plain.within)
      simp [finishPayload, grown, available, finished, bind, Except.bind, plain.data, plain.direct, decompress,
        plain.uncompressed, reserved, validateRawClaim, claimed, Except.map, pure, Except.pure]
    unfold KittyApcAssembler.finish
    rw [chunk, pending]
    dsimp only
    rw [handed]
    refine ⟨fun bytes => ?_, .inl ⟨_, rfl⟩, rfl, rfl, rfl⟩
    rw [finished] at reads
    simp only [and_true, ← reads bytes]
    constructor
    · rintro ⟨_, ⟨⟩, rfl⟩
      exact ⟨o'.capacity, rfl⟩
    · rintro ⟨capacity, same⟩
      exact ⟨_, rfl, congrArg Buffer.bytes (Except.ok.inj same)⟩

/-- The headers of the later chunks: each continues the stream, and says whether another chunk follows. -/
def Continues (q : PendingKitty) : List KittyChunk → Prop
  | [] => True
  | chunk :: rest =>
    (∃ afterG action, chunk.control = 0x47 :: afterG ∧ chunk.control.length ≤ KITTY_APC_MAX_CONTROL_BYTES ∧
      continuationFlags afterG = .ok ⟨some !rest.isEmpty, false, action⟩ ∧ actionOk q action) ∧ Continues q rest

/-- Whether headers without payload between them exceed the stall bound, after `n` bytes of such headers. -/
def stalls (n : Nat) : List KittyChunk → Bool
  | [] => false
  | chunk :: rest =>
    n + (chunk.control.length + 1) > KITTY_APC_STALL_MAX_BYTES ||
      stalls (if chunk.text = [] then n + (chunk.control.length + 1) else 0) rest

def textOf (chunks : List KittyChunk) : List UInt8 := (chunks.map KittyChunk.text).flatten

theorem Midway.beginControl (midway : Midway k q text n) (settled : k.currentFinal = none) {control afterG : List UInt8}
    {more : Bool} {action : Option Char} (graphics : control = 0x47 :: afterG)
    (short : control.length ≤ KITTY_APC_MAX_CONTROL_BYTES)
    (flagged : continuationFlags afterG = .ok ⟨some more, false, action⟩) (allowed : actionOk q action) :
    if n + (control.length + 1) > KITTY_APC_STALL_MAX_BYTES then
      ∃ k' reason, k.beginControl control = (k', .error reason) ∧ Dropped k'
    else ∃ k', k.beginControl control = (k', .ok ()) ∧ k'.currentFinal = some !more ∧
      Midway k' q text (n + (control.length + 1)) := by
  obtain ⟨sound, plain, fits, d, o, pushed, room, pending⟩ := midway
  have started : k.beginControl control = k.beginContinuation (grown q text.length n d o) control afterG := by
    unfold KittyApcAssembler.beginControl
    rw [settled, if_neg (by simp), if_neg (Nat.not_lt.mpr short), graphics]
    simp [pending]
  have stillAllowed : actionOk (grown q text.length n d o) action = true := allowed
  have noted : k.noteInterleaved (control.length + 1) =
      if n + (control.length + 1) ≤ KITTY_APC_STALL_MAX_BYTES then
        ({ k with pending := some (grown q text.length (n + (control.length + 1)) d o) }, false)
      else (({ k with pending := some (grown q text.length (n + (control.length + 1)) d o) } : KittyApcAssembler).abort, true) := by
    unfold KittyApcAssembler.noteInterleaved
    rw [pending]
    rfl
  rw [started]
  by_cases full : n + (control.length + 1) > KITTY_APC_STALL_MAX_BYTES
  · rw [if_neg (Nat.not_le.mpr full)] at noted
    rw [if_pos full]
    refine ⟨({ k with pending := some (grown q text.length (n + (control.length + 1)) d o) } : KittyApcAssembler).abort,
      .aborted, ?_, rfl, rfl, rfl⟩
    simp [beginContinuation, flagged, stillAllowed, noted]
  · rw [if_pos (Nat.not_lt.mp full)] at noted
    rw [if_neg full]
    refine ⟨{ k with pending := some (grown q text.length (n + (control.length + 1)) d o), currentFinal := some !more }, ?_, rfl,
      sound.of_same rfl rfl rfl le_rfl, plain.of_same rfl, fits, d, o, pushed, room, rfl⟩
    simp [beginContinuation, flagged, stillAllowed, noted]

theorem Ends.not_waiting {buffered : Nat} {stalled : Bool} : ¬Ends (k, .needMore buffered) text limit stalled :=
  fun ends => by rcases ends.ends with ⟨done, impossible⟩ | ⟨reason, impossible⟩ <;> cases impossible

theorem not_encodes_of_hopeless (hopeless : Hopeless text limit) (more bytes : List UInt8)
    (encodes : standard.Encodes (text ++ more) bytes) (room : bytes.length ≤ limit) : False :=
  Nat.not_lt.mpr room (hopeless more bytes encodes)

theorem Midway.feedSlices (midway : Midway k q text n) (rest : List KittyChunk) (chunk : k.currentFinal = some rest.isEmpty)
    (slices : List (List UInt8)) (inflate : List UInt8 → Nat → Inflated)
    (onward : ∀ {k : KittyApcAssembler} {text : List UInt8} {n : Nat}, Midway k q text n → k.currentFinal = none → rest ≠ [] →
      Ends (k.feedChunks inflate rest) (text ++ textOf rest) q.limit (stalls n rest)) :
    Ends (match k.feedSlices inflate slices with
      | (k, .needMore _) => k.feedChunks inflate rest
      | ended => ended) (text ++ slices.flatten ++ textOf rest) q.limit (stalls (if slices.flatten = [] then n else 0) rest) := by
  unfold KittyApcAssembler.feedSlices
  rcases midway.pushSlices chunk slices with ⟨k', pushed, still, midway⟩ | ⟨⟨k', reason, dropped⟩, hopeless⟩
  · rw [pushed]
    dsimp only
    cases rest with
    | nil =>
      have ends := midway.finish_last still inflate
      generalize k'.finish inflate = r at ends ⊢
      obtain ⟨k₁, buffered | done | reason⟩ := r
      · exact absurd ends Ends.not_waiting
      · simpa [textOf, stalls] using ends
      · simpa [textOf, stalls] using ends
    | cons chunk rest =>
      obtain ⟨k₁, buffered, waits, settled, midway⟩ := midway.finish_more still inflate
      rw [waits]
      exact onward midway settled (List.cons_ne_nil _ _)
  · rw [dropped]
    exact .rejected ⟨rfl, rfl, rfl⟩ _ fun bytes encodes room _ => not_encodes_of_hopeless hopeless _ bytes encodes room

theorem Midway.feedChunks {chunks : List KittyChunk} (midway : Midway k q text n) (settled : k.currentFinal = none)
    (some : chunks ≠ []) (continues : Continues q chunks) (inflate : List UInt8 → Nat → Inflated) :
    Ends (k.feedChunks inflate chunks) (text ++ textOf chunks) q.limit (stalls n chunks) := by
  induction chunks generalizing k text n with
  | nil => exact absurd rfl some
  | cons chunk rest ih =>
    obtain ⟨⟨afterG, action, graphics, short, flagged, allowed⟩, continues⟩ := continues
    have begun := midway.beginControl settled graphics short flagged allowed
    unfold KittyApcAssembler.feedChunks feedChunk
    by_cases full : n + (chunk.control.length + 1) > KITTY_APC_STALL_MAX_BYTES
    · rw [if_pos full] at begun
      obtain ⟨k', reason, refused, dropped⟩ := begun
      rw [refused]
      refine .rejected dropped _ fun bytes _ _ lively => ?_
      simp [stalls, full] at lively
    · rw [if_neg full] at begun
      obtain ⟨k', started, final, midway⟩ := begun
      rw [started]
      rw [Bool.not_not] at final
      have ends := midway.feedSlices rest final chunk.slices inflate fun midway settled some =>
        ih midway settled some continues
      simpa [textOf, KittyChunk.text, stalls, full] using ends

theorem rawClaimBytes_le {formatF payloadCap bytes : Nat} {widthS heightV : Option Nat}
    (claimed : rawClaimBytes formatF widthS heightV payloadCap = .ok (some bytes)) : bytes ≤ payloadCap := by
  unfold rawClaimBytes at claimed
  generalize (if formatF = 24 then 3 else 4) = channels at claimed
  dsimp only at claimed
  split_ifs at claimed
  · cases claimed
  · split at claimed
    · split_ifs at claimed with _ _ _ fits
      · cases claimed
      · cases claimed
        exact fits
    · cases claimed

theorem Midway.of_opened (sound : k.Sound) (idle : k.pending = none) {control : List UInt8}
    (accepted : k.beginControl control = (k', .ok ())) (opened : k'.pending = some q) (data : q.controlOnly = false)
    (direct : q.keys.medium.isDirect) (uncompressed : q.compressed = false) : Midway k' q [] 0 := by
  have still : k'.Sound := by
    have kept := sound.beginControl control
    rwa [accepted] at kept
  unfold KittyApcAssembler.beginControl at accepted
  rw [idle] at accepted
  split_ifs at accepted
  · cases accepted
  · cases accepted
  · split at accepted
    · dsimp only at accepted
      unfold beginStream at accepted
      split at accepted
      · cases accepted
      · split at accepted
        · cases accepted
        · rename_i params _ _ limit limited
          cases accepted
          cases opened
          have plain : Plain k (.ofParams params limit) := by
            have carries : params.carriesData := by simpa [PendingKitty.ofParams] using data
            simp only [PendingKitty.ofParams] at direct uncompressed
            unfold streamLimit at limited
            rw [if_neg (not_not.mpr carries), if_neg (not_not.mpr direct), if_neg (by simp [uncompressed])] at limited
            rcases claimed : rawClaimBytes params.formatF params.widthS params.heightV k.decodeCap with reason | claim
            · simp [claimed, Except.map] at limited
            · refine ⟨?_, ⟨claim, claimed⟩, data, direct, uncompressed⟩
              rw [claimed] at limited
              cases limited
              cases claim with
              | none => exact Nat.min_le_right _ _
              | some bytes => exact rawClaimBytes_le claimed
          exact ⟨still, plain.of_same rfl, Nat.zero_le _, {}, {}, rfl, Nat.zero_le _, rfl⟩
    · cases accepted

/-- A stream sent in chunks completes, with what its text encodes, exactly if the text is well formed, decodes within
the bound of the stream, and no run of empty chunks stalls it; otherwise nothing of it is left. -/
theorem chunks_complete_iff (reachable : Reachable k) (idle : k.pending = none) {first : KittyChunk}
    {rest : List KittyChunk} (accepted : k.beginControl first.control = (k', .ok ())) (opened : k'.pending = some q)
    (data : q.controlOnly = false) (direct : q.keys.medium.isDirect) (uncompressed : q.compressed = false)
    (last : k'.currentFinal = some rest.isEmpty) (continues : Continues q rest) (inflate : List UInt8 → Nat → Inflated) :
    Ends (k.feedChunks inflate (first :: rest)) (textOf (first :: rest)) q.limit (stalls 0 rest) := by
  have midway := Midway.of_opened reachable.sound idle accepted opened data direct uncompressed
  unfold KittyApcAssembler.feedChunks feedChunk
  rw [accepted]
  have ends := midway.feedSlices rest last first.slices inflate fun midway settled some =>
    midway.feedChunks settled some continues inflate
  simpa [textOf, KittyChunk.text] using ends

def opening : KittyChunk := ⟨bytesOf "Gf=100,m=1", []⟩

def emptyChunk : KittyChunk := ⟨bytesOf "Gm=1", []⟩

def closing : KittyChunk := ⟨bytesOf "Gm=0", [bytesOf "AA", bytesOf "AA"]⟩

theorem opening_accepted : new.beginControl opening.control = ((new.beginControl opening.control).1, .ok ()) := by
  decide

def opened : PendingKitty := ((new.beginControl opening.control).1.pending).getD (.ofParams
  ⟨0, none, none, none, 0, 0, 0, false, false, {}⟩ 0)

theorem opening_opened : (new.beginControl opening.control).1.pending = some opened := by decide

theorem encodes_zeros : standard.Encodes (bytesOf "AAAA") [0, 0, 0] := Base64.decode_eq_some_iff.mp (by decide)

/-- Two chunks, the second in two slices, complete with the three bytes that they encode. -/
theorem chunks_complete_zeros : ∃ done,
    (new.feedChunks (fun _ _ => .failed) [opening, closing]).2 = .completed done ∧ done.payload = [0, 0, 0] := by
  have continues : Continues opened [closing] :=
    ⟨⟨bytesOf "m=0", none, by decide, by decide, by decide, by decide⟩, trivial⟩
  have ends := chunks_complete_iff (.withCaps _ _) rfl opening_accepted opening_opened (by decide) (by decide)
    (by decide) (by decide) continues (fun _ _ => .failed)
  exact (ends.completes [0, 0, 0]).mpr ⟨encodes_zeros, by decide, by decide⟩

def flood : Nat → List KittyChunk
  | 0 => [closing]
  | m + 1 => emptyChunk :: flood m

theorem isEmpty_flood (m : Nat) : (flood m).isEmpty = false := by cases m <;> rfl

theorem continues_flood (m : Nat) : Continues opened (flood m) := by
  induction m with
  | zero => exact ⟨⟨bytesOf "m=0", none, by decide, by decide, by decide, by decide⟩, trivial⟩
  | succ m ih =>
    refine ⟨⟨bytesOf "m=1", none, by decide, by decide, ?_, by decide⟩, ih⟩
    rw [isEmpty_flood]
    decide

theorem textOf_flood (m : Nat) : textOf (flood m) = bytesOf "AAAA" := by
  induction m with
  | zero => decide
  | succ m ih => exact ih

theorem stalls_flood {m n : Nat} (short : n ≤ KITTY_APC_STALL_MAX_BYTES) (long : KITTY_APC_STALL_MAX_BYTES < n + 5 * m) :
    stalls n (flood m) = true := by
  induction m generalizing n with
  | zero => omega
  | succ m ih =>
    have header : emptyChunk.control.length + 1 = 5 := by decide
    have blank : emptyChunk.text = [] := rfl
    simp only [flood, stalls, header, blank, if_true, Bool.or_eq_true, decide_eq_true_eq]
    by_cases full : n + 5 > KITTY_APC_STALL_MAX_BYTES
    · exact .inl full
    · exact .inr (ih (Nat.not_lt.mp full) (by omega))

theorem flood_rejected {m : Nat} (long : KITTY_APC_STALL_MAX_BYTES < 5 * m) (inflate : List UInt8 → Nat → Inflated) :
    ∃ reason, (new.feedChunks inflate (opening :: flood m)).2 = .rejected reason := by
  have midway := Midway.of_opened (Reachable.withCaps _ _).sound rfl opening_accepted opening_opened (by decide)
    (by decide) (by decide)
  have final : (new.beginControl opening.control).1.currentFinal = some (flood m).isEmpty := by
    rw [isEmpty_flood]
    decide
  have ends := midway.feedSlices (flood m) final opening.slices inflate fun midway settled some =>
    midway.feedChunks settled some (continues_flood m) inflate
  have stalled : stalls (if opening.slices.flatten = [] then 0 else 0) (flood m) = true := by
    rw [ite_self]
    exact stalls_flood (Nat.zero_le _) (by omega)
  rw [stalled] at ends
  unfold feedChunks feedChunk
  rw [opening_accepted]
  rcases ends.ends with ⟨done, completed⟩ | rejected
  · exact absurd ((ends.completes done.payload).mp ⟨done, completed, rfl⟩).2.2 (by decide)
  · exact rejected

/-- A text cut with enough empty chunks is rejected, however well formed it is. -/
theorem chunks_stall : ∃ first rest, new.beginControl first.control = ((new.beginControl first.control).1, .ok ()) ∧
    (new.beginControl first.control).1.pending = some opened ∧ opened.controlOnly = false ∧ opened.keys.medium.isDirect ∧
    opened.compressed = false ∧ (new.beginControl first.control).1.currentFinal = some rest.isEmpty ∧ Continues opened rest ∧
    standard.Encodes (textOf (first :: rest)) [0, 0, 0] ∧ 3 ≤ opened.limit ∧
    ∀ inflate, ∃ reason, (new.feedChunks inflate (first :: rest)).2 = .rejected reason := by
  obtain ⟨m, long⟩ : ∃ m, KITTY_APC_STALL_MAX_BYTES < 5 * m := ⟨13108, by decide⟩
  have text : textOf (opening :: flood m) = bytesOf "AAAA" := textOf_flood m
  have final : (new.beginControl opening.control).1.currentFinal = some (flood m).isEmpty := by
    rw [isEmpty_flood]
    decide
  exact ⟨opening, flood m, opening_accepted, opening_opened, by decide, by decide, by decide, final,
    continues_flood _, text ▸ encodes_zeros, by decide, flood_rejected long⟩

end KittyApcAssembler

end Bitty.Vt
