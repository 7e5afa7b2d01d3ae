import Bitty.Vt.Kitty.Control

namespace Bitty.Vt

def KITTY_APC_CODEC_SCRATCH_BYTES : Nat := 4

/-- Memory charged to one parser: the header and the retained payload. -/
structure IntakeBudget where
  payloadLimit : Nat
  totalLimit : Nat
  current : Nat := 0
  decoded : Nat := 0
  deriving DecidableEq

namespace IntakeBudget

def new (payloadLimit : Nat) : IntakeBudget where
  payloadLimit := payloadLimit
  totalLimit := payloadLimit + KITTY_APC_MAX_CONTROL_BYTES + KITTY_APC_CODEC_SCRATCH_BYTES

def reserveCurrent (budget : IntakeBudget) (amount : Nat) : IntakeBudget × Bool :=
  let next := budget.current + amount
  if next > KITTY_APC_MAX_CONTROL_BYTES ∨
      budget.decoded + next + KITTY_APC_CODEC_SCRATCH_BYTES > budget.totalLimit then (budget, false)
  else ({ budget with current := next }, true)

def releaseCurrent (budget : IntakeBudget) (amount : Nat) : IntakeBudget :=
  { budget with current := budget.current - amount }

def reserveRetained (budget : IntakeBudget) (amount : Nat) : Option IntakeBudget :=
  if amount > budget.payloadLimit ∨
      budget.current + amount + KITTY_APC_CODEC_SCRATCH_BYTES > budget.totalLimit then none
  else some { budget with decoded := amount }

def clearRetained (budget : IntakeBudget) : IntakeBudget := { budget with decoded := 0 }

end IntakeBudget

def maxEncodedLenForDecodeCap (decodeCap : Nat) : Nat :=
  decodeCap / 3 * 4 + (if decodeCap % 3 = 0 then 0 else 4)

/-- In-flight stream: first-chunk parameters plus one decoded payload buffer. -/
structure PendingKitty where
  formatF : Nat
  widthS : Option Nat
  heightV : Option Nat
  actionA : Option Char
  colsC : Nat
  rowsR : Nat
  cursorMovementC : Nat
  compressed : Bool
  keys : KittyControlKeys
  controlOnly : Bool
  isFrame : Bool
  encodedLen : Nat
  limit : Nat
  interleaved : Nat
  decoder : Base64Stream
  payload : Buffer
  deriving DecidableEq

namespace PendingKitty

def ofParams (params : KittyApcParams) (limit : Nat) : PendingKitty where
  formatF := params.formatF
  widthS := params.widthS
  heightV := params.heightV
  actionA := params.actionA
  colsC := params.colsC
  rowsR := params.rowsR
  cursorMovementC := params.cursorMovementC
  compressed := params.compressed
  keys := params.keys
  controlOnly := !params.carriesData
  isFrame := params.actionA = some 'f'
  encodedLen := 0
  limit := limit
  interleaved := 0
  decoder := {}
  payload := {}

def push (pending : PendingKitty) (input : List UInt8) (available : Nat) (budget : IntakeBudget) :
    Except KittyApcReject (PendingKitty × IntakeBudget) :=
  let encodedLen := pending.encodedLen + input.length
  if encodedLen > maxEncodedLenForDecodeCap available then .error .oversize
  else do
    let (decoder, payload) ← pending.decoder.push input pending.payload available
    match budget.reserveRetained payload.capacity with
    | none => .error .oversize
    | some budget => return ({ pending with encodedLen, decoder, payload }, budget)

end PendingKitty

/-- Completed transmission: routing parameters plus assembled decoded bytes. -/
structure KittyCompleted where
  formatF : Nat
  widthS : Option Nat
  heightV : Option Nat
  actionA : Option Char
  colsC : Nat
  rowsR : Nat
  cursorMovementC : Nat
  payload : List UInt8
  keys : KittyControlKeys

inductive KittyFeedOutcome
  | needMore (bufferedEncoded : Nat)
  | completed (done : KittyCompleted)
  | rejected (reason : KittyApcReject)

inductive Inflated
  | data (bytes : List UInt8)
  | hasMoreOutput
  | failed

structure KittyApcAssembler where
  pending : Option PendingKitty := none
  currentFinal : Option Bool := none
  ledgerCap : Nat := KITTY_APC_LEDGER_CAP
  decodeCap : Nat := KITTY_APC_DECODE_MAX_BYTES
  budget : IntakeBudget := IntakeBudget.new KITTY_APC_DECODE_MAX_BYTES
  deriving DecidableEq

namespace KittyApcAssembler

def withCaps (ledgerCap decodeCap : Nat) : KittyApcAssembler where
  ledgerCap := ledgerCap
  decodeCap := decodeCap
  budget := IntakeBudget.new decodeCap

def withLedgerCap (ledgerCap : Nat) : KittyApcAssembler := withCaps ledgerCap KITTY_APC_DECODE_MAX_BYTES

def new : KittyApcAssembler := withCaps KITTY_APC_LEDGER_CAP KITTY_APC_DECODE_MAX_BYTES

def compressedCap (k : KittyApcAssembler) : Nat := min k.ledgerCap k.decodeCap

/-- Decoded-byte bound of a new stream, checked before anything is buffered. -/
def streamLimit (k : KittyApcAssembler) (params : KittyApcParams) : Except KittyApcReject Nat :=
  if ¬params.carriesData then .ok 0
  else if ¬params.keys.medium.isDirect then
    if params.keys.dataSize > k.decodeCap then .error .oversizeClaim else .ok KITTY_APC_PATH_MAX_BYTES
  else if params.compressed then .ok k.compressedCap
  else (rawClaimBytes params.formatF params.widthS params.heightV k.decodeCap).map (·.getD k.compressedCap)

def reserveHeaderByte (k : KittyApcAssembler) : KittyApcAssembler × Bool :=
  ({ k with budget := (k.budget.reserveCurrent 1).1 }, (k.budget.reserveCurrent 1).2)

def releaseHeader (k : KittyApcAssembler) (amount : Nat) : KittyApcAssembler :=
  { k with budget := k.budget.releaseCurrent amount }

def hasPending (k : KittyApcAssembler) : Bool := k.pending.isSome

def pendingEncodedLen (k : KittyApcAssembler) : Nat := (k.pending.map PendingKitty.encodedLen).getD 0

def abort (k : KittyApcAssembler) : KittyApcAssembler :=
  { k with pending := none, currentFinal := none, budget := k.budget.clearRetained }

/-- Charges interleaved bytes against the open stream; `true` when this dropped it. -/
def noteInterleaved (k : KittyApcAssembler) (amount : Nat) : KittyApcAssembler × Bool :=
  match k.pending with
  | none => (k, false)
  | some pending =>
    let interleaved := pending.interleaved + amount
    if interleaved ≤ KITTY_APC_STALL_MAX_BYTES then ({ k with pending := some { pending with interleaved } }, false)
    else ({ k with pending := some { pending with interleaved } }.abort, true)

/-- Whether a continuation may name `action` on the open stream. -/
def actionOk (pending : PendingKitty) (action : Option Char) : Bool :=
  if action = some 'd' then false
  else if pending.isFrame then action = some 'f' ∨ action = none
  else if action = some 'f' then false
  else action = none ∨ action = pending.actionA

def beginContinuation (k : KittyApcAssembler) (pending : PendingKitty) (control afterG : List UInt8) :
    KittyApcAssembler × Except KittyApcReject Unit :=
  match continuationFlags afterG with
  | .error reason => (k.abort, .error reason)
  | .ok flags =>
    if flags.delete then (k.abort, .error .aborted)
    else match flags.more with
      | none => (k.abort, .error .aborted)
      | some more =>
        if ¬actionOk pending flags.action then (k.abort, .error .aborted)
        else
          let (k, dropped) := k.noteInterleaved (control.length + 1)
          if dropped then (k, .error .aborted) else ({ k with currentFinal := some !more }, .ok ())

def beginStream (k : KittyApcAssembler) (afterG : List UInt8) : KittyApcAssembler × Except KittyApcReject Unit :=
  match parseControl afterG with
  | .error reason => (k, .error reason)
  | .ok params =>
    match k.streamLimit params with
    | .error reason => (k, .error reason)
    | .ok limit =>
      let singleShot := !params.carriesData || !params.keys.medium.isDirect
      ({ k with pending := some (.ofParams params limit), currentFinal := some (singleShot || !params.more) }, .ok ())

def beginControl (k : KittyApcAssembler) (control : List UInt8) : KittyApcAssembler × Except KittyApcReject Unit :=
  if k.currentFinal.isSome then (k, .error .orphan)
  else if control.length > KITTY_APC_MAX_CONTROL_BYTES then (k, .error .oversize)
  else match control with
    | 0x47 :: afterG =>
      match k.pending with
      | some pending => k.beginContinuation pending control afterG
      | none => k.beginStream afterG
    | _ => ((k.noteInterleaved (control.length + 1)).1, .error .notGraphics)

def pushPayload (k : KittyApcAssembler) (payload : List UInt8) : KittyApcAssembler × Except KittyApcReject Unit :=
  match k.currentFinal, k.pending with
  | none, _ => (k, .error .orphan)
  | some _, none => (k.abort, .error .orphan)
  | some _, some pending =>
    if pending.controlOnly ∧ payload ≠ [] then (k.abort, .error .unexpectedPayload)
    else
      let pending := if payload ≠ [] then { pending with interleaved := 0 } else pending
      match pending.push payload (min pending.limit k.budget.payloadLimit) k.budget with
      | .error reason => (k.abort, .error reason)
      | .ok (pending, budget) => ({ k with pending := some pending, budget }, .ok ())

section

variable (inflate : List UInt8 → Nat → Inflated)

/-- The payload of a compressed stream once decompressed under its declared size. -/
def decompress (pending : PendingKitty) (decodeCap : Nat) : Except KittyApcReject Buffer :=
  if ¬pending.compressed then .ok pending.payload
  else do
    let claim ← rawClaimBytes pending.formatF pending.widthS pending.heightV decodeCap
    match inflate pending.payload.bytes (claim.getD decodeCap) with
    | .data bytes => return { bytes, capacity := bytes.length }
    | .hasMoreOutput => .error .oversize
    | .failed => .error .badBase64

/-- The checks of a final chunk; the payload it hands out. -/
def finishPayload (k : KittyApcAssembler) (pending : PendingKitty) : Except KittyApcReject (List UInt8) := do
  let (_, payload) ← pending.decoder.finish pending.payload (min pending.limit k.budget.payloadLimit)
  let pending := { pending with payload }
  if pending.controlOnly then
    if payload.bytes = [] then return [] else .error .unexpectedPayload
  else if ¬pending.keys.medium.isDirect then
    validateKittyPath pending.keys.medium payload.bytes
    if (k.budget.reserveRetained payload.capacity).isNone then .error .oversize
    else
      validateRawClaim pending.formatF pending.widthS pending.heightV k.decodeCap
      return payload.bytes
  else
    let payload ← decompress inflate pending k.decodeCap
    if (k.budget.reserveRetained payload.capacity).isNone then .error .oversize
    else
      validateRawClaim pending.formatF pending.widthS pending.heightV k.decodeCap
      return payload.bytes

def finish (k : KittyApcAssembler) : KittyApcAssembler × KittyFeedOutcome :=
  match k.currentFinal, k.pending with
  | none, _ => (k, .rejected .orphan)
  | some _, none => ({ k with currentFinal := none }, .rejected .orphan)
  | some false, some pending => ({ k with currentFinal := none }, .needMore pending.encodedLen)
  | some true, some pending =>
    let closed := { k with currentFinal := none, pending := none, budget := k.budget.clearRetained }
    match finishPayload inflate k pending with
    | .error reason => (closed, .rejected reason)
    | .ok payload =>
      (closed, .completed {
        formatF := pending.formatF, widthS := pending.widthS, heightV := pending.heightV
        actionA := pending.actionA, colsC := pending.colsC, rowsR := pending.rowsR
        cursorMovementC := pending.cursorMovementC, payload, keys := pending.keys })

def feed (k : KittyApcAssembler) (raw : List UInt8) : KittyApcAssembler × KittyFeedOutcome :=
  let (control, payload) := (splitAtByte 0x3B raw).getD (raw, [])
  match k.beginControl control with
  | (k, .error reason) => (k, .rejected reason)
  | (k, .ok ()) =>
    match k.pushPayload payload with
    | (k, .error reason) => (k, .rejected reason)
    | (k, .ok ()) => k.finish inflate

end

end KittyApcAssembler

end Bitty.Vt
