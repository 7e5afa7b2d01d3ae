import Bitty.Vt.Bridge
import Bitty.Vt.Iterm2
import Bitty.Vt.Kitty.Assembler

namespace Bitty.Vt

/-- The parser without the wrapped machine and the bridge: nothing here depends on them. -/
structure Front where
  kitty : KittyApcAssembler := .new
  iterm2 : Iterm2OscScanner := {}
  apcBuf : List UInt8 := []
  apcPayload : Bool := false
  inApc : Bool := false
  apcDiscarding : Bool := false
  controlString : ControlString := {}
  deriving DecidableEq

/-- The front with the `ESC` held back at the end of the last slice: `held` is `held_esc`, and
the flag it carries is `held_in_apc`. -/
structure Intake where
  front : Front := {}
  held : Option Bool := none
  deriving DecidableEq

namespace Front

def clearApcHeader (p : Front) : Front :=
  { p with kitty := p.kitty.releaseHeader p.apcBuf.length, apcBuf := [] }

/-- Opens a parser-handled `APC`. -/
def beginApc (p : Front) : Front :=
  { p.clearApcHeader with
    apcPayload := false, inApc := true, apcDiscarding := false, controlString := p.controlString.beginApc }

/-- Abandons the open parser-handled `APC` and any pending kitty stream. -/
def abortApc (p : Front) : Front :=
  { p.clearApcHeader with
    controlString := p.controlString.endApc, inApc := false, apcPayload := false, apcDiscarding := false
    kitty := p.clearApcHeader.kitty.abort }

/-- Hands bytes to `vte`. -/
def feed (p : Front) (bytes : List UInt8) : Front × List Wire :=
  ({ p with controlString := (feedVte p.controlString bytes).1 }, (feedVte p.controlString bytes).2)

def note (p : Front) : Front := { p with kitty := (p.kitty.noteInterleaved 1).1 }

/-- Closes whatever `vte` still holds before an `ESC ]` is diverted away from it. -/
def closeVteString (p : Front) : Front × List Wire :=
  if p.controlString.needsClose then p.feed [0x1B, 0x5C] else (p, [])

/-- Opens an iTerm2 candidate; `ESC ]` is consumed. -/
def divert (p : Front) : Front × List Wire :=
  let closed := p.closeVteString
  let noted := closed.1.note
  ({ noted with controlString := noted.controlString.beginDiversion, iterm2 := noted.iterm2.begin }, closed.2)

/-- Aborts an open `APC` that crossed the cap. -/
def refuseApc (p : Front) : Front × List Wire :=
  ({ p.clearApcHeader with kitty := p.clearApcHeader.kitty.abort, apcPayload := false, apcDiscarding := true },
    [.emit (.controlStringRejected .apc .overflow)])

def graphicsAction (done : KittyCompleted) : TerminalAction :=
  .kittyGraphics done.formatF done.widthS done.heightV done.actionA done.colsC done.rowsR done.cursorMovementC
    done.payload done.keys

section

variable (inflate : List UInt8 → Nat → Inflated)

/-- Ends the chunk of an `APC G` whose header was accepted. -/
def finishApc (p : Front) : Front × List Wire :=
  let (kitty, outcome) := p.kitty.finish inflate
  ({ { p with kitty }.clearApcHeader with inApc := false },
    match outcome with
    | .completed done => [.emit (graphicsAction done)]
    | _ => [])

def terminateApc (p : Front) : Front × List Wire :=
  let p := { p with controlString := p.controlString.endApc }
  if p.apcDiscarding then
    ({ p with inApc := false, apcDiscarding := false, apcPayload := false }.clearApcHeader, [])
  else if p.apcPayload then p.finishApc inflate
  else match parseKittyFontQuery p.apcBuf with
    | some query => ({ p.clearApcHeader with inApc := false }, [.emit (.kittyFontQuery query)])
    | none =>
      match p.kitty.beginControl p.apcBuf with
      | (kitty, .ok ()) => { p with kitty }.finishApc inflate
      | (kitty, .error _) => ({ { p with kitty }.clearApcHeader with inApc := false }, [])

/-- One byte inside an `APC` that is neither a terminator nor an interrupt. -/
def apcText (p : Front) (b : UInt8) : Front × List Wire :=
  if p.apcPayload then
    match p.kitty.pushPayload [b] with
    | (kitty, .ok ()) => ({ p with kitty }, [])
    | (kitty, .error _) => ({ p with kitty, apcPayload := false, apcDiscarding := true }, [])
  else
    let (controlString, crossed) := p.controlString.chargeApc
    let p := { p with controlString }
    if crossed then p.refuseApc
    else if p.apcDiscarding then (p.note, [])
    else if b = 0x3B ∧ ¬bytesOf "+q" <+: p.apcBuf then
      match p.kitty.beginControl p.apcBuf with
      | (kitty, .ok ()) => ({ p with kitty, apcPayload := true }.clearApcHeader, [])
      | (kitty, .error _) => ({ p with kitty, apcDiscarding := true }.clearApcHeader, [])
    else
      let (kitty, reserved) := p.kitty.reserveHeaderByte
      if p.apcBuf.length ≥ KITTY_APC_MAX_CONTROL_BYTES ∨ ¬reserved then
        ({ p.clearApcHeader with apcDiscarding := true, kitty := p.clearApcHeader.kitty.abort }, [])
      else ({ p with kitty, apcBuf := p.apcBuf ++ [b] }, [])

/-- One byte other than `ESC` inside an `APC`. -/
def apcByte (p : Front) (b : UInt8) : Front × List Wire :=
  if b = 0x07 ∨ b = 0x9C then p.terminateApc inflate
  else if b = 0x18 ∨ b = 0x1A then p.abortApc.feed [b]
  else p.apcText b

/-- One byte other than `ESC` outside an `APC`. -/
def groundByte (p : Front) (b : UInt8) : Front × List Wire := p.note.feed [b]

/-- What a step did, and whether it also consumed the byte it looked ahead to. -/
structure Looked where
  front : Front
  wires : List Wire
  consumed : Bool

/-- `ESC` outside an `APC`, with the byte after it. -/
def groundEsc (p : Front) (nxt : UInt8) : Looked :=
  if nxt = 0x5F then ⟨p.beginApc, [], true⟩
  else if nxt = 0x5D then ⟨p.divert.1, p.divert.2, true⟩
  else ⟨(p.note.feed [0x1B]).1, (p.note.feed [0x1B]).2, false⟩

/-- `ESC` inside an `APC`, with the byte after it. A discarded `APC` ends at the `ESC`, which is
then examined again outside. -/
def apcEsc (p : Front) (nxt : UInt8) : Looked :=
  if nxt = 0x5C then ⟨(p.terminateApc inflate).1, (p.terminateApc inflate).2, true⟩
  else if p.apcDiscarding then p.abortApc.groundEsc nxt
  else if nxt = 0x5F then ⟨p.abortApc.beginApc, [], true⟩
  else if nxt = 0x5D then ⟨p.abortApc.divert.1, p.abortApc.divert.2, true⟩
  else ⟨(p.abortApc.feed [0x1B]).1, (p.abortApc.feed [0x1B]).2, false⟩

/-- The scanner's turn at a byte, and whether it consumed it. -/
def scan (p : Front) (byte : UInt8) : Looked :=
  if ¬p.iterm2.isActive then ⟨p, [], false⟩
  else
    let (iterm2, outcome) := p.iterm2.push byte
    match outcome with
    | .consumed =>
      ⟨{ p with iterm2, controlString := p.controlString.chargeDiversion iterm2.isCollecting }.note, [], true⟩
    | .passThrough =>
      let fed := { p with iterm2, controlString := p.controlString.endDiversion }.feed iterm2.replay
      ⟨{ fed.1 with iterm2 := iterm2.clearReplay }, fed.2, false⟩
    | .finished =>
      ⟨{ p with iterm2 := { iterm2 with finished := none }, controlString := p.controlString.endDiversion },
        (finishIterm2 iterm2.finished).map .emit, true⟩
    | .finishedThenPassThrough =>
      let fed := { p with iterm2, controlString := p.controlString.endDiversion }.feed iterm2.replay
      ⟨{ fed.1 with iterm2 := { iterm2.clearReplay with finished := none } },
        (finishIterm2 iterm2.finished).map .emit ++ fed.2, false⟩

/-- `ESC` with the byte after it. -/
def lookEsc (p : Front) (nxt : UInt8) : Looked := if p.inApc then p.apcEsc inflate nxt else p.groundEsc nxt

/-- A byte other than `ESC`. -/
def plainByte (p : Front) (b : UInt8) : Front × List Wire :=
  if p.inApc then p.apcByte inflate b else p.groundByte b

/-- The byte loop of `advance`; an `ESC` at the end of the slice waits for the next one. -/
def loop (p : Front) : List UInt8 → Intake × List Wire
  | [] => (⟨p, none⟩, [])
  | b :: rest =>
    let scanned := p.scan b
    let p := scanned.front
    if scanned.consumed then
      let later := loop p rest
      (later.1, scanned.wires ++ later.2)
    else if b ≠ 0x1B then
      let done := p.plainByte inflate b
      let later := loop done.1 rest
      (later.1, scanned.wires ++ done.2 ++ later.2)
    else match rest with
      | [] => (⟨p, some p.inApc⟩, scanned.wires)
      | nxt :: after =>
        let esc := p.lookEsc inflate nxt
        let later := if esc.consumed then loop esc.front after else loop esc.front (nxt :: after)
        (later.1, scanned.wires ++ esc.wires ++ later.2)

/-- A held `ESC` outside an `APC` meets its next byte. -/
def resumeGround (p : Front) (next : UInt8) : Looked :=
  if next = 0x5F then ⟨p.beginApc, [], true⟩
  else if next = 0x5D then ⟨p.divert.1, p.divert.2, true⟩
  else ⟨(p.feed [0x1B]).1, (p.feed [0x1B]).2, false⟩

/-- A held `ESC` inside an `APC` meets its next byte. -/
def resumeApc (p : Front) (next : UInt8) : Looked :=
  if next = 0x5C then ⟨(p.terminateApc inflate).1, (p.terminateApc inflate).2, true⟩
  else if next = 0x18 ∨ next = 0x1A then ⟨(p.abortApc.feed [next]).1, (p.abortApc.feed [next]).2, true⟩
  else if next = 0x5F then ⟨p.abortApc.beginApc, [], true⟩
  else if next = 0x5D then ⟨p.abortApc.divert.1, p.abortApc.divert.2, true⟩
  else ⟨(p.abortApc.feed [0x1B]).1, (p.abortApc.feed [0x1B]).2, false⟩

/-- The `ESC` held at the end of the last slice meets its next byte; a discarded `APC` ends at
the `ESC`. -/
def resume (p : Front) (heldInApc : Bool) (next : UInt8) : Looked :=
  if heldInApc ∧ p.apcDiscarding ∧ next ≠ 0x5C then p.abortApc.resumeGround next
  else if heldInApc then p.resumeApc inflate next
  else p.resumeGround next

end

end Front

/-- `Parser::advance`, up to the machine behind it. -/
def Intake.advance (inflate : List UInt8 → Nat → Inflated) (p : Intake) (bytes : List UInt8) :
    Intake × List Wire :=
  match p.held with
  | none => p.front.loop inflate bytes
  | some heldInApc =>
    match bytes with
    | [] => (p, [])
    | next :: rest =>
      let resumed := p.front.resume inflate heldInApc next
      let later := resumed.front.loop inflate (if resumed.consumed then rest else next :: rest)
      (later.1, resumed.wires ++ later.2)

structure Parser (V : Vte) where
  intake : Intake
  back : Backend V

namespace Parser

variable {V : Vte} (inflate : List UInt8 → Nat → Inflated) (m : Meaning)

def new (V : Vte) : Parser V := ⟨{}, .new V⟩

def withLedgerCap (V : Vte) (ledgerCap : Nat) : Parser V := ⟨{ front := { kitty := .withLedgerCap ledgerCap } }, .new V⟩

def hasPendingKitty (p : Parser V) : Bool := p.intake.front.kitty.hasPending

def advance (p : Parser V) (bytes : List UInt8) : Parser V × List TerminalAction :=
  let fed := p.intake.advance inflate bytes
  let done := Transducer.run (Backend.execute m) p.back fed.2
  (⟨fed.1, done.1⟩, done.2)

/-- One call of `advance` per slice. -/
def advanceAll (p : Parser V) (slices : List (List UInt8)) : Parser V × List TerminalAction :=
  Transducer.run (advance inflate m) p slices

/-- The states a parser can be in: any number of calls after it was made. -/
inductive Reachable : Parser V → Prop
  | new : Reachable (new V)
  | withLedgerCap (cap : Nat) : Reachable (withLedgerCap V cap)
  | advance {p : Parser V} (bytes : List UInt8) : Reachable p → Reachable (p.advance inflate m bytes).1

end Parser

end Bitty.Vt
