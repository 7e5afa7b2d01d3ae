import Bitty.Vt.Action
import Bitty.Library.Transducer

namespace Bitty.Vt

def ESC : UInt8 := 0x1B
def CAN : UInt8 := 0x18
def SUB : UInt8 := 0x1A
def BEL : UInt8 := 0x07
/-- C1 `ST`. -/
def ST : UInt8 := 0x9C

/-- iTerm2 header cap, separator, and wire payload, with the `1337;File=` prefix and `ESC ]`. -/
def CONTROL_STRING_MAX_BYTES : Nat := 4096 + 1 + 4 * 1024 * 1024 + 10 + 2

/-- The collapsed string state of the wrapped `vte` machine. -/
inductive VteString
  | ground
  | escape
  | osc
  | other
  deriving DecidableEq

namespace VteString

/-- Tracked state after `byte` is forwarded to `vte`. -/
def after : VteString → UInt8 → VteString
  | .ground, byte => if byte = 0x1B then .escape else .ground
  | .escape, byte =>
    if byte = 0x1B then .escape
    else if byte = 0x18 ∨ byte = 0x1A then .ground
    else if byte = 0x5D then .osc
    else if byte = 0x50 ∨ byte = 0x58 ∨ byte = 0x5E ∨ byte = 0x5F then .other
    else if byte ≤ 0x2F ∨ 0x7F ≤ byte then .escape
    else .ground
  | .osc, byte =>
    if byte = 0x07 ∨ byte = 0x18 ∨ byte = 0x1A then .ground
    else if byte = 0x1B then .escape
    else .osc
  | .other, byte =>
    if byte = 0x18 ∨ byte = 0x1A then .ground
    else if byte = 0x1B then .escape
    else .other

def needsClose (s : VteString) : Bool := s ≠ .ground

def isString (s : VteString) : Bool := s = .osc ∨ s = .other

/-- Whether `byte` ends a string of this family while its tail is being discarded, and whether
the byte must still be forwarded. -/
def discardEndsAt (family : VteString) (dcsHooked : Bool) (byte : UInt8) : Option Bool :=
  match family with
  | .osc =>
    if byte = 0x07 ∨ byte = 0x18 ∨ byte = 0x1A then some false
    else if byte = 0x1B then some true
    else none
  | .other =>
    if byte = 0x18 ∨ byte = 0x1A then some false
    else if byte = 0x1B then some true
    else if byte = 0x9C ∧ dcsHooked then some false
    else none
  | .ground => none
  | .escape => none

end VteString

/-- Substate of a `DCS` that `vte` has not hooked yet. -/
inductive DcsHeader
  | entry
  | param
  | intermediate
  | ignore
  deriving DecidableEq

def kindOfIntroducer (byte : UInt8) : ControlStringKind :=
  if byte = 0x50 then .dcs
  else if byte = 0x58 then .sos
  else if byte = 0x5E then .pm
  else if byte = 0x5F then .apc
  else .osc

structure ControlString where
  state : VteString := .ground
  bytes : Nat := 0
  kind : ControlStringKind := .osc
  dcsHeader : Option DcsHeader := none
  dcsHooked : Bool := false
  discard : Option VteString := none
  apcBytes : Nat := 0
  apcRefused : Bool := false
  deriving DecidableEq

namespace ControlString

def needsClose (cs : ControlString) : Bool := cs.state.needsClose

def beginVteString (cs : ControlString) (introducer : UInt8) : ControlString :=
  { cs with
    kind := kindOfIntroducer introducer
    bytes := 0
    dcsHeader := if kindOfIntroducer introducer = .dcs then some .entry else none
    dcsHooked := false }

def endVteString (cs : ControlString) : ControlString :=
  { cs with state := .ground, bytes := 0, dcsHeader := none, dcsHooked := false }

def nextHeader (header : DcsHeader) (byte : UInt8) : DcsHeader :=
  match header with
  | .entry =>
    if 0x20 ≤ byte ∧ byte ≤ 0x2F then .intermediate
    else if 0x30 ≤ byte ∧ byte ≤ 0x3F then .param
    else .entry
  | .param =>
    if 0x20 ≤ byte ∧ byte ≤ 0x2F then .intermediate
    else if 0x30 ≤ byte ∧ byte ≤ 0x3B then .param
    else if 0x3C ≤ byte ∧ byte ≤ 0x3F then .ignore
    else .param
  | .intermediate =>
    if 0x20 ≤ byte ∧ byte ≤ 0x2F then .intermediate
    else if 0x30 ≤ byte ∧ byte ≤ 0x3F then .ignore
    else .intermediate
  | .ignore => .ignore

def trackDcsHeader (cs : ControlString) (byte : UInt8) : ControlString :=
  match cs.dcsHeader with
  | none => cs
  | some header =>
    if header = .ignore then cs
    else if 0x40 ≤ byte ∧ byte ≤ 0x7E then { cs with dcsHeader := none, dcsHooked := true }
    else { cs with dcsHeader := some (nextHeader header byte) }

def beginDiversion (cs : ControlString) : ControlString :=
  { cs with
    state := .ground, bytes := 0, kind := .osc, dcsHeader := none, dcsHooked := false, discard := none }

/-- Charges one byte of the diverted candidate; the introducer and the prefix are charged with
the first collected byte. -/
def chargeDiversion (cs : ControlString) (collecting : Bool) : ControlString :=
  if !collecting then cs
  else
    let bytes := if cs.bytes = 0 then 1 + 10 else cs.bytes
    { cs with bytes := min (bytes + 1) CONTROL_STRING_MAX_BYTES }

def endDiversion (cs : ControlString) : ControlString :=
  { cs with state := .ground, bytes := 0, dcsHeader := none, dcsHooked := false }

def beginApc (cs : ControlString) : ControlString :=
  { cs with discard := none, apcBytes := 0, apcRefused := false }

def endApc (cs : ControlString) : ControlString :=
  { cs with apcBytes := 0, apcRefused := false }

/-- Charges one byte of a parser-handled `APC`; `true` when it crossed the cap. -/
def chargeApc (cs : ControlString) : ControlString × Bool :=
  if cs.apcRefused then (cs, false)
  else if cs.apcBytes + 1 > CONTROL_STRING_MAX_BYTES then
    ({ cs with apcBytes := cs.apcBytes + 1, apcRefused := true }, true)
  else ({ cs with apcBytes := cs.apcBytes + 1 }, false)

/-- The visit of one byte by the loop of `feed_vte`. -/
inductive Fate
  /-- The byte joins the bytes not flushed yet. -/
  | keep
  /-- `ESC` ends a refused string and starts what follows it. -/
  | forward
  /-- The byte is in the tail of a refused string. -/
  | swallow
  /-- The byte crossed the cap. -/
  | refuse (kind : ControlStringKind)
  deriving DecidableEq

def visit (cs : ControlString) (byte : UInt8) : ControlString × Fate :=
  match cs.discard with
  | some family =>
    match family.discardEndsAt cs.dcsHooked byte with
    | some true => ({ cs.endVteString with state := VteString.ground.after byte, discard := none }, .forward)
    | some false => ({ cs.endVteString with discard := none }, .swallow)
    | none => (cs, .swallow)
  | none =>
    if cs.state = .other ∧ byte = 0x9C ∧ cs.dcsHooked then (cs.endVteString, .keep)
    else
      let next := cs.state.after byte
      if next.isString then
        if ¬cs.state.isString then ({ cs.beginVteString byte with state := next }, .keep)
        else if cs.bytes = CONTROL_STRING_MAX_BYTES then
          ({ cs with state := cs.state.after CAN, bytes := 0, discard := some next }, .refuse cs.kind)
        else ({ { cs with bytes := cs.bytes + 1 }.trackDcsHeader byte with state := next }, .keep)
      else if cs.state.isString then ({ cs.endVteString with state := next }, .keep)
      else ({ cs with state := next }, .keep)

end ControlString

/-- What the byte loop asks of the machine behind it, in order. -/
inductive Wire
  | vte (byte : UInt8)
  | refuseSixel
  | emit (action : TerminalAction)
  deriving DecidableEq

/-- What is sent when a string crosses the cap: the sixel capture is refused, `vte` aborts the
string, and the refusal is counted. -/
def refusal (kind : ControlStringKind) : List Wire :=
  [.refuseSixel, .vte CAN, .emit (.controlStringRejected kind .overflow)]

def feedLoop (cs : ControlString) (unflushed : List UInt8) : List UInt8 → ControlString × List Wire
  | [] => (cs, unflushed.map .vte)
  | byte :: rest =>
    match cs.visit byte with
    | (next, .keep) => feedLoop next (unflushed ++ [byte]) rest
    | (next, .forward) => feedLoop next [byte] rest
    | (next, .swallow) => feedLoop next [] rest
    | (next, .refuse kind) =>
      let later := feedLoop next [] rest
      (later.1, unflushed.map .vte ++ refusal kind ++ later.2)

/-- Feeds bytes to `vte` under the cap. -/
def feedVte (cs : ControlString) (bytes : List UInt8) : ControlString × List Wire := feedLoop cs [] bytes

def ControlString.Fate.wires (byte : UInt8) : Fate → List Wire
  | .keep => [.vte byte]
  | .forward => [.vte byte]
  | .swallow => []
  | .refuse kind => refusal kind

def feedByte (cs : ControlString) (byte : UInt8) : ControlString × List Wire :=
  ((cs.visit byte).1, (cs.visit byte).2.wires byte)

namespace ControlString

@[simp] theorem beginVteString_discard (cs : ControlString) (introducer : UInt8) :
    (cs.beginVteString introducer).discard = cs.discard := rfl

@[simp] theorem endVteString_discard (cs : ControlString) : cs.endVteString.discard = cs.discard := rfl

@[simp] theorem trackDcsHeader_discard (cs : ControlString) (byte : UInt8) :
    (cs.trackDcsHeader byte).discard = cs.discard := by
  unfold trackDcsHeader
  split
  · rfl
  · split_ifs <;> rfl

theorem visit_discarding {cs : ControlString} {family : VteString} (byte : UInt8)
    (discarding : cs.discard = some family) :
    cs.visit byte = match family.discardEndsAt cs.dcsHooked byte with
      | some true => ({ cs.endVteString with state := VteString.ground.after byte, discard := none }, .forward)
      | some false => ({ cs.endVteString with discard := none }, .swallow)
      | none => (cs, .swallow) := by
  rw [visit, discarding]

theorem visit_cases (cs : ControlString) (byte : UInt8) :
    (cs.discard = none ∧ (cs.visit byte).2 = .keep ∧ (cs.visit byte).1.discard = none) ∨
    (cs.discard = none ∧ cs.state.isString ∧ (cs.state.after byte).isString ∧
      cs.bytes = CONTROL_STRING_MAX_BYTES ∧ (cs.visit byte).2 = .refuse cs.kind) ∨
    (cs.discard.isSome ∧ (cs.visit byte).2 = .forward ∧ (cs.visit byte).1.discard = none) ∨
    (cs.discard.isSome ∧ (cs.visit byte).2 = .swallow) := by
  cases discarding : cs.discard with
  | some family =>
    rw [visit_discarding byte discarding]
    rcases family.discardEndsAt cs.dcsHooked byte with _ | _ | _ <;> simp
  | none =>
    simp only [visit, discarding]
    split_ifs <;> simp_all

end ControlString

theorem feedLoop_eq_run (cs : ControlString) (unflushed bytes : List UInt8)
    (tail : cs.discard.isSome → unflushed = []) :
    feedLoop cs unflushed bytes =
      ((Transducer.run feedByte cs bytes).1, unflushed.map .vte ++ (Transducer.run feedByte cs bytes).2) := by
  induction bytes generalizing cs unflushed with
  | nil => simp [feedLoop]
  | cons byte rest ih =>
    have kept : (cs.visit byte).2 = .keep ∨ (cs.visit byte).2 = .forward → (cs.visit byte).1.discard = none := by
      rcases cs.visit_cases byte with ⟨_, _, h⟩ | ⟨_, _, _, _, h⟩ | ⟨_, _, h⟩ | ⟨_, h⟩ <;> simp [h]
    have dropped : (cs.visit byte).2 = .forward ∨ (cs.visit byte).2 = .swallow → unflushed = [] := by
      rcases cs.visit_cases byte with ⟨_, h, _⟩ | ⟨_, _, _, _, h⟩ | ⟨h, _⟩ | ⟨h, _⟩ <;> simp [h, tail]
    rw [Transducer.run_cons, feedByte]
    rcases visited : cs.visit byte with ⟨next, fate⟩
    simp only [visited] at kept dropped
    cases fate with
    | keep => simp [feedLoop, visited, ih, kept, ControlString.Fate.wires]
    | forward => simp [feedLoop, visited, ih, kept, dropped, ControlString.Fate.wires]
    | swallow => simp [feedLoop, visited, ih, dropped, ControlString.Fate.wires]
    | refuse kind => simp [feedLoop, visited, ih, ControlString.Fate.wires]

theorem feedVte_eq_run (cs : ControlString) (bytes : List UInt8) :
    feedVte cs bytes = Transducer.run feedByte cs bytes := by
  rw [feedVte, feedLoop_eq_run cs [] bytes (fun _ => rfl)]
  rfl

end Bitty.Vt
