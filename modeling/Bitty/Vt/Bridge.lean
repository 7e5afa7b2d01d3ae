import Bitty.Vt.ControlString
import Bitty.Vt.Kitty.Control

namespace Bitty.Vt

/-- CSI and DCS parameters: each one with its sub-parameters. -/
abbrev Params := List (List Nat)

inductive VteEvent
  | print (c : Char)
  | execute (byte : UInt8)
  | csiDispatch (params : Params) (intermediates : List UInt8) (ignore : Bool) (action : Char)
  | escDispatch (intermediates : List UInt8) (ignore : Bool) (byte : UInt8)
  | oscDispatch (params : List (List UInt8)) (bellTerminated : Bool)
  | hook (params : Params) (intermediates : List UInt8) (ignore : Bool) (action : Char)
  | put (byte : UInt8)
  | unhook
  deriving DecidableEq

/-- The `vte` crate, of which only its byte-stream interface is used. -/
abbrev Vte := StreamMachine UInt8 VteEvent

structure Meaning where
  csiDispatch : Params → List UInt8 → Bool → Char → List TerminalAction
  oscDispatch : List (List UInt8) → Bool → List TerminalAction
  decodeSixel : List UInt8 → SixelParams → Except SixelReject SixelImage

def SIXEL_MAX_PAYLOAD_BYTES : Nat := 4 * 1024 * 1024

structure SixelCapture where
  payload : List UInt8 := []
  params : SixelParams := {}
  active : Bool := false
  overflow : Bool := false

namespace SixelCapture

def begin (_ : SixelCapture) (params : SixelParams) : SixelCapture := { params, active := true }

def put (c : SixelCapture) (byte : UInt8) : SixelCapture :=
  if !c.active || c.overflow then c
  else if c.payload.length ≥ SIXEL_MAX_PAYLOAD_BYTES then { c with overflow := true }
  else { c with payload := c.payload ++ [byte] }

def refuse (c : SixelCapture) : SixelCapture := if c.active then { c with overflow := true } else c

def abort (c : SixelCapture) : SixelCapture := { c with active := false, overflow := false, payload := [] }

end SixelCapture

/-- The device-control string opened by `hook` and closed by `unhook`. -/
structure PendingDcs where
  active : Bool := false
  finalByte : UInt8 := 0
  intermediates : UInt8 × UInt8 := (0, 0)
  fontQuery : Bool := false
  fontPayload : List UInt8 := []
  fontOverflow : Bool := false
  sixel : SixelCapture := {}

namespace Bridge

/-- `u8::try_from(u32::from(action)).unwrap_or(0)`. -/
def byteOf (action : Char) : UInt8 := if action.toNat < 256 then UInt8.ofNat action.toNat else 0

def packIntermediates (intermediates : List UInt8) : UInt8 × UInt8 :=
  (intermediates.getD 0 0, intermediates.getD 1 0)

def unknownEsc (intermediates : List UInt8) (byte : UInt8) : TerminalAction :=
  .unknown { kind := .esc, finalByte := byte, intermediates := packIntermediates intermediates }

def execute (byte : UInt8) : TerminalAction :=
  if byte = 0x0E then .invokeCharset .g1
  else if byte = 0x0F then .invokeCharset .g0
  else .printControl byte

def charsetTable (byte : UInt8) : Option CharsetTable :=
  if byte = 0x42 then some .ascii
  else if byte = 0x41 then some .unitedKingdom
  else if byte = 0x30 then some .decSpecialGraphics
  else none

def charsetSlot (designator : UInt8) : Option CharsetSlot :=
  if designator = 0x28 then some .g0
  else if designator = 0x29 then some .g1
  else if designator = 0x2A then some .g2
  else if designator = 0x2B then some .g3
  else none

def escPlain (byte : UInt8) : List TerminalAction :=
  match charOf byte with
  | '7' => [.cursorSave]
  | '8' => [.cursorRestore]
  | 'c' => [.fullReset]
  | 'H' => [.tabSet]
  | 'D' => [.printControl 0x84]
  | 'E' => [.printControl 0x85]
  | 'M' => [.printControl 0x8D]
  | '=' => [.setMode .applicationKeypad true]
  | '>' => [.setMode .applicationKeypad false]
  | 'N' => [.singleShiftCharset .g2]
  | 'O' => [.singleShiftCharset .g3]
  | 'n' => [.invokeCharset .g2]
  | 'o' => [.invokeCharset .g3]
  | 'Z' => [.requestDeviceStatus .deviceAttributes]
  | '\\' => []
  | _ => [unknownEsc [] byte]

def escDispatch (intermediates : List UInt8) (ignore : Bool) (byte : UInt8) : List TerminalAction :=
  if ignore then [unknownEsc intermediates byte]
  else match intermediates with
    | [] => escPlain byte
    | [designator] =>
      match charsetTable byte, charsetSlot designator with
      | some table, some slot => [.selectCharset slot table]
      | _, _ => [unknownEsc intermediates byte]
    | _ => [unknownEsc intermediates byte]

def hook (dcs : PendingDcs) (params : Params) (intermediates : List UInt8) (ignore : Bool) (action : Char) :
    PendingDcs × List TerminalAction :=
  let finalByte := byteOf action
  let packed := packIntermediates intermediates
  if ignore then
    ({ dcs with
        active := false, fontQuery := false, fontPayload := [], fontOverflow := false, sixel := dcs.sixel.abort },
      [.unknown { kind := .dcs, finalByte, intermediates := packed }])
  else
    let capture := dcs.sixel.abort
    let sixel :=
      if intermediates = [] ∧ finalByte = 0x71 then
        capture.begin {
          aspect := ((params[0]?).bind List.head?).getD 0
          transparent := ((params[1]?).bind List.head?).getD 0 = 1 }
      else capture
    ({ active := true, finalByte, intermediates := packed
       fontQuery := intermediates = [0x2B] ∧ finalByte = 0x71
       fontPayload := [], fontOverflow := false, sixel }, [])

def put (dcs : PendingDcs) (byte : UInt8) : PendingDcs :=
  if !dcs.active then dcs
  else if dcs.sixel.active then { dcs with sixel := dcs.sixel.put byte }
  else if !dcs.fontQuery then dcs
  else if dcs.fontPayload.length < KITTY_FONT_QUERY_WIRE_MAX_BYTES then
    { dcs with fontPayload := dcs.fontPayload ++ [byte] }
  else { dcs with fontOverflow := true }

/-- What a captured `+q` payload asks for. -/
def classifyCapture (dcs : PendingDcs) : DcsQueryClass :=
  if dcs.fontOverflow then
    if dcs.fontPayload = [] ∨ looksLikeKittyFontQuery dcs.fontPayload then .reservedFont else .xtgettcap
  else classifyDcsQueryBody dcs.fontPayload

variable (m : Meaning)

def finishSixel (c : SixelCapture) : SixelCapture × TerminalAction :=
  if c.overflow then
    ({ c with active := false, payload := [] }, .sixelRejected (.payloadTooLarge c.payload.length))
  else
    ({ c with active := false },
      match m.decodeSixel c.payload c.params with
      | .ok image => .sixelGraphics image
      | .error reason => .sixelRejected reason)

def unhook (dcs : PendingDcs) : PendingDcs × List TerminalAction :=
  if !dcs.active then (dcs, [])
  else if dcs.sixel.active then
    ({ dcs with active := false, sixel := (finishSixel m dcs.sixel).1 }, [(finishSixel m dcs.sixel).2])
  else
    let reported : TerminalAction :=
      .unknown { kind := .dcs, finalByte := dcs.finalByte, intermediates := dcs.intermediates }
    if dcs.fontQuery then
      let closed := { dcs with active := false, fontQuery := false, fontPayload := [], fontOverflow := false }
      match classifyCapture dcs with
      | .font query => (closed, [.kittyFontQuery query])
      | .reservedFont => (closed, [])
      | .xtgettcap => (closed, [reported])
    else ({ dcs with active := false }, [reported])

/-- The `Perform` implementation. -/
def perform (dcs : PendingDcs) : VteEvent → PendingDcs × List TerminalAction
  | .print c => (dcs, [.print c])
  | .execute byte => (dcs, [execute byte])
  | .csiDispatch params intermediates ignore action => (dcs, m.csiDispatch params intermediates ignore action)
  | .escDispatch intermediates ignore byte => (dcs, escDispatch intermediates ignore byte)
  | .oscDispatch params bellTerminated => (dcs, m.oscDispatch params bellTerminated)
  | .hook params intermediates ignore action => hook dcs params intermediates ignore action
  | .put byte => (put dcs byte, [])
  | .unhook => unhook m dcs

@[simp] theorem escDispatch_st : escDispatch [] false 0x5C = [] := by decide

end Bridge

structure Backend (V : Vte) where
  stateMachine : V.State
  dcs : PendingDcs

namespace Backend

variable {V : Vte} (m : Meaning)

def advance (b : Backend V) (bytes : List UInt8) : Backend V × List TerminalAction :=
  let fed := V.advance b.stateMachine bytes
  let performed := Transducer.run (Bridge.perform m) b.dcs fed.2
  (⟨fed.1, performed.1⟩, performed.2)

def execute (b : Backend V) : Wire → Backend V × List TerminalAction
  | .vte byte => b.advance m [byte]
  | .refuseSixel => ({ b with dcs := { b.dcs with sixel := b.dcs.sixel.refuse } }, [])
  | .emit action => (b, [action])

def new (V : Vte) : Backend V := ⟨V.init, {}⟩

theorem run_vte (b : Backend V) (bytes : List UInt8) :
    Transducer.run (execute m) b (bytes.map .vte) = b.advance m bytes := by
  induction bytes generalizing b with
  | nil => simp [advance, V.advance_nil]
  | cons byte rest ih =>
    rw [List.map_cons, Transducer.run_cons, ih, execute]
    have cut := V.advance_append b.stateMachine [byte] rest
    rw [List.singleton_append] at cut
    simp [advance, cut, Transducer.run_append]

end Backend

end Bitty.Vt

namespace Bitty.Vt

namespace PendingDcs

/-- Two device-control strings that no callback can tell apart: what is not open does not count. -/
structure Alike (a b : PendingDcs) : Prop where
  active : a.active = b.active
  sixelActive : a.sixel.active = b.sixel.active
  fields : a.active = true → a.finalByte = b.finalByte ∧ a.intermediates = b.intermediates ∧
    a.fontQuery = b.fontQuery ∧ a.fontPayload = b.fontPayload ∧ a.fontOverflow = b.fontOverflow
  sixel : a.sixel.active = true → a.sixel = b.sixel

theorem Alike.refl (a : PendingDcs) : Alike a a := ⟨rfl, rfl, fun _ => ⟨rfl, rfl, rfl, rfl, rfl⟩, fun _ => rfl⟩

variable {a b : PendingDcs}

theorem Alike.trans {c : PendingDcs} (first : Alike a b) (second : Alike b c) : Alike a c where
  active := first.active.trans second.active
  sixelActive := first.sixelActive.trans second.sixelActive
  fields active := by
    obtain ⟨final, between, query, payload, overflow⟩ := first.fields active
    obtain ⟨final', between', query', payload', overflow'⟩ := second.fields (first.active ▸ active)
    exact ⟨final.trans final', between.trans between', query.trans query', payload.trans payload', overflow.trans overflow'⟩
  sixel capturing := (first.sixel capturing).trans (second.sixel (first.sixelActive ▸ capturing))

structure Idle (a : PendingDcs) : Prop where
  active : a.active = false
  sixel : a.sixel.active = false

theorem Idle.alike (left : a.Idle) (right : b.Idle) : Alike a b :=
  ⟨by rw [left.active, right.active], by rw [left.sixel, right.sixel], by simp [left.active], by simp [left.sixel]⟩

theorem Alike.refuse (alike : Alike a b) :
    Alike { a with sixel := a.sixel.refuse } { b with sixel := b.sixel.refuse } := by
  cases capturing : a.sixel.active with
  | true =>
    have same := alike.sixel capturing
    exact ⟨alike.active, by rw [same], alike.fields, fun _ => by simp [same]⟩
  | false =>
    have closed : b.sixel.active = false := by rw [← alike.sixelActive, capturing]
    simpa [SixelCapture.refuse, capturing, closed] using alike

end PendingDcs

namespace Bridge

variable {m : Meaning} {a b : PendingDcs}

theorem alike_hook (params : Params) (intermediates : List UInt8) (ignore : Bool) (action : Char) :
    PendingDcs.Alike (hook a params intermediates ignore action).1 (hook b params intermediates ignore action).1 ∧
      (hook a params intermediates ignore action).2 = (hook b params intermediates ignore action).2 := by
  unfold hook
  cases ignore with
  | true => exact ⟨⟨rfl, rfl, nofun, nofun⟩, rfl⟩
  | false =>
    refine ⟨⟨rfl, ?_, fun _ => ⟨rfl, rfl, rfl, rfl, rfl⟩, ?_⟩, rfl⟩
    · simp only [Bool.false_eq_true, if_false]
      split_ifs <;> rfl
    · simp only [Bool.false_eq_true, if_false]
      split_ifs
      · exact fun _ => rfl
      · exact nofun

theorem alike_put (alike : PendingDcs.Alike a b) (byte : UInt8) : PendingDcs.Alike (put a byte) (put b byte) := by
  unfold put
  rw [← alike.active, ← alike.sixelActive]
  cases active : a.active with
  | false => simpa using alike
  | true =>
    obtain ⟨final, between, query, payload, overflow⟩ := alike.fields active
    cases capturing : a.sixel.active with
    | true =>
      have same := alike.sixel capturing
      simp only [Bool.not_true, Bool.false_eq_true, if_false, if_true, same]
      exact ⟨rfl, rfl, fun _ => ⟨final, between, query, payload, overflow⟩, fun _ => rfl⟩
    | false =>
      simp only [Bool.not_true, Bool.false_eq_true, if_false, ← query, ← payload]
      split_ifs
      · exact alike
      · exact ⟨rfl, alike.sixelActive, fun _ => ⟨final, between, rfl, rfl, overflow⟩, alike.sixel⟩
      · exact ⟨rfl, alike.sixelActive, fun _ => ⟨final, between, rfl, rfl, rfl⟩, alike.sixel⟩

theorem alike_unhook (alike : PendingDcs.Alike a b) :
    PendingDcs.Alike (unhook m a).1 (unhook m b).1 ∧ (unhook m a).2 = (unhook m b).2 := by
  unfold unhook
  rw [← alike.active, ← alike.sixelActive]
  cases active : a.active with
  | false => exact ⟨by simpa using alike, rfl⟩
  | true =>
    obtain ⟨final, between, query, payload, overflow⟩ := alike.fields active
    cases capturing : a.sixel.active with
    | true =>
      have same := alike.sixel capturing
      simp only [Bool.not_true, Bool.false_eq_true, if_false, if_true, same]
      exact ⟨⟨rfl, rfl, nofun, fun _ => rfl⟩, trivial⟩
    | false =>
      have classified : classifyCapture a = classifyCapture b := by rw [classifyCapture, classifyCapture, payload, overflow]
      simp only [Bool.not_true, Bool.false_eq_true, if_false, ← query, ← classified, final, between]
      split_ifs
      · split <;> exact ⟨⟨rfl, alike.sixelActive, nofun, alike.sixel⟩, rfl⟩
      · exact ⟨⟨rfl, alike.sixelActive, nofun, alike.sixel⟩, rfl⟩

theorem alike_perform (alike : PendingDcs.Alike a b) (event : VteEvent) :
    PendingDcs.Alike (perform m a event).1 (perform m b event).1 ∧ (perform m a event).2 = (perform m b event).2 := by
  cases event with
  | hook params intermediates ignore action => exact alike_hook params intermediates ignore action
  | put byte => exact ⟨alike_put alike byte, rfl⟩
  | unhook => exact alike_unhook alike
  | _ => exact ⟨alike, rfl⟩

end Bridge

namespace Backend

variable {V : Vte} {m : Meaning}

/-- Two backends no stream can tell apart. -/
structure Alike (a b : Backend V) : Prop where
  machine : V.TraceEq a.stateMachine b.stateMachine
  dcs : a.dcs.Alike b.dcs

theorem Alike.refl (a : Backend V) : Alike a a := ⟨.refl _, .refl _⟩

variable {a b : Backend V}

theorem Alike.trans {c : Backend V} (first : Alike a b) (second : Alike b c) : Alike a c :=
  ⟨first.machine.trans second.machine, first.dcs.trans second.dcs⟩

theorem Alike.advance_of_events {xs ys : List UInt8}
    (events : (V.advance a.stateMachine xs).2 = (V.advance b.stateMachine ys).2)
    (later : V.TraceEq (V.advance a.stateMachine xs).1 (V.advance b.stateMachine ys).1)
    (dcs : a.dcs.Alike b.dcs) :
    Alike (a.advance m xs).1 (b.advance m ys).1 ∧ (a.advance m xs).2 = (b.advance m ys).2 := by
  have performed (c d : PendingDcs) (event : VteEvent) (alike : c.Alike d) := Bridge.alike_perform (m := m) alike event
  obtain ⟨alike, same⟩ := Transducer.run_simulation performed dcs (V.advance b.stateMachine ys).2
  simp only [Backend.advance, events]
  exact ⟨⟨later, alike⟩, same⟩

theorem Alike.advance (alike : Alike a b) (bytes : List UInt8) :
    Alike (a.advance m bytes).1 (b.advance m bytes).1 ∧ (a.advance m bytes).2 = (b.advance m bytes).2 :=
  Alike.advance_of_events (alike.machine bytes) (alike.machine.advance bytes) alike.dcs

theorem Alike.execute (alike : Alike a b) (wire : Wire) :
    Alike (a.execute m wire).1 (b.execute m wire).1 ∧ (a.execute m wire).2 = (b.execute m wire).2 := by
  cases wire with
  | vte byte => exact alike.advance [byte]
  | refuseSixel => exact ⟨⟨alike.machine, alike.dcs.refuse⟩, rfl⟩
  | emit action => exact ⟨alike, rfl⟩

theorem Alike.run (alike : Alike a b) (wires : List Wire) :
    Alike (Transducer.run (Backend.execute m) a wires).1 (Transducer.run (Backend.execute m) b wires).1 ∧
      (Transducer.run (Backend.execute m) a wires).2 = (Transducer.run (Backend.execute m) b wires).2 :=
  Transducer.run_simulation (fun _ _ wire related => related.execute wire) alike wires

end Backend

end Bitty.Vt
