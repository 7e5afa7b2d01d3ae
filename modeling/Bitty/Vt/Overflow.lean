import Bitty.Vt.Sync

namespace Bitty.Vt

namespace PendingDcs

def Nested (a : PendingDcs) : Prop := a.sixel.active = true → a.active = true

variable {a : PendingDcs}

theorem Nested.idle (nested : a.Nested) (shut : a.active = false) : a.Idle :=
  ⟨shut, Bool.eq_false_iff.mpr fun capturing => by simp [nested capturing] at shut⟩

theorem Nested.perform (nested : a.Nested) (m : Meaning) (event : VteEvent) :
    (Bridge.perform m a event).1.Nested := by
  cases event with
  | hook params intermediates ignore action =>
    intro capturing
    simp only [Bridge.perform, Bridge.hook] at capturing ⊢
    cases ignore with
    | true => simp [SixelCapture.abort] at capturing
    | false => rfl
  | put byte =>
    intro capturing
    simp only [Bridge.perform, Bridge.put] at capturing ⊢
    split_ifs at capturing ⊢
    · exact nested capturing
    · simp_all
    · exact nested capturing
    · exact nested capturing
    · exact nested capturing
  | unhook =>
    intro capturing
    simp only [Bridge.perform, Bridge.unhook] at capturing ⊢
    split_ifs at capturing ⊢ with shut sixel query
    · exact nested capturing
    · simp only [Bridge.finishSixel] at capturing
      split_ifs at capturing
    · split at capturing <;> exact absurd capturing sixel
    · exact absurd capturing sixel
  | _ => exact nested

theorem perform_shut (shut : a.active = false) (m : Meaning) {event : VteEvent}
    (noHook : event.isHook = false) : (Bridge.perform m a event).1.active = false := by
  cases event with
  | hook => exact Bool.noConfusion noHook
  | put byte => simp [Bridge.perform, Bridge.put, shut]
  | unhook => simp [Bridge.perform, Bridge.unhook, shut]
  | _ => exact shut

theorem unhook_shut (a : PendingDcs) (m : Meaning) : (Bridge.unhook m a).1.active = false := by
  unfold Bridge.unhook
  split_ifs with shut
  · simpa using shut
  · rfl
  · dsimp only
    split <;> rfl
  · rfl

theorem run_shut (shut : a.active = false) (m : Meaning) {events : List VteEvent}
    (noHook : ∀ e ∈ events, e.isHook = false) : (Transducer.run (Bridge.perform m) a events).1.active = false := by
  induction events generalizing a with
  | nil => exact shut
  | cons e events ih =>
    exact ih (perform_shut shut m (noHook e List.mem_cons_self)) (fun e later => noHook e (List.mem_cons_of_mem _ later))

theorem run_nested (nested : a.Nested) (m : Meaning) (events : List VteEvent) :
    (Transducer.run (Bridge.perform m) a events).1.Nested :=
  Transducer.run_invariant (fun _ event nested => nested.perform m event) nested events

end PendingDcs

namespace Backend

variable {V : Vte} (doc : Documented V) {m : Meaning}

/-- A device-control string is open in the bridge only while `vte` passes one through. -/
structure Closed (b : Backend V) : Prop where
  nested : b.dcs.Nested
  open_only : b.dcs.active = true → doc.mode b.stateMachine = .dcsPassthrough

variable {b : Backend V}

theorem Closed.idle (closed : b.Closed doc) (outside : doc.mode b.stateMachine ≠ .dcsPassthrough) : b.dcs.Idle :=
  closed.nested.idle (Bool.eq_false_iff.mpr fun active => outside (closed.open_only active))

theorem Closed.advance (closed : b.Closed doc) (byte : UInt8) : (b.advance m [byte]).1.Closed doc := by
  refine ⟨PendingDcs.run_nested closed.nested m _, fun active => ?_⟩
  by_contra left
  have leaves : (doc.mode b.stateMachine).next byte ≠ .dcsPassthrough := by rwa [← doc.mode_step]
  suffices shut : (b.advance m [byte]).1.dcs.active = false by simp [shut] at active
  by_cases inside : doc.mode b.stateMachine = .dcsPassthrough
  · obtain ⟨later, events, noHook⟩ := doc.unhook_leaves _ _ inside leaves
    change (Transducer.run (Bridge.perform m) b.dcs (V.step b.stateMachine byte).2).1.active = false
    rw [events, Transducer.run_cons_fst]
    exact PendingDcs.run_shut (PendingDcs.unhook_shut b.dcs m) m noHook
  · refine PendingDcs.run_shut (closed.idle doc inside).active m fun e member => ?_
    exact Bool.eq_false_iff.mpr fun hook => leaves (doc.hook_enters _ _ ⟨e, member, hook⟩)

theorem Closed.run (closed : b.Closed doc) (wires : List Wire) :
    (Transducer.run (Backend.execute m) b wires).1.Closed doc := by
  have executed (b : Backend V) (wire : Wire) (closed : b.Closed doc) : (b.execute m wire).1.Closed doc := ?_
  · exact Transducer.run_invariant executed closed wires
  cases wire with
  | vte byte => exact closed.advance doc byte
  | refuseSixel =>
    have same : b.dcs.sixel.refuse.active = b.dcs.sixel.active := by
      unfold SixelCapture.refuse
      split_ifs <;> rfl
    exact ⟨fun capturing => closed.nested (same.symm.trans capturing), closed.open_only⟩
  | emit action => exact closed

end Backend

variable {V : Vte}

theorem Parser.Reachable.closed (doc : Documented V) {inflate : List UInt8 → Nat → Inflated} {m : Meaning}
    {p : Parser V} (reach : Reachable inflate m p) : p.back.Closed doc := by
  induction reach with
  | new => exact ⟨nofun, nofun⟩
  | withLedgerCap cap => exact ⟨nofun, nofun⟩
  | advance bytes _ ih => exact ih.run doc _

namespace ControlString

/-- Two trackers that forward every stream alike: what was kept of a closed string does not count. -/
structure Alike (a b : ControlString) : Prop where
  state : a.state = b.state
  discard : a.discard = b.discard
  fields : a.state.isString = true ∨ a.discard.isSome = true →
    a.bytes = b.bytes ∧ a.kind = b.kind ∧ a.dcsHeader = b.dcsHeader ∧ a.dcsHooked = b.dcsHooked

theorem visit_apc (cs : ControlString) (apcBytes : Nat) (apcRefused : Bool) (byte : UInt8) :
    visit { cs with apcBytes, apcRefused } byte =
      ({ (cs.visit byte).1 with apcBytes, apcRefused }, (cs.visit byte).2) := by
  unfold visit
  split
  · split <;> simp_all [endVteString]
  · simp only [trackDcsHeader_eq]
    split_ifs <;> simp_all [endVteString, beginVteString]

theorem Alike.feedByte {a b : ControlString} (alike : a.Alike b) (byte : UInt8) :
    (Vt.feedByte a byte).1.Alike (Vt.feedByte b byte).1 ∧ (Vt.feedByte a byte).2 = (Vt.feedByte b byte).2 := by
  by_cases held : a.state.isString = true ∨ a.discard.isSome = true
  · obtain ⟨bytes, kind, header, hooked⟩ := alike.fields held
    have same : b = { a with apcBytes := b.apcBytes, apcRefused := b.apcRefused } := by
      rw [alike.state, alike.discard, bytes, kind, header, hooked]
    rw [same, Vt.feedByte, Vt.feedByte, a.visit_apc b.apcBytes b.apcRefused byte]
    exact ⟨⟨rfl, rfl, fun _ => ⟨rfl, rfl, rfl, rfl⟩⟩, rfl⟩
  · obtain ⟨outside, undiscarded⟩ := not_or.mp held
    have other : a.state ≠ .other := fun other => outside (by rw [other]; rfl)
    simp only [Bool.not_eq_true, Option.isSome_eq_false_iff, Option.isNone_iff_eq_none] at outside undiscarded
    unfold Vt.feedByte visit
    rw [← alike.discard, ← alike.state]
    simp only [undiscarded, outside, other, false_and, if_false, Bool.false_eq_true, not_false_eq_true, if_true]
    split_ifs with opens
    · exact ⟨⟨rfl, alike.discard, fun _ => ⟨rfl, rfl, rfl, rfl⟩⟩, rfl⟩
    · exact ⟨⟨rfl, rfl, fun held => absurd held (by simp [opens])⟩, rfl⟩

theorem Alike.feedVte {a b : ControlString} (alike : a.Alike b) (bytes : List UInt8) :
    (Vt.feedVte a bytes).2 = (Vt.feedVte b bytes).2 := by
  rw [feedVte_eq_run, feedVte_eq_run]
  exact (Transducer.run_simulation (fun _ _ byte related => related.feedByte byte) alike bytes).2

variable {cs : ControlString}

theorem visit_kind (undiscarded : cs.discard = none) (inside : cs.state.isString = true)
    (byte : UInt8) : (cs.visit byte).1.kind = cs.kind := by
  have tracked : ∀ cs : ControlString, (cs.trackDcsHeader byte).kind = cs.kind := fun cs => by rw [trackDcsHeader_eq]
  unfold visit
  simp only [undiscarded, inside, not_true_eq_false, if_false]
  split_ifs <;> first | rfl | exact tracked _

variable {mode : VteMode} {body : List UInt8}

theorem Shadows.fill (shadows : cs.Shadows mode 0) (open' : mode.isString = true)
    (inside : Stream.Each (fun before b => ((before ++ [b]).foldl VteMode.next mode).isString = true) body)
    (room : body.length ≤ CONTROL_STRING_MAX_BYTES) :
    (Transducer.run Vt.feedByte cs body).1.Shadows (body.foldl VteMode.next mode) body.length ∧
      (body.foldl VteMode.next mode).isString = true ∧
      (Transducer.run Vt.feedByte cs body).1.kind = cs.kind ∧ (Transducer.run Vt.feedByte cs body).2 = body.map .vte := by
  induction body using List.reverseRecOn with
  | nil => exact ⟨shadows, open', rfl, rfl⟩
  | append_singleton body b ih =>
    obtain ⟨before, here⟩ := Stream.each_concat.mp inside
    rw [List.length_append, List.length_singleton] at room
    obtain ⟨filled, string, kind, wires⟩ := ih before (by omega)
    rw [List.foldl_append, List.foldl_cons, List.foldl_nil] at here
    have counted : (bodyStep (body.foldl VteMode.next mode, body.length) b).2 = body.length + 1 := by
      simp [bodyStep, string, here]
    obtain ⟨next, forwarded⟩ := filled.step (VteMode.not_slip string b) (counted ▸ room)
    rw [counted] at next
    have same := visit_kind filled.undiscarded (filled.agrees.string.trans string) b
    rw [Transducer.run_append, Transducer.run_singleton, List.foldl_append, List.length_append, List.map_append, wires,
      forwarded]
    exact ⟨next, here, same.trans kind, rfl⟩

/-- What stands in for `vte` in the tail of a refused string. -/
structure Discards (cs : ControlString) (mode : VteMode) : Prop where
  state : cs.state = .ground
  discard : cs.discard = some mode.collapsed
  hooked : cs.dcsHooked = true → mode = .dcsPassthrough

theorem discardEndsAt_stays (mode : VteMode) (hooked : Bool) (b : UInt8) : mode.isString = true →
    (mode.next b).isString = true → (hooked = true → mode = .dcsPassthrough) →
    mode.collapsed.discardEndsAt hooked b = none := by
  cases mode <;> grind [VteMode.next, VteMode.anywhere, VteMode.isString, VteMode.collapsed, VteString.discardEndsAt]

theorem discardEndsAt_leaves (mode : VteMode) (hooked : Bool) (b : UInt8) : mode.isString = true →
    (mode.next b).isString = false → mode.collapsed.discardEndsAt hooked b =
      if b = 0x1B then some true else if b = 0x9C ∧ hooked = false then none else some false := by
  cases mode <;> grind [VteMode.next, VteMode.anywhere, VteMode.isString, VteMode.collapsed, VteString.discardEndsAt]

theorem next_passthrough (b : UInt8) : (VteMode.dcsPassthrough.next b).isString = true →
    VteMode.dcsPassthrough.next b = .dcsPassthrough := by
  grind [VteMode.next, VteMode.anywhere, VteMode.isString]

theorem Discards.tail (discards : cs.Discards mode) {b : UInt8}
    (inside : mode.isString = true) (stays : (mode.next b).isString = true) :
    cs.Discards (mode.next b) ∧ Vt.feedByte cs b = (cs, []) := by
  have same := VteMode.collapsed_next_string mode b inside stays
  have never := discardEndsAt_stays mode cs.dcsHooked b inside stays discards.hooked
  refine ⟨⟨discards.state, by rw [discards.discard, same], fun hooked => ?_⟩, ?_⟩
  · obtain rfl := discards.hooked hooked
    exact next_passthrough b stays
  · rw [Vt.feedByte, visit_discarding b discards.discard, never]
    rfl

theorem Discards.tails (discards : cs.Discards mode) (inString : mode.isString = true)
    (inside : Stream.Each (fun before b => ((before ++ [b]).foldl VteMode.next mode).isString = true) body) :
    cs.Discards (body.foldl VteMode.next mode) ∧ (body.foldl VteMode.next mode).isString = true ∧
      Transducer.run Vt.feedByte cs body = (cs, []) := by
  induction body using List.reverseRecOn with
  | nil => exact ⟨discards, inString, rfl⟩
  | append_singleton body b ih =>
    obtain ⟨before, here⟩ := Stream.each_concat.mp inside
    rw [List.foldl_append, List.foldl_cons, List.foldl_nil] at here
    obtain ⟨discards, string, quiet⟩ := ih before
    obtain ⟨next, swallowed⟩ := discards.tail string here
    rw [Transducer.run_append, Transducer.run_singleton, List.foldl_append, quiet, swallowed]
    exact ⟨next, here, rfl⟩

theorem Discards.leave (discards : cs.Discards mode) {b : UInt8}
    (inside : mode.isString = true) (leaves : (mode.next b).isString = false) :
    Vt.feedByte cs b =
      if b = 0x1B then ({ cs.endVteString with state := .escape, discard := none }, [.vte 0x1B])
      else if b = 0x9C ∧ cs.dcsHooked = false then (cs, [])
      else ({ cs.endVteString with discard := none }, []) := by
  rw [Vt.feedByte, visit_discarding b discards.discard, discardEndsAt_leaves mode _ b inside leaves]
  split_ifs with escape
  · subst escape
    rfl
  · rfl
  · rfl

theorem introducer_isString {b : UInt8} (opens : VteMode.Introducer b) : (VteMode.escape.next b).isString = true := by
  rcases opens with rfl | rfl | rfl | rfl | rfl <;> rfl

theorem Shadows.spill (shadows : cs.Shadows mode CONTROL_STRING_MAX_BYTES)
    (inString : mode.isString = true) {b : UInt8} {rest : List UInt8}
    (inside : Stream.Each (fun before c => ((before ++ [c]).foldl VteMode.next mode).isString = true) (b :: rest)) :
    ∃ past : ControlString, Transducer.run Vt.feedByte cs (b :: rest) = (past, refusal cs.kind) ∧
      past.Discards ((b :: rest).foldl VteMode.next mode) ∧ past.dcsHooked = cs.dcsHooked ∧
      ((b :: rest).foldl VteMode.next mode).isString = true := by
  rw [← List.singleton_append] at inside
  obtain ⟨first, later⟩ := inside.append
  have stays : (mode.next b).isString = true := first [] b List.prefix_rfl
  have refused := shadows.overflow inString stays
  have past : Discards { cs with state := .ground, bytes := 0, discard := some mode.collapsed } (mode.next b) := by
    refine ⟨rfl, congrArg some (VteMode.collapsed_next_string _ b inString stays).symm, fun hooked => ?_⟩
    have passing := of_decide_eq_true (shadows.hooked.symm.trans hooked)
    rw [passing] at stays ⊢
    exact next_passthrough b stays
  obtain ⟨discards, string, quiet⟩ := past.tails stays later
  refine ⟨{ cs with state := .ground, bytes := 0, discard := some mode.collapsed }, ?_, discards, rfl, string⟩
  rw [Transducer.run_cons, Vt.feedByte, refused, quiet]
  rfl

theorem overlong (state : cs.state = .escape) (undiscarded : cs.discard = none)
    {introducer : UInt8} (opens : VteMode.Introducer introducer)
    (inside : Stream.Each (fun before b => ((introducer :: before ++ [b]).foldl VteMode.next .escape).isString = true) body)
    (long : CONTROL_STRING_MAX_BYTES < body.length) :
    ∃ past : ControlString, feedVte cs (introducer :: body) =
        (past, (introducer :: body.take CONTROL_STRING_MAX_BYTES).map .vte ++ refusal (kindOfIntroducer introducer)) ∧
      past.Discards ((introducer :: body).foldl VteMode.next .escape) ∧
      past.dcsHooked =
        ((introducer :: body.take CONTROL_STRING_MAX_BYTES).foldl VteMode.next .escape = .dcsPassthrough : Bool) ∧
      ((introducer :: body).foldl VteMode.next .escape).isString = true ∧
      ((introducer :: body.take CONTROL_STRING_MAX_BYTES).foldl VteMode.next .escape).isString = true := by
  obtain ⟨b, rest, split⟩ := List.exists_cons_of_ne_nil (List.drop_eq_nil_iff.not.mpr (Nat.not_le.mpr long))
  have whole := List.take_append_drop CONTROL_STRING_MAX_BYTES body
  have fits : (body.take CONTROL_STRING_MAX_BYTES).length = CONTROL_STRING_MAX_BYTES :=
    List.length_take_of_le (Nat.le_of_lt long)
  rw [split] at whole
  generalize body.take CONTROL_STRING_MAX_BYTES = head at whole fits
  subst whole
  obtain ⟨headInside, restInside⟩ := inside.append
  obtain ⟨filled, string, kind, wires⟩ := (Shadows.open undiscarded opens).fill (introducer_isString opens)
    headInside (Nat.le_of_eq fits)
  rw [fits] at filled
  obtain ⟨past, run, discards, hooked, tailString⟩ := filled.spill string (fun before c here => by
    simpa using restInside before c here)
  refine ⟨past, ?_, ?_, hooked.trans filled.hooked, ?_, string⟩
  · rw [feedVte_eq_run, Transducer.run_cons, feedByte_open state undiscarded opens, Transducer.run_append, run, wires, kind]
    simp [beginVteString]
  · rwa [List.foldl_cons, List.foldl_append]
  · rwa [List.foldl_cons, List.foldl_append]

end ControlString

def Wire.isEmit : Wire → Bool
  | .emit _ => true
  | _ => false

/-- `feed_vte` with the machine behind it. -/
def through {V : Vte} (m : Meaning) (s : ControlString × Backend V) (bytes : List UInt8) :
    (ControlString × Backend V) × List TerminalAction :=
  let fed := feedVte s.1 bytes
  let done := Transducer.run (Backend.execute m) s.2 fed.2
  ((fed.1, done.1), done.2)

/-- The states `feed_vte` runs in: that of a parser between two calls, at the end of its `APC` or
with its candidate abandoned, and what any of these becomes with more bytes. -/
inductive Feeding {V : Vte} (inflate : List UInt8 → Nat → Inflated) (m : Meaning) : ControlString × Backend V → Prop
  | between {p : Parser V} : Parser.Reachable inflate m p → Feeding inflate m (p.intake.front.controlString, p.back)
  | endApc {p : Parser V} : Parser.Reachable inflate m p → Feeding inflate m (p.intake.front.controlString.endApc, p.back)
  | endDiversion {p : Parser V} : Parser.Reachable inflate m p → p.intake.front.iterm2.isActive = true →
      Feeding inflate m (p.intake.front.controlString.endDiversion, p.back)
  | feed {s : ControlString × Backend V} (bytes : List UInt8) : Feeding inflate m s → Feeding inflate m (through m s bytes).1

theorem Feeding.invariant (doc : Documented V) {inflate : List UInt8 → Nat → Inflated} {m : Meaning}
    {s : ControlString × Backend V} (feeding : Feeding inflate m s) :
    s.1.Tracks (doc.mode s.2.stateMachine) ∧ s.2.Closed doc := by
  induction feeding with
  | between reach => exact ⟨(reach.synced doc).tracks, reach.closed doc⟩
  | endApc reach => exact ⟨(reach.synced doc).tracks.of_apc 0 false, reach.closed doc⟩
  | endDiversion reach active =>
    obtain ⟨escape, string⟩ := (reach.synced doc).diverted active
    exact ⟨.outside escape string, reach.closed doc⟩
  | feed bytes _ ih =>
    refine ⟨?_, ih.2.run doc _⟩
    rw [through, VteMode.follow_run]
    exact ih.1.feedVte bytes

def Documented.uncapped {V : Vte} (doc : Documented V) (s : V.State) (bytes : List UInt8) : VteMode :=
  doc.mode (V.advance s bytes).1

theorem Documented.uncapped_concat (doc : Documented V) (s : V.State) (bytes : List UInt8) (b : UInt8) :
    doc.uncapped s (bytes ++ [b]) = (doc.uncapped s bytes).next b := by
  simp only [uncapped, doc.mode_advance, List.foldl_append, List.foldl_cons, List.foldl_nil]

/-- The string opened by `introducer` is refused once, its tail is discarded up to the byte that
ends it, and what follows is read as from the state of a machine without a cap. -/
structure Resynchronises {V : Vte} (doc : Documented V) (m : Meaning) (cs : ControlString) (b : Backend V)
    (introducer : UInt8) (body : List UInt8) (last : UInt8) : Prop where
  once : (feedVte cs (introducer :: body ++ [last])).2.filter Wire.isEmit =
    [.emit (.controlStringRejected (kindOfIntroducer introducer) .overflow)]
  tail : ∀ n, CONTROL_STRING_MAX_BYTES < n → n ≤ body.length →
    (feedVte cs (introducer :: body.take n)).1.discard.isSome = true
  ends : (feedVte cs (introducer :: body ++ [last])).1.discard = none
  resumes : ∀ after, (through m (through m (cs, b) (introducer :: body ++ [last])).1 after).2 =
    (through m ({ state := (doc.uncapped b.stateMachine (introducer :: body ++ [last])).collapsed },
      (b.advance m (introducer :: body ++ [last])).1) after).2

theorem filter_isEmit_vte (bytes : List UInt8) : (bytes.map Wire.vte).filter Wire.isEmit = [] := by
  simp [List.filter_eq_nil_iff, Wire.isEmit]

theorem feedVte_append (cs : ControlString) (xs ys : List UInt8) :
    feedVte cs (xs ++ ys) =
      ((feedVte (feedVte cs xs).1 ys).1, (feedVte cs xs).2 ++ (feedVte (feedVte cs xs).1 ys).2) := by
  simp only [feedVte_eq_run, Transducer.run_append]

namespace Backend

variable {V : Vte} {m : Meaning}

theorem alike_of_left (doc : Documented V) {a b : Backend V} (left : a.Closed doc) (right : b.Closed doc)
    (machines : V.TraceEq a.stateMachine b.stateMachine) (leftOutside : (doc.mode a.stateMachine).isString = false)
    (rightOutside : (doc.mode b.stateMachine).isString = false) : a.Alike b :=
  ⟨machines, (left.idle doc (VteMode.header_outside leftOutside).2).alike
    (right.idle doc (VteMode.header_outside rightOutside).2)⟩

theorem alike_refusal (doc : Documented V) {b : Backend V} (closed : b.Closed doc) {head body : List UInt8}
    {last : UInt8} (kind : ControlStringKind) (inHead : (doc.uncapped b.stateMachine head).isString = true)
    (inBody : (doc.uncapped b.stateMachine body).isString = true)
    (leaves : (doc.uncapped b.stateMachine (body ++ [last])).isString = false) :
    Alike (Transducer.run (execute m) b (head.map .vte ++ refusal kind ++ if last = 0x1B then [.vte 0x1B] else [])).1
      (b.advance m (body ++ [last])).1 := by
  have refused : (Transducer.run (execute m) b
      (head.map .vte ++ refusal kind ++ if last = 0x1B then [.vte 0x1B] else [])).1.stateMachine =
      if last = 0x1B then (V.step (V.step (V.advance b.stateMachine head).1 CAN).1 0x1B).1
      else (V.step (V.advance b.stateMachine head).1 CAN).1 := by
    rw [Transducer.run_append, Transducer.run_append, run_vte]
    split_ifs <;> rfl
  have uncapped : (b.advance m (body ++ [last])).1.stateMachine = (V.step (V.advance b.stateMachine body).1 last).1 :=
    (congrArg Prod.fst (V.advance_append b.stateMachine body [last])).trans rfl
  have interrupted : doc.mode (V.step (V.advance b.stateMachine head).1 CAN).1 = .ground := by
    rw [doc.mode_step]
    exact VteMode.next_interrupt _ (.inl rfl)
  have after : doc.mode (V.step (V.advance b.stateMachine body).1 last).1 = if last = 0x1B then .escape else .ground := by
    rw [doc.mode_step]
    refine VteMode.next_left _ last inBody ?_
    rw [← doc.mode_step, ← uncapped]
    exact leaves
  have rightClosed := closed.run doc (m := m) ((body ++ [last]).map .vte)
  rw [run_vte] at rightClosed
  refine alike_of_left doc (closed.run doc _) rightClosed ?_ ?_ ?_
  · rw [refused, uncapped]
    split_ifs with escape
    · rw [escape]
      exact doc.escape_forgets _ _
    · rw [if_neg escape, doc.mode_step] at after
      exact doc.string_end_forgets _ _ _ _ inHead inBody (VteMode.next_interrupt _ (.inl rfl)) after
  · rw [refused]
    split_ifs
    · rw [doc.mode_step, VteMode.next_escape]
      rfl
    · rw [interrupted]
      rfl
  · rw [uncapped, after]
    split_ifs <;> rfl

end Backend

section

variable {V : Vte} (doc : Documented V) {inflate : List UInt8 → Nat → Inflated} {m : Meaning}
  {s : ControlString × Backend V} (feeding : Feeding inflate m s) (escape : doc.mode s.2.stateMachine = .escape)
  {introducer : UInt8} (opens : VteMode.Introducer introducer) {body : List UInt8}
  (inside : Stream.Each (fun before b => (doc.uncapped s.2.stateMachine (introducer :: before ++ [b])).isString = true) body)
  (long : CONTROL_STRING_MAX_BYTES < body.length) {last : UInt8}

include feeding escape opens inside long

theorem Feeding.overlong :
    ∃ past : ControlString, feedVte s.1 (introducer :: body) =
        (past, (introducer :: body.take CONTROL_STRING_MAX_BYTES).map .vte ++ refusal (kindOfIntroducer introducer)) ∧
      past.Discards (doc.uncapped s.2.stateMachine (introducer :: body)) ∧
      (past.dcsHooked = false ↔
        doc.uncapped s.2.stateMachine (introducer :: body.take CONTROL_STRING_MAX_BYTES) ≠ .dcsPassthrough) ∧
      (doc.uncapped s.2.stateMachine (introducer :: body)).isString = true ∧
      (doc.uncapped s.2.stateMachine (introducer :: body.take CONTROL_STRING_MAX_BYTES)).isString = true := by
  obtain ⟨state, undiscarded⟩ := (feeding.invariant doc).1.escape escape
  have mode (bytes : List UInt8) : doc.uncapped s.2.stateMachine bytes = bytes.foldl VteMode.next .escape := by
    rw [Documented.uncapped, doc.mode_advance, escape]
  simp only [mode] at inside ⊢
  obtain ⟨past, run, discards, hooked, string, capString⟩ := ControlString.overlong state undiscarded opens inside long
  exact ⟨past, run, discards, by rw [hooked, decide_eq_false_iff_not], string, capString⟩

variable (leaves : (doc.uncapped s.2.stateMachine (introducer :: body ++ [last])).isString = false)

include leaves

theorem Feeding.overlong_left :
    ∃ past : ControlString, (past.dcsHooked = false ↔
        doc.uncapped s.2.stateMachine (introducer :: body.take CONTROL_STRING_MAX_BYTES) ≠ .dcsPassthrough) ∧
      past.discard.isSome = true ∧
      feedVte s.1 (introducer :: body ++ [last]) =
        let left := if last = 0x1B then ({ past.endVteString with state := .escape, discard := none }, [.vte 0x1B])
          else if last = 0x9C ∧ past.dcsHooked = false then (past, [])
          else ({ past.endVteString with discard := none }, [])
        (left.1, (introducer :: body.take CONTROL_STRING_MAX_BYTES).map .vte ++
          refusal (kindOfIntroducer introducer) ++ left.2) := by
  obtain ⟨past, run, discards, hooked, string, -⟩ := feeding.overlong doc escape opens inside long
  refine ⟨past, hooked, by rw [discards.discard]; rfl, ?_⟩
  rw [feedVte_append, run, feedVte_eq_run past, Transducer.run_singleton, discards.leave string ?_]
  rw [← doc.uncapped_concat]
  exact leaves

theorem Feeding.not_resynchronises (st : last = 0x9C)
    (late : doc.uncapped s.2.stateMachine (introducer :: body.take CONTROL_STRING_MAX_BYTES) ≠ .dcsPassthrough) :
    ¬Resynchronises doc m s.1 s.2 introducer body last := by
  obtain ⟨past, hooked, discarding, left⟩ := feeding.overlong_left doc escape opens inside long leaves
  intro resynchronises
  have ends := resynchronises.ends
  rw [left, if_neg (by rw [st]; decide), if_pos ⟨st, hooked.mpr late⟩] at ends
  rw [show past.discard = none from ends] at discarding
  exact Bool.noConfusion discarding

theorem Feeding.resynchronises (early : ¬(last = 0x9C ∧
      doc.uncapped s.2.stateMachine (introducer :: body.take CONTROL_STRING_MAX_BYTES) ≠ .dcsPassthrough)) :
    Resynchronises doc m s.1 s.2 introducer body last := by
  obtain ⟨past, hooked, -, left⟩ := feeding.overlong_left doc escape opens inside long leaves
  obtain ⟨-, -, -, -, string, capString⟩ := feeding.overlong doc escape opens inside long
  rw [← hooked] at early
  rw [if_neg early] at left
  have wires : (feedVte s.1 (introducer :: body ++ [last])).2 =
      (introducer :: body.take CONTROL_STRING_MAX_BYTES).map .vte ++ refusal (kindOfIntroducer introducer) ++
        if last = 0x1B then [.vte 0x1B] else [] := by
    rw [left]
    split_ifs <;> rfl
  have next : doc.uncapped s.2.stateMachine (introducer :: body ++ [last]) = if last = 0x1B then .escape else .ground := by
    rw [doc.uncapped_concat] at leaves ⊢
    exact VteMode.next_left _ last string leaves
  have tracker : (feedVte s.1 (introducer :: body ++ [last])).1.Alike
      { state := (doc.uncapped s.2.stateMachine (introducer :: body ++ [last])).collapsed } := by
    rw [left, next]
    split_ifs
    · exact ⟨rfl, rfl, nofun⟩
    · exact ⟨rfl, rfl, nofun⟩
  have back := Backend.alike_refusal doc (feeding.invariant doc).2 (m := m) (kindOfIntroducer introducer)
    capString string leaves
  refine ⟨?_, fun n past within => ?_, ?_, fun after => ?_⟩
  · rw [wires, List.filter_append, List.filter_append, filter_isEmit_vte]
    split_ifs <;> rfl
  · have taken : Stream.Each (fun before b =>
        (doc.uncapped s.2.stateMachine (introducer :: before ++ [b])).isString = true) (body.take n) :=
      fun before b here => inside before b (here.trans (List.take_prefix n body))
    obtain ⟨_, run, discards, -⟩ := feeding.overlong doc escape opens taken (by rw [List.length_take]; omega)
    rw [run, discards.discard]
    rfl
  · rw [left]
    split_ifs <;> rfl
  · have same := tracker.feedVte after
    simp only [through, wires, same]
    exact (back.run _).2

end

/-- A string that outgrows the cap is resynchronised, unless the C1 `ST` that ends it ends a DCS
that was hooked only after the cap. -/
theorem resynchronises_iff {V : Vte} (doc : Documented V) {inflate : List UInt8 → Nat → Inflated} {m : Meaning}
    {s : ControlString × Backend V} (feeding : Feeding inflate m s) (escape : doc.mode s.2.stateMachine = .escape)
    {introducer : UInt8} (opens : VteMode.Introducer introducer) {body : List UInt8}
    (inside : Stream.Each (fun before b =>
      (doc.uncapped s.2.stateMachine (introducer :: before ++ [b])).isString = true) body)
    (long : CONTROL_STRING_MAX_BYTES < body.length) {last : UInt8}
    (leaves : (doc.uncapped s.2.stateMachine (introducer :: body ++ [last])).isString = false) :
    Resynchronises doc m s.1 s.2 introducer body last ↔
      ¬(last = 0x9C ∧
        doc.uncapped s.2.stateMachine (introducer :: body.take CONTROL_STRING_MAX_BYTES) ≠ .dcsPassthrough) :=
  ⟨fun resynchronises late => feeding.not_resynchronises doc escape opens inside long leaves late.1 late.2 resynchronises,
    feeding.resynchronises doc escape opens inside long leaves⟩

/-- An `ESC` has reached `vte`, nothing else. -/
def escaped : ControlString × Backend Reference.vte :=
  (through Reference.meaning ({}, .new Reference.vte) [0x1B]).1

theorem escaped_feeding : Feeding (fun _ _ => .failed) Reference.meaning escaped := .feed [0x1B] (.between .new)

theorem escaped_mode : Reference.documented.mode escaped.2.stateMachine = .escape := rfl

theorem uncapped_escaped (bytes : List UInt8) :
    Reference.documented.uncapped escaped.2.stateMachine bytes = bytes.foldl VteMode.next .escape := by
  rw [Documented.uncapped, Reference.documented.mode_advance, escaped_mode]

theorem VteMode.foldl_keeps (Inv : VteMode → Prop) {bytes : List UInt8}
    (keeps : ∀ b ∈ bytes, ∀ mode : VteMode, Inv mode → Inv (mode.next b)) {mode : VteMode} (holds : Inv mode) :
    Inv (bytes.foldl VteMode.next mode) := by
  induction bytes generalizing mode with
  | nil => exact holds
  | cons b bytes ih =>
    exact ih (fun c later => keeps c (List.mem_cons_of_mem _ later)) (keeps b List.mem_cons_self mode holds)

theorem inside_of_keeps {introducer : UInt8} {body : List UInt8} (opens : VteMode.Introducer introducer)
    (keeps : ∀ b ∈ body, ∀ mode : VteMode, mode.isString = true → (mode.next b).isString = true) :
    Stream.Each (fun before b =>
      (Reference.documented.uncapped escaped.2.stateMachine (introducer :: before ++ [b])).isString = true) body := by
  intro before b here
  rw [uncapped_escaped]
  exact VteMode.foldl_keeps (fun mode => mode.isString = true) (fun c member => keeps c (here.subset member))
    (ControlString.introducer_isString opens)

theorem keeps_letter {mode : VteMode} (inside : mode.isString = true) {b : UInt8} (letter : b = 0x61 ∨ b = 0x30 ∨ b = 0x71) :
    (mode.next b).isString = true := by
  rcases letter with rfl | rfl | rfl <;> cases mode <;> first | exact Bool.noConfusion inside | rfl

/-- A title that goes on for too long, and `BEL`. -/
theorem resynchronises_iff_title :
    Resynchronises Reference.documented Reference.meaning escaped.1 escaped.2 0x5D
      (List.replicate (CONTROL_STRING_MAX_BYTES + 1) 0x61) 0x07 := by
  generalize long : CONTROL_STRING_MAX_BYTES + 1 = count
  have letters : ∀ b ∈ List.replicate count (0x61 : UInt8), b = 0x61 := fun b member => (List.mem_replicate.mp member).2
  have title : (List.replicate count (0x61 : UInt8)).foldl VteMode.next .oscString = .oscString :=
    VteMode.foldl_keeps (fun mode => mode = .oscString) (fun b member mode inside => by rw [inside, letters b member]; rfl) rfl
  have opens : VteMode.Introducer 0x5D := .inr (.inr (.inl rfl))
  have inside := inside_of_keeps opens fun b (member : b ∈ List.replicate count 0x61) mode inside =>
    keeps_letter inside (.inl (letters b member))
  have past : CONTROL_STRING_MAX_BYTES < (List.replicate count (0x61 : UInt8)).length := by
    rw [List.length_replicate]
    omega
  have leaves : (Reference.documented.uncapped escaped.2.stateMachine
      (0x5D :: List.replicate count 0x61 ++ [0x07])).isString = false := by
    rw [Documented.uncapped_concat, uncapped_escaped, List.foldl_cons, show VteMode.escape.next 0x5D = .oscString from rfl,
      title]
    rfl
  refine (resynchronises_iff Reference.documented escaped_feeding escaped_mode opens inside past leaves).mpr ?_
  rintro ⟨st, -⟩
  exact absurd st (by decide)

theorem parameters_mode (count : Nat) : (0x50 :: List.replicate count 0x30).foldl VteMode.next .escape = .dcsEntry ∨
    (0x50 :: List.replicate count 0x30).foldl VteMode.next .escape = .dcsParam := by
  rw [List.foldl_cons]
  refine VteMode.foldl_keeps (fun mode => mode = .dcsEntry ∨ mode = .dcsParam) (fun b member mode inside => ?_) (.inl rfl)
  rw [(List.mem_replicate.mp member).2]
  rcases inside with rfl | rfl <;> exact .inr rfl

theorem late_hook {count : Nat} (fills : CONTROL_STRING_MAX_BYTES = count) :
    Stream.Each (fun before b =>
        (Reference.documented.uncapped escaped.2.stateMachine (0x50 :: before ++ [b])).isString = true)
        (List.replicate count 0x30 ++ [0x71]) ∧
      CONTROL_STRING_MAX_BYTES < (List.replicate count (0x30 : UInt8) ++ [0x71]).length ∧
      (Reference.documented.uncapped escaped.2.stateMachine
        (0x50 :: (List.replicate count 0x30 ++ [0x71]) ++ [0x9C])).isString = false ∧
      ¬Resynchronises Reference.documented Reference.meaning escaped.1 escaped.2 0x50
        (List.replicate count 0x30 ++ [0x71]) 0x9C := by
  have opens : VteMode.Introducer 0x50 := .inl rfl
  have inside := inside_of_keeps opens fun b (member : b ∈ List.replicate count 0x30 ++ [0x71]) mode inside =>
    keeps_letter inside (by
      rcases List.mem_append.mp member with zero | final
      · exact .inr (.inl (List.mem_replicate.mp zero).2)
      · exact .inr (.inr (List.mem_singleton.mp final)))
  have long : CONTROL_STRING_MAX_BYTES < (List.replicate count (0x30 : UInt8) ++ [0x71]).length := by
    rw [List.length_append, List.length_replicate, List.length_singleton]
    omega
  have leaves : (Reference.documented.uncapped escaped.2.stateMachine
      (0x50 :: (List.replicate count 0x30 ++ [0x71]) ++ [0x9C])).isString = false := by
    rw [Documented.uncapped_concat, ← List.cons_append, Documented.uncapped_concat, uncapped_escaped]
    rcases parameters_mode count with h | h <;> rw [h] <;> rfl
  refine ⟨inside, long, leaves, Feeding.not_resynchronises Reference.documented escaped_feeding escaped_mode
    opens inside long leaves rfl ?_⟩
  rw [fills, List.take_left' List.length_replicate, uncapped_escaped]
  rcases parameters_mode count with h | h <;> rw [h] <;> decide

theorem not_resynchronises_late_hook :
    Feeding (fun _ _ => .failed) Reference.meaning escaped ∧
      Reference.documented.mode escaped.2.stateMachine = .escape ∧
      Stream.Each (fun before b =>
          (Reference.documented.uncapped escaped.2.stateMachine (0x50 :: before ++ [b])).isString = true)
        (List.replicate CONTROL_STRING_MAX_BYTES 0x30 ++ [0x71]) ∧
      CONTROL_STRING_MAX_BYTES < (List.replicate CONTROL_STRING_MAX_BYTES (0x30 : UInt8) ++ [0x71]).length ∧
      (Reference.documented.uncapped escaped.2.stateMachine
        (0x50 :: (List.replicate CONTROL_STRING_MAX_BYTES 0x30 ++ [0x71]) ++ [0x9C])).isString = false ∧
      ¬Resynchronises Reference.documented Reference.meaning escaped.1 escaped.2 0x50
        (List.replicate CONTROL_STRING_MAX_BYTES 0x30 ++ [0x71]) 0x9C :=
  ⟨escaped_feeding, escaped_mode, late_hook rfl⟩

end Bitty.Vt
