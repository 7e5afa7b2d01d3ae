import Bitty.Vt.Machine

namespace Bitty.Vt

namespace VteMode

def collapsed : VteMode → VteString
  | .escape | .escapeIntermediate => .escape
  | .oscString => .osc
  | .dcsEntry | .dcsParam | .dcsIntermediate | .dcsIgnore | .dcsPassthrough | .sosPmApcString => .other
  | _ => .ground

def header : VteMode → Option DcsHeader
  | .dcsEntry => some .entry
  | .dcsParam => some .param
  | .dcsIntermediate => some .intermediate
  | .dcsIgnore => some .ignore
  | _ => none

/-- A byte that opens a string after `ESC`, but not after an intermediate. -/
def Introducer (b : UInt8) : Prop := b = 0x50 ∨ b = 0x58 ∨ b = 0x5D ∨ b = 0x5E ∨ b = 0x5F

instance (b : UInt8) : Decidable (Introducer b) := inferInstanceAs (Decidable (_ ∨ _))

def Slip (mode : VteMode) (b : UInt8) : Prop := mode = .escapeIntermediate ∧ Introducer b

instance (mode : VteMode) (b : UInt8) : Decidable (Slip mode b) := inferInstanceAs (Decidable (_ ∧ _))

theorem isString_collapsed (mode : VteMode) : mode.collapsed.isString = mode.isString := by
  cases mode <;> rfl

theorem collapsed_next (mode : VteMode) (b : UInt8) (clean : ¬mode.Slip b) :
    (mode.next b).collapsed = if mode = .dcsPassthrough ∧ b = 0x9C then .ground else mode.collapsed.after b := by
  cases mode <;> grind [next, anywhere, collapsed, Slip, Introducer, VteString.after, UInt8.le_iff_toNat_le]

def trackHeader (header : Option DcsHeader) (hooked : Bool) (b : UInt8) : Option DcsHeader × Bool :=
  let tracked := ({ dcsHeader := header, dcsHooked := hooked } : ControlString).trackDcsHeader b
  (tracked.dcsHeader, tracked.dcsHooked)

theorem trackHeader_next (mode : VteMode) (b : UInt8) (inside : mode.isString) (stays : (mode.next b).isString) :
    trackHeader mode.header (mode = .dcsPassthrough) b = ((mode.next b).header, (mode.next b = .dcsPassthrough : Bool)) := by
  cases mode <;> grind [next, anywhere, isString, trackHeader, header, ControlString.trackDcsHeader,
    ControlString.nextHeader, UInt8.le_iff_toNat_le]

theorem next_isString (mode : VteMode) (b : UInt8) : (mode.next b).isString = true → mode.isString = true ∨
    mode = .escape ∧ Introducer b := by
  cases mode <;> grind [next, anywhere, isString, Introducer]

theorem header_open (mode : VteMode) (b : UInt8) (outside : mode.isString = false) (opens : (mode.next b).isString) :
    (mode.next b).header = (if kindOfIntroducer b = .dcs then some .entry else none) ∧ mode.next b ≠ .dcsPassthrough := by
  have opened := (next_isString mode b opens).resolve_left (by simp [outside])
  obtain ⟨rfl, rfl | rfl | rfl | rfl | rfl⟩ := opened <;> decide

variable {mode : VteMode}

theorem header_outside (outside : mode.isString = false) : mode.header = none ∧ mode ≠ .dcsPassthrough := by
  cases mode <;> first | exact absurd outside (by decide) | exact ⟨rfl, by decide⟩

theorem next_slip {b : UInt8} (slip : mode.Slip b) : mode.next b = .ground := by
  obtain ⟨rfl, rfl | rfl | rfl | rfl | rfl⟩ := slip <;> rfl

theorem after_slip {b : UInt8} (slip : mode.Slip b) : (mode.collapsed.after b).isString = true := by
  obtain ⟨rfl, rfl | rfl | rfl | rfl | rfl⟩ := slip <;> rfl

end VteMode

namespace ControlString

theorem trackDcsHeader_eq (cs : ControlString) (b : UInt8) :
    cs.trackDcsHeader b = { cs with
      dcsHeader := (VteMode.trackHeader cs.dcsHeader cs.dcsHooked b).1
      dcsHooked := (VteMode.trackHeader cs.dcsHeader cs.dcsHooked b).2 } := by
  obtain ⟨state, bytes, kind, header, hooked, discard, apcBytes, apcRefused⟩ := cs
  cases header with
  | none => rfl
  | some header =>
    simp only [VteMode.trackHeader, trackDcsHeader]
    split_ifs <;> rfl

/-- The tracker says of `vte` what is so. -/
structure Agrees (cs : ControlString) (mode : VteMode) : Prop where
  string : cs.state.isString = mode.isString
  hooked : cs.dcsHooked = (mode = .dcsPassthrough : Bool)

/-- The tracker holds what it can hold of a mode, and counts the body of the open string. -/
structure Shadows (cs : ControlString) (mode : VteMode) (body : Nat) : Prop where
  state : cs.state = mode.collapsed
  header : cs.dcsHeader = mode.header
  hooked : cs.dcsHooked = (mode = .dcsPassthrough : Bool)
  bytes : mode.isString → cs.bytes = body
  undiscarded : cs.discard = none

theorem Shadows.agrees {cs : ControlString} {mode : VteMode} {body : Nat} (shadows : cs.Shadows mode body) :
    cs.Agrees mode :=
  ⟨by rw [shadows.state, VteMode.isString_collapsed], shadows.hooked⟩

end ControlString

def bodyStep (s : VteMode × Nat) (b : UInt8) : VteMode × Nat :=
  (s.1.next b, if s.1.isString ∧ (s.1.next b).isString then s.2 + 1 else 0)

def bodyAfter (bytes : List UInt8) : VteMode × Nat := bytes.foldl bodyStep (.ground, 0)

@[simp] theorem bodyAfter_concat (bytes : List UInt8) (b : UInt8) :
    bodyAfter (bytes ++ [b]) = bodyStep (bodyAfter bytes) b := by
  simp [bodyAfter]

def UnderCap (bytes : List UInt8) : Prop :=
  Stream.Each (fun before b => (bodyAfter (before ++ [b])).2 ≤ CONTROL_STRING_MAX_BYTES) bytes

instance (bytes : List UInt8) : Decidable (UnderCap bytes) := inferInstanceAs (Decidable (Stream.Each _ _))

namespace ControlString

variable {cs : ControlString} {mode : VteMode} {body : Nat}

theorem Shadows.left (outside : mode.isString = false)
    (state : cs.state = mode.collapsed) (header : cs.dcsHeader = none) (hooked : cs.dcsHooked = false)
    (undiscarded : cs.discard = none) : cs.Shadows mode body :=
  ⟨state, by rw [header, (VteMode.header_outside outside).1],
    by rw [hooked, decide_eq_false (VteMode.header_outside outside).2], by simp [outside], undiscarded⟩

/-- Below the cap the tracker follows every byte but a slip, and every byte is forwarded. -/
theorem Shadows.step (shadows : cs.Shadows mode body) {b : UInt8}
    (clean : ¬mode.Slip b) (cap : (bodyStep (mode, body) b).2 ≤ CONTROL_STRING_MAX_BYTES) :
    (feedByte cs b).1.Shadows (mode.next b) (bodyStep (mode, body) b).2 ∧ (feedByte cs b).2 = [.vte b] := by
  have collapsed := VteMode.collapsed_next mode b clean
  have inString : cs.state.isString = mode.isString := by rw [shadows.state, VteMode.isString_collapsed]
  have unchanged := shadows.undiscarded
  by_cases unhooks : mode = .dcsPassthrough ∧ b = 0x9C
  · obtain ⟨rfl, rfl⟩ := unhooks
    have visited : cs.visit 0x9C = (cs.endVteString, .keep) := by
      simp [visit, unchanged, shadows.state, shadows.hooked, VteMode.collapsed]
    rw [feedByte, visited]
    exact ⟨.left rfl rfl rfl rfl unchanged, rfl⟩
  · rw [if_neg unhooks, ← shadows.state] at collapsed
    have nextString : (cs.state.after b).isString = (mode.next b).isString := by
      rw [← collapsed, VteMode.isString_collapsed]
    have noUnhook : ¬(cs.state = .other ∧ b = 0x9C ∧ cs.dcsHooked) := by
      rw [shadows.hooked]
      simpa using fun _ hb hooked => unhooks ⟨hooked, hb⟩
    unfold feedByte visit
    simp only [unchanged, noUnhook, if_false, nextString, inString]
    cases before : mode.isString <;> cases later : (mode.next b).isString
    · refine ⟨.left later collapsed.symm ?_ ?_ rfl, rfl⟩
      · exact shadows.header.trans (VteMode.header_outside before).1
      · exact shadows.hooked.trans (decide_eq_false (VteMode.header_outside before).2)
    · obtain ⟨header, unhooked⟩ := VteMode.header_open mode b before later
      exact ⟨⟨collapsed.symm, header.symm, (decide_eq_false unhooked).symm, fun _ => by simp [bodyStep, before, beginVteString],
        unchanged⟩, rfl⟩
    · exact ⟨.left later collapsed.symm rfl rfl unchanged, rfl⟩
    · have counted : cs.bytes = body := shadows.bytes before
      simp only [bodyStep, before, later, and_self, if_true] at cap ⊢
      have room : cs.bytes ≠ CONTROL_STRING_MAX_BYTES := by omega
      have tracked := VteMode.trackHeader_next mode b before later
      rw [← shadows.header, ← shadows.hooked] at tracked
      simp only [room, not_true_eq_false, if_false, trackDcsHeader_eq, tracked]
      exact ⟨⟨collapsed.symm, rfl, rfl, fun _ => by rw [counted], rfl⟩, rfl⟩

theorem Shadows.feedByte_slip (shadows : cs.Shadows mode body)
    {b : UInt8} (slip : mode.Slip b) : (feedByte cs b).1.state.isString = true ∧ (feedByte cs b).2 = [.vte b] := by
  have opens := VteMode.after_slip slip
  obtain ⟨rfl, -⟩ := slip
  rw [← shadows.state] at opens
  have visited : cs.visit b = ({ cs.beginVteString b with state := cs.state.after b }, .keep) := by
    have outside : cs.state.isString = false := by rw [shadows.state]; rfl
    have escape : cs.state ≠ .other := by rw [shadows.state]; decide
    simp [visit, shadows.undiscarded, opens, outside, escape]
  rw [feedByte, visited]
  exact ⟨opens, rfl⟩

theorem shadows_run {bytes : List UInt8} (cap : UnderCap bytes)
    (clean : Stream.Each (fun before b => ¬(bodyAfter before).1.Slip b) bytes) :
    (feedVte {} bytes).1.Shadows (bodyAfter bytes).1 (bodyAfter bytes).2 ∧
      (feedVte {} bytes).2 = bytes.map .vte := by
  induction bytes using List.reverseRecOn with
  | nil => exact ⟨⟨rfl, rfl, rfl, nofun, rfl⟩, rfl⟩
  | append_singleton bytes b ih =>
    obtain ⟨capBefore, capHere⟩ := Stream.each_concat.mp cap
    obtain ⟨cleanBefore, cleanHere⟩ := Stream.each_concat.mp clean
    obtain ⟨shadows, forwarded⟩ := ih capBefore cleanBefore
    rw [bodyAfter_concat] at capHere
    obtain ⟨next, wires⟩ := shadows.step cleanHere capHere
    rw [feedVte_eq_run] at forwarded next wires ⊢
    rw [Transducer.run_append, Transducer.run_singleton, bodyAfter_concat, List.map_append, forwarded, wires]
    exact ⟨next, rfl⟩

end ControlString

theorem bodyAfter_mode {V : Vte} (doc : Documented V) (bytes : List UInt8) :
    doc.mode (V.advance V.init bytes).1 = (bodyAfter bytes).1 := by
  rw [doc.mode_advance, doc.mode_init]
  induction bytes using List.reverseRecOn with
  | nil => rfl
  | append_singleton bytes b ih => simp [ih, bodyStep]

/-- The tracker and what is behind it after a stream was fed through `feed_vte`. -/
def fed (V : Vte) (m : Meaning) (bytes : List UInt8) : ControlString × Backend V :=
  ((feedVte {} bytes).1, (Transducer.run (Backend.execute m) (.new V) (feedVte {} bytes).2).1)

theorem fed_forwarded {V : Vte} {m : Meaning} {bytes : List UInt8} (forwarded : (feedVte {} bytes).2 = bytes.map .vte) :
    (fed V m bytes).2.stateMachine = (V.advance V.init bytes).1 := by
  rw [fed, forwarded, Backend.run_vte]
  rfl

/-- For a stream whose strings stay under the cap, the tracker agrees with `vte` after every byte
and a stream without strings is forwarded whole, exactly when no escape sequence with
intermediates ends in a byte that would open a string right after `ESC`. -/
theorem tracker_agrees_iff {V : Vte} (doc : Documented V) (m : Meaning) (bytes : List UInt8) (cap : UnderCap bytes) :
    (Stream.Each (fun before b => (fed V m (before ++ [b])).1.Agrees (doc.mode (fed V m (before ++ [b])).2.stateMachine)) bytes ∧
      (Stream.Each (fun before b => (doc.mode (V.advance V.init (before ++ [b])).1).isString = false) bytes →
        (feedVte {} bytes).2 = bytes.map .vte)) ↔
    Stream.Each (fun before b => ¬(doc.mode (V.advance V.init before).1).Slip b) bytes := by
  simp only [bodyAfter_mode doc]
  constructor
  · rintro ⟨agrees, -⟩
    induction bytes using List.reverseRecOn with
    | nil => exact .nil
    | append_singleton bytes b ih =>
      obtain ⟨capBefore, -⟩ := Stream.each_concat.mp cap
      obtain ⟨agreesBefore, agreesHere⟩ := Stream.each_concat.mp agrees
      have clean := ih capBefore agreesBefore
      refine Stream.each_concat.mpr ⟨clean, fun slip => ?_⟩
      obtain ⟨shadows, forwarded⟩ := ControlString.shadows_run capBefore clean
      have opened := shadows.feedByte_slip slip
      have whole : (feedVte {} (bytes ++ [b])).2 = (bytes ++ [b]).map .vte := by
        rw [feedVte_eq_run] at forwarded opened ⊢
        rw [Transducer.run_append, Transducer.run_singleton, forwarded, opened.2, List.map_append]
        rfl
      have string := agreesHere.string
      rw [fed_forwarded whole, bodyAfter_mode doc, bodyAfter_concat, bodyStep, VteMode.next_slip slip, fed,
        feedVte_eq_run, Transducer.run_append, Transducer.run_singleton, ← feedVte_eq_run] at string
      exact Bool.noConfusion (opened.1.symm.trans string)
  · intro clean
    refine ⟨fun before b inside => ?_, fun _ => (ControlString.shadows_run cap clean).2⟩
    have capBefore : UnderCap (before ++ [b]) := fun earlier c within => cap earlier c (within.trans inside)
    obtain ⟨shadows, forwarded⟩ := ControlString.shadows_run capBefore
      (fun earlier c within => clean earlier c (within.trans inside))
    simp only [fed_forwarded forwarded, bodyAfter_mode doc]
    exact shadows.agrees

/-- `ESC ] 0 BEL`, a string that opens and closes. -/
theorem tracker_agrees_iff_title :
    (Stream.Each (fun before b => (fed Reference.vte Reference.meaning (before ++ [b])).1.Agrees
        (Reference.documented.mode (fed Reference.vte Reference.meaning (before ++ [b])).2.stateMachine)) [0x1B, 0x5D, 0x30, 0x07] ∧
      (Stream.Each (fun before b =>
          (Reference.documented.mode (Reference.vte.advance Reference.vte.init (before ++ [b])).1).isString = false)
          [0x1B, 0x5D, 0x30, 0x07] →
        (feedVte {} [0x1B, 0x5D, 0x30, 0x07]).2 = [0x1B, 0x5D, 0x30, 0x07].map .vte)) ↔
    Stream.Each (fun before b =>
      ¬(Reference.documented.mode (Reference.vte.advance Reference.vte.init before).1).Slip b) [0x1B, 0x5D, 0x30, 0x07] :=
  tracker_agrees_iff Reference.documented Reference.meaning [0x1B, 0x5D, 0x30, 0x07] (by decide)

/-- `ESC ( ]` ends in Ground, with the tracker in an OSC. -/
theorem tracker_disagrees_designator :
    UnderCap [0x1B, 0x28, 0x5D] ∧
      Reference.documented.mode (fed Reference.vte Reference.meaning [0x1B, 0x28, 0x5D]).2.stateMachine = .ground ∧
      ¬(fed Reference.vte Reference.meaning [0x1B, 0x28, 0x5D]).1.Agrees
        (Reference.documented.mode (fed Reference.vte Reference.meaning [0x1B, 0x28, 0x5D]).2.stateMachine) :=
  ⟨by decide, rfl, fun agrees => Bool.noConfusion agrees.string⟩

end Bitty.Vt
