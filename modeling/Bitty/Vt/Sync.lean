import Bitty.Vt.Chunking
import Bitty.Vt.Tracker

namespace Bitty.Vt

namespace VteMode

def follow (mode : VteMode) : Wire → VteMode
  | .vte byte => mode.next byte
  | .refuseSixel => mode
  | .emit _ => mode

@[simp] theorem follow_vte (mode : VteMode) (byte : UInt8) : mode.follow (.vte byte) = mode.next byte := rfl

@[simp] theorem foldl_follow_emit (mode : VteMode) (actions : List TerminalAction) :
    (actions.map Wire.emit).foldl follow mode = mode := by
  induction actions with
  | nil => rfl
  | cons _ _ ih => exact ih

theorem follow_run {V : Vte} (doc : Documented V) (m : Meaning) (b : Backend V) (wires : List Wire) :
    doc.mode (Transducer.run (Backend.execute m) b wires).1.stateMachine =
      wires.foldl follow (doc.mode b.stateMachine) := by
  induction wires generalizing b with
  | nil => rfl
  | cons wire wires ih =>
    rw [Transducer.run_cons_fst, ih, List.foldl_cons]
    cases wire with
    | vte byte =>
      rw [Backend.execute, Backend.advance, doc.mode_advance]
      rfl
    | refuseSixel => rfl
    | emit action => rfl

theorem next_eq_escape (mode : VteMode) (b : UInt8) : mode.next b = .escape → b = 0x1B ∨ mode = .escape := by
  cases mode <;> grind [next, anywhere]

theorem next_interrupt (mode : VteMode) {b : UInt8} (interrupt : b = 0x18 ∨ b = 0x1A) : mode.next b = .ground := by
  rcases interrupt with rfl | rfl <;> cases mode <;> rfl

theorem after_of_next_escape (b : UInt8) : VteMode.escape.next b = .escape → VteString.escape.after b = .escape := by
  grind [next, anywhere, VteString.after, UInt8.le_iff_toNat_le]

theorem not_slip {mode : VteMode} (inside : mode.isString = true) (b : UInt8) : ¬mode.Slip b := by
  rintro ⟨rfl, -⟩
  exact Bool.noConfusion inside

theorem collapsed_next_string (mode : VteMode) (b : UInt8) :
    mode.isString = true → (mode.next b).isString = true → (mode.next b).collapsed = mode.collapsed := by
  cases mode <;> grind [next, anywhere, isString, collapsed]

theorem next_left (mode : VteMode) (b : UInt8) : mode.isString = true → (mode.next b).isString = false →
    mode.next b = if b = 0x1B then .escape else .ground := by
  cases mode <;> grind [next, anywhere, isString]

end VteMode

namespace ControlString

/-- Whatever the tracker makes of text, it knows when `vte` is in a string or about to open one. -/
structure Tracks (cs : ControlString) (mode : VteMode) : Prop where
  escape : mode = .escape → cs.state = .escape ∧ cs.discard = none
  string : mode.isString = true → cs.Shadows mode cs.bytes ∧ cs.bytes ≤ CONTROL_STRING_MAX_BYTES

variable {cs : ControlString} {mode : VteMode}

theorem Tracks.outside (escape : mode ≠ .escape) (string : mode.isString = false) : cs.Tracks mode :=
  ⟨fun h => absurd h escape, fun h => by simp [string] at h⟩

theorem Tracks.ground (cs : ControlString) : cs.Tracks .ground := .outside nofun rfl

theorem Tracks.undiscarded (tracks : cs.Tracks mode)
    (held : mode = .escape ∨ mode.isString = true) : cs.discard = none :=
  held.elim (fun escape => (tracks.escape escape).2) (fun string => (tracks.string string).1.undiscarded)

theorem Tracks.of_apc (tracks : cs.Tracks mode) (apcBytes : Nat)
    (apcRefused : Bool) : Tracks { cs with apcBytes, apcRefused } mode :=
  ⟨tracks.escape, fun string =>
    ⟨⟨(tracks.string string).1.state, (tracks.string string).1.header, (tracks.string string).1.hooked,
      (tracks.string string).1.bytes, (tracks.string string).1.undiscarded⟩, (tracks.string string).2⟩⟩

variable {b : UInt8}

theorem feedByte_open (state : cs.state = .escape) (undiscarded : cs.discard = none)
    (introducer : VteMode.Introducer b) :
    feedByte cs b = ({ cs.beginVteString b with state := VteString.escape.after b }, [.vte b]) := by
  have opens : (VteString.escape.after b).isString = true := by
    rcases introducer with rfl | rfl | rfl | rfl | rfl <;> rfl
  have visited : cs.visit b = ({ cs.beginVteString b with state := VteString.escape.after b }, .keep) := by
    simp [visit, undiscarded, state, opens, show VteString.escape.isString = false from rfl]
  rw [feedByte, visited]
  rfl

theorem Shadows.open (undiscarded : cs.discard = none) (introducer : VteMode.Introducer b) :
    Shadows { cs.beginVteString b with state := VteString.escape.after b } (VteMode.escape.next b) 0 := by
  rcases introducer with rfl | rfl | rfl | rfl | rfl <;> exact ⟨rfl, rfl, rfl, fun _ => rfl, undiscarded⟩

theorem Shadows.overflow (shadows : cs.Shadows mode CONTROL_STRING_MAX_BYTES)
    (inside : mode.isString = true) (stays : (mode.next b).isString = true) :
    cs.visit b =
      ({ cs with state := .ground, bytes := 0, discard := some mode.collapsed }, .refuse cs.kind) := by
  have collapsed := VteMode.collapsed_next mode b (VteMode.not_slip inside b)
  have same := VteMode.collapsed_next_string mode b inside stays
  have noUnhook : ¬(mode = .dcsPassthrough ∧ b = 0x9C) := by
    rintro ⟨rfl, rfl⟩
    exact Bool.noConfusion stays
  rw [if_neg noUnhook, same] at collapsed
  have noEnd : ¬(mode.collapsed = .other ∧ b = 0x9C ∧ cs.dcsHooked) := by
    rw [shadows.hooked]
    simpa using fun _ hb hooked => noUnhook ⟨hooked, hb⟩
  have string : mode.collapsed.isString = true := (VteMode.isString_collapsed mode).trans inside
  have interrupted : mode.collapsed.after CAN = .ground := after_interrupt _ (.inl rfl)
  simp only [visit, shadows.undiscarded, shadows.state, noEnd, ← collapsed, string, shadows.bytes inside, interrupted,
    if_true, if_false, not_true_eq_false]

theorem Shadows.kept (shadows : cs.Shadows mode cs.bytes)
    (inside : mode.isString = true) (stays : (mode.next b).isString = true) (kept : (cs.visit b).2 = .keep)
    (room : cs.bytes ≤ CONTROL_STRING_MAX_BYTES) : cs.bytes + 1 ≤ CONTROL_STRING_MAX_BYTES := by
  rcases Nat.lt_or_ge cs.bytes CONTROL_STRING_MAX_BYTES with below | full
  · exact below
  · rw [Nat.le_antisymm room full] at shadows
    rw [shadows.overflow inside stays] at kept
    exact absurd kept (by simp)

theorem visit_forward (forward : (cs.visit b).2 = .forward) : b = 0x1B ∧ (cs.visit b).1.state = .escape := by
  cases discarding : cs.discard with
  | none => rcases cs.visit_cases b with h | h | h | h <;> simp_all
  | some family =>
    rw [visit_discarding b discarding] at forward ⊢
    revert forward
    unfold VteString.discardEndsAt
    cases family <;> dsimp only <;> (try split_ifs) <;> simp_all [VteString.after]

theorem Tracks.feedByte (tracks : cs.Tracks mode) (b : UInt8) :
    (feedByte cs b).1.Tracks ((feedByte cs b).2.foldl VteMode.follow mode) := by
  rcases cs.visit_cases b with ⟨undiscarded, kept, _⟩ | ⟨_, _, _, _, refused⟩ | ⟨_, forward, next⟩ |
    ⟨discarding, swallowed⟩
  · have wires : (Vt.feedByte cs b).2 = [.vte b] := by rw [Vt.feedByte, kept]; rfl
    rw [wires, List.foldl_cons, List.foldl_nil, VteMode.follow_vte]
    refine ⟨fun escape => ?_, fun string => ?_⟩
    · rcases VteMode.next_eq_escape _ _ escape with rfl | rfl
      · rw [feedByte_escape undiscarded]
        refine ⟨rfl, ?_⟩
        split_ifs <;> exact undiscarded
      · obtain ⟨state, _⟩ := tracks.escape rfl
        have stays := VteMode.after_of_next_escape b escape
        rw [feedByte_leaving undiscarded (by rw [state, stays]; rfl) (by simp [state]), state, stays]
        exact ⟨rfl, undiscarded⟩
    · rcases VteMode.next_isString _ _ string with before | ⟨rfl, introducer⟩
      · obtain ⟨shadows, room⟩ := tracks.string before
        have charged := shadows.kept before string kept room
        have counted : (bodyStep (mode, cs.bytes) b).2 = cs.bytes + 1 := by simp [bodyStep, before, string]
        have next := (shadows.step (VteMode.not_slip before b) (counted ▸ charged)).1
        rw [counted] at next
        exact ⟨(next.bytes string).symm ▸ next, (next.bytes string).symm ▸ charged⟩
      · rw [feedByte_open (tracks.escape rfl).1 undiscarded introducer]
        exact ⟨.open undiscarded introducer, Nat.zero_le _⟩
  · have wires : (Vt.feedByte cs b).2 = refusal cs.kind := by rw [Vt.feedByte, refused]; rfl
    have aborted : (refusal cs.kind).foldl VteMode.follow mode = .ground := VteMode.next_interrupt mode (.inl rfl)
    rw [wires, aborted]
    exact .ground _
  · have wires : (Vt.feedByte cs b).2 = [.vte b] := by rw [Vt.feedByte, forward]; rfl
    obtain ⟨rfl, escape⟩ := visit_forward forward
    rw [wires, List.foldl_cons, List.foldl_nil, VteMode.follow_vte, VteMode.next_escape]
    exact ⟨fun _ => ⟨escape, next⟩, fun string => Bool.noConfusion string⟩
  · have wires : (Vt.feedByte cs b).2 = [] := by rw [Vt.feedByte, swallowed]; rfl
    rw [wires, List.foldl_nil]
    have outside : ¬(mode = .escape ∨ mode.isString = true) := fun held => by
      simp [tracks.undiscarded held] at discarding
    obtain ⟨escape, string⟩ := not_or.mp outside
    exact .outside escape (by simpa using string)

theorem Tracks.feedVte (tracks : cs.Tracks mode) (bytes : List UInt8) :
    (feedVte cs bytes).1.Tracks ((feedVte cs bytes).2.foldl VteMode.follow mode) := by
  rw [feedVte_eq_run]
  induction bytes generalizing cs mode with
  | nil => exact tracks
  | cons b bytes ih =>
    rw [Transducer.run_cons_fst, Transducer.run_cons_snd, List.foldl_append]
    exact ih (tracks.feedByte b)

theorem visit_escape_swallow (swallowed : (cs.visit 0x1B).2 = .swallow) (b : UInt8) :
    cs.visit b = (cs, .swallow) := by
  cases discarding : cs.discard with
  | none => rcases cs.visit_cases 0x1B with h | h | h | h <;> simp_all
  | some family =>
    rw [visit_discarding _ discarding] at swallowed ⊢
    cases family <;> simp_all [VteString.discardEndsAt]

theorem Tracks.close (tracks : cs.Tracks mode) : (Vt.feedVte cs [0x1B, 0x5C]).2.foldl VteMode.follow mode ≠ .escape ∧
      ((Vt.feedVte cs [0x1B, 0x5C]).2.foldl VteMode.follow mode).isString = false := by
  rw [feedVte_eq_run]
  simp only [Transducer.run_cons_snd, Transducer.run_nil, List.append_nil]
  have escaped := tracks.feedByte 0x1B
  by_cases swallowed : (cs.visit 0x1B).2 = .swallow
  · have quiet : ∀ b, Vt.feedByte cs b = (cs, []) := fun b => by
      rw [Vt.feedByte, visit_escape_swallow swallowed]
      rfl
    have discarding : cs.discard ≠ none := fun none => by
      rcases cs.visit_cases 0x1B with h | h | h | h <;> simp_all
    have outside := fun held => discarding (tracks.undiscarded held)
    simpa [quiet] using not_or.mp outside
  · have wires : (Vt.feedByte cs 0x1B).2 = [.vte 0x1B] := by
      rcases cs.visit_cases 0x1B with ⟨_, kept, _⟩ | ⟨_, _, string, _, _⟩ | ⟨_, forward, _⟩ | ⟨_, h⟩
      · rw [Vt.feedByte, kept]; rfl
      · rw [after_escape] at string
        exact Bool.noConfusion string
      · rw [Vt.feedByte, forward]; rfl
      · exact absurd h swallowed
    have escape : (Vt.feedByte cs 0x1B).2.foldl VteMode.follow mode = .escape := by
      rw [wires]
      exact mode.next_escape
    obtain ⟨state, undiscarded⟩ := escaped.escape escape
    rw [List.foldl_append, escape, feedByte_leaving undiscarded (by rw [state]; rfl) (by simp [state])]
    exact ⟨by rintro ⟨⟩, rfl⟩

end ControlString

namespace Front

/-- The tracker follows `vte` also around the diversions: no string is open behind a candidate. -/
structure Synced (p : Front) (mode : VteMode) : Prop where
  tracks : p.controlString.Tracks mode
  diverted : p.iterm2.isActive = true → mode ≠ .escape ∧ mode.isString = false

namespace Synced

variable {inflate : List UInt8 → Nat → Inflated} {p : Front} {mode : VteMode}

theorem idle (tracks : p.controlString.Tracks mode) (idle : p.iterm2.isActive = false) : p.Synced mode :=
  ⟨tracks, by simp [idle]⟩

theorem feed (synced : p.Synced mode) (idle : p.iterm2.isActive = false) (bytes : List UInt8) :
    (p.feed bytes).1.Synced ((p.feed bytes).2.foldl VteMode.follow mode) :=
  .idle (synced.tracks.feedVte bytes) idle

theorem note (synced : p.Synced mode) : p.note.Synced mode := ⟨synced.tracks, synced.diverted⟩

theorem beginApc (synced : p.Synced mode) (idle : p.iterm2.isActive = false) : p.beginApc.Synced mode := by
  have undiscarded : ControlString.Tracks { p.controlString with discard := none } mode := ?_
  · exact .idle (undiscarded.of_apc 0 false) idle
  by_cases held : mode = .escape ∨ mode.isString = true
  · simpa [← synced.tracks.undiscarded held] using synced.tracks
  · obtain ⟨escape, string⟩ := not_or.mp held
    exact .outside escape (by simpa using string)

theorem abortApc (synced : p.Synced mode) (idle : p.iterm2.isActive = false) : p.abortApc.Synced mode :=
  .idle (synced.tracks.of_apc 0 false) idle

theorem divert (synced : p.Synced mode) : p.divert.1.Synced (p.divert.2.foldl VteMode.follow mode) := by
  have closed : p.divert.2.foldl VteMode.follow mode ≠ .escape ∧ (p.divert.2.foldl VteMode.follow mode).isString = false := by
    unfold Front.divert closeVteString
    split_ifs with needed
    · exact synced.tracks.close
    · have ground : p.controlString.state = .ground := by
        simpa [ControlString.needsClose, VteString.needsClose] using needed
      refine ⟨fun escape => ?_, Bool.eq_false_iff.mpr fun string => ?_⟩
      · exact VteString.noConfusion (ground.symm.trans (synced.tracks.escape escape).1)
      · have inside := (synced.tracks.string string).1.agrees.string
        rw [ground, show mode.isString = true from string] at inside
        exact Bool.noConfusion inside
  exact ⟨.outside closed.1 closed.2, fun _ => closed⟩

theorem scan (synced : p.Synced mode) (b : UInt8) :
    (p.scan b).front.Synced ((p.scan b).wires.foldl VteMode.follow mode) := by
  by_cases active : p.iterm2.isActive
  · obtain ⟨escape, string⟩ := synced.diverted active
    have outside (cs : ControlString) : cs.Tracks mode := .outside escape string
    have past := p.iterm2.push_idle b
    unfold Front.scan
    rw [if_neg (by simpa using active)]
    rcases pushed : p.iterm2.push b with ⟨scanner, _ | _ | _ | _⟩
    · exact ⟨outside _, fun _ => ⟨escape, string⟩⟩
    · refine .idle ((outside _).feedVte _) ?_
      exact decide_eq_false (not_not.mpr (by simpa [pushed, Iterm2OscScanner.clearReplay] using past))
    · simp only [VteMode.foldl_follow_emit]
      exact ⟨outside _, fun _ => ⟨escape, string⟩⟩
    · simp only [List.foldl_append, VteMode.foldl_follow_emit]
      refine .idle ((outside _).feedVte _) ?_
      exact decide_eq_false (not_not.mpr (by simpa [pushed, Iterm2OscScanner.clearReplay] using past))
  · rw [scan_inactive (by simpa using active)]
    exact synced

theorem plainByte (synced : p.Synced mode) (idle : p.iterm2.isActive = false) (b : UInt8) :
    (p.plainByte inflate b).1.Synced ((p.plainByte inflate b).2.foldl VteMode.follow mode) := by
  unfold Front.plainByte
  split_ifs
  · unfold apcByte
    split_ifs
    · obtain ⟨-, scanner, tracker, actions, wires⟩ := p.terminateApc_frame inflate
      rw [wires, VteMode.foldl_follow_emit]
      exact .idle (tracker ▸ synced.tracks.of_apc 0 false) (scanner ▸ idle)
    · exact (synced.abortApc idle).feed idle [b]
    · obtain ⟨-, scanner, ⟨apcBytes, apcRefused, tracker⟩, actions, wires⟩ := p.apcText_frame b
      rw [wires, VteMode.foldl_follow_emit]
      exact .idle (tracker ▸ synced.tracks.of_apc apcBytes apcRefused) (scanner ▸ idle)
  · exact synced.note.feed idle [b]

theorem groundEsc (synced : p.Synced mode) (idle : p.iterm2.isActive = false) (nxt : UInt8) :
    (p.groundEsc nxt).front.Synced ((p.groundEsc nxt).wires.foldl VteMode.follow mode) := by
  unfold Front.groundEsc
  split_ifs
  · exact synced.beginApc idle
  · exact synced.divert
  · exact synced.note.feed idle [0x1B]

theorem resumeGround (synced : p.Synced mode) (idle : p.iterm2.isActive = false) (nxt : UInt8) :
    (p.resumeGround nxt).front.Synced ((p.resumeGround nxt).wires.foldl VteMode.follow mode) := by
  unfold Front.resumeGround
  split_ifs
  · exact synced.beginApc idle
  · exact synced.divert
  · exact synced.feed idle [0x1B]

theorem terminateApc (synced : p.Synced mode) (idle : p.iterm2.isActive = false) :
    (p.terminateApc inflate).1.Synced ((p.terminateApc inflate).2.foldl VteMode.follow mode) := by
  obtain ⟨-, scanner, tracker, actions, wires⟩ := p.terminateApc_frame inflate
  rw [wires, VteMode.foldl_follow_emit]
  exact .idle (tracker ▸ synced.tracks.of_apc 0 false) (scanner ▸ idle)

theorem lookEsc (synced : p.Synced mode) (idle : p.iterm2.isActive = false) (nxt : UInt8) :
    (p.lookEsc inflate nxt).front.Synced ((p.lookEsc inflate nxt).wires.foldl VteMode.follow mode) := by
  have aborted := synced.abortApc idle
  unfold Front.lookEsc
  split_ifs
  · unfold apcEsc
    split_ifs
    · exact synced.terminateApc idle
    · exact aborted.groundEsc idle nxt
    · exact aborted.beginApc idle
    · exact aborted.divert
    · exact aborted.feed idle [0x1B]
  · exact synced.groundEsc idle nxt

theorem resume (synced : p.Synced mode) (idle : p.iterm2.isActive = false) (heldInApc : Bool) (next : UInt8) :
    (p.resume inflate heldInApc next).front.Synced ((p.resume inflate heldInApc next).wires.foldl VteMode.follow mode) := by
  have aborted := synced.abortApc idle
  unfold Front.resume
  split_ifs
  · exact aborted.resumeGround idle next
  · unfold resumeApc
    split_ifs
    · exact synced.terminateApc idle
    · exact aborted.feed idle [next]
    · exact aborted.beginApc idle
    · exact aborted.divert
    · exact aborted.feed idle [0x1B]
  · exact synced.resumeGround idle next

theorem loop (synced : p.Synced mode) (bytes : List UInt8) :
    (p.loop inflate bytes).1.front.Synced ((p.loop inflate bytes).2.foldl VteMode.follow mode) :=
  loop_invariant VteMode.follow Synced (fun _ b _ synced => synced.scan b) (fun _ b _ synced idle _ => synced.plainByte idle b)
    (fun _ nxt _ synced idle => synced.lookEsc idle nxt) synced bytes

theorem advance {p : Intake} (synced : p.front.Synced mode) (held : Held p) (bytes : List UInt8) :
    (p.advance inflate bytes).1.front.Synced ((p.advance inflate bytes).2.foldl VteMode.follow mode) := by
  unfold Intake.advance
  cases holds : p.held with
  | none => exact synced.loop bytes
  | some v =>
    cases bytes with
    | nil => exact synced
    | cons next rest =>
      simp only [List.foldl_append]
      exact (synced.resume (held.idle (by simp [holds])) v next).loop _

end Synced

end Front

theorem Parser.Reachable.synced {V : Vte} (doc : Documented V) {inflate : List UInt8 → Nat → Inflated} {m : Meaning}
    {p : Parser V} (reach : Reachable inflate m p) : p.intake.front.Synced (doc.mode p.back.stateMachine) := by
  induction reach with
  | new =>
    have ground : doc.mode (Parser.new V).back.stateMachine = .ground := doc.mode_init
    rw [ground]
    exact .idle (.ground _) rfl
  | withLedgerCap cap =>
    have ground : doc.mode (Parser.withLedgerCap V cap).back.stateMachine = .ground := doc.mode_init
    rw [ground]
    exact .idle (.ground _) rfl
  | advance bytes reach ih =>
    rw [Parser.advance, VteMode.follow_run]
    exact ih.advance reach.held bytes

end Bitty.Vt
