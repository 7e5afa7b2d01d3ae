import Bitty.Vt.Parser

namespace Bitty.Vt.Front

@[simp] theorem feed_inApc (p : Front) (bytes : List UInt8) : (p.feed bytes).1.inApc = p.inApc := rfl
@[simp] theorem feed_iterm2 (p : Front) (bytes : List UInt8) : (p.feed bytes).1.iterm2 = p.iterm2 := rfl
@[simp] theorem feed_kitty (p : Front) (bytes : List UInt8) : (p.feed bytes).1.kitty = p.kitty := rfl
@[simp] theorem note_inApc (p : Front) : p.note.inApc = p.inApc := rfl
@[simp] theorem note_iterm2 (p : Front) : p.note.iterm2 = p.iterm2 := rfl
@[simp] theorem note_controlString (p : Front) : p.note.controlString = p.controlString := rfl
@[simp] theorem abortApc_inApc (p : Front) : p.abortApc.inApc = false := rfl
@[simp] theorem abortApc_iterm2 (p : Front) : p.abortApc.iterm2 = p.iterm2 := rfl
@[simp] theorem abortApc_controlString (p : Front) : p.abortApc.controlString = p.controlString.endApc := rfl
@[simp] theorem abortApc_pending (p : Front) : p.abortApc.kitty.pending = none := rfl
@[simp] theorem beginApc_inApc (p : Front) : p.beginApc.inApc = true := rfl
@[simp] theorem beginApc_iterm2 (p : Front) : p.beginApc.iterm2 = p.iterm2 := rfl
@[simp] theorem beginApc_discard (p : Front) : p.beginApc.controlString.discard = none := rfl

@[simp] theorem closeVteString_inApc (p : Front) : p.closeVteString.1.inApc = p.inApc := by
  unfold closeVteString
  split <;> rfl

@[simp] theorem closeVteString_kitty (p : Front) : p.closeVteString.1.kitty = p.kitty := by
  unfold closeVteString
  split <;> rfl

@[simp] theorem divert_inApc (p : Front) : p.divert.1.inApc = p.inApc := p.closeVteString_inApc

variable {inflate : List UInt8 → Nat → Inflated}

theorem finishApc_frame (p : Front) :
    (p.finishApc inflate).1.inApc = false ∧ (p.finishApc inflate).1.iterm2 = p.iterm2 ∧
      (p.finishApc inflate).1.controlString = p.controlString ∧ ∃ actions : List TerminalAction, (p.finishApc inflate).2 = actions.map .emit := by
  refine ⟨rfl, rfl, rfl, ?_⟩
  unfold finishApc
  dsimp only
  split
  · exact ⟨[_], rfl⟩
  · exact ⟨[], rfl⟩

theorem terminateApc_frame (inflate : List UInt8 → Nat → Inflated) (p : Front) :
    (p.terminateApc inflate).1.inApc = false ∧ (p.terminateApc inflate).1.iterm2 = p.iterm2 ∧
      (p.terminateApc inflate).1.controlString = p.controlString.endApc ∧
      ∃ actions : List TerminalAction, (p.terminateApc inflate).2 = actions.map .emit := by
  unfold terminateApc
  dsimp only
  split_ifs
  · exact ⟨rfl, rfl, rfl, [], rfl⟩
  · exact finishApc_frame _
  · split
    · exact ⟨rfl, rfl, rfl, [_], rfl⟩
    · split
      · exact finishApc_frame _
      · exact ⟨rfl, rfl, rfl, [], rfl⟩

@[simp] theorem terminateApc_inApc (p : Front) : (p.terminateApc inflate).1.inApc = false :=
  (p.terminateApc_frame inflate).1

/-- While an `APC` is open no iTerm2 candidate is, and nothing of a refused string is left. -/
structure Apart (p : Front) : Prop where
  idle : p.inApc → p.iterm2.isActive = false
  undiscarded : p.inApc → p.controlString.discard = none

theorem Apart.outside {p : Front} (outside : p.inApc = false) : p.Apart :=
  ⟨by simp [outside], by simp [outside]⟩

@[simp] theorem scan_inApc (p : Front) (b : UInt8) : (p.scan b).front.inApc = p.inApc := by
  unfold scan
  by_cases active : p.iterm2.isActive
  · rcases pushed : p.iterm2.push b with ⟨scanner, _ | _ | _ | _⟩ <;> simp [active]
  · simp [active]

theorem scan_inactive {p : Front} (idle : p.iterm2.isActive = false) (b : UInt8) : p.scan b = ⟨p, [], false⟩ := by
  simp [scan, idle]

theorem scan_idle {p : Front} {b : UInt8} (passed : (p.scan b).consumed = false) :
    (p.scan b).front.iterm2.isActive = false := by
  by_cases active : p.iterm2.isActive
  · have past := p.iterm2.push_idle b
    unfold scan at passed ⊢
    rcases pushed : p.iterm2.push b with ⟨scanner, _ | _ | _ | _⟩ <;>
      simp_all [Iterm2OscScanner.isActive, Iterm2OscScanner.clearReplay]
  · rw [scan_inactive (by simpa using active)]
    simpa using active

theorem Apart.scan {p : Front} (apart : p.Apart) (b : UInt8) : (p.scan b).front.Apart := by
  by_cases inside : p.inApc
  · rwa [scan_inactive (apart.idle inside)]
  · exact .outside (by simpa using inside)

theorem apcText_frame (p : Front) (b : UInt8) :
    (p.apcText b).1.inApc = p.inApc ∧ (p.apcText b).1.iterm2 = p.iterm2 ∧
      (∃ apcBytes apcRefused, (p.apcText b).1.controlString = { p.controlString with apcBytes, apcRefused }) ∧
      ∃ actions : List TerminalAction, (p.apcText b).2 = actions.map .emit := by
  unfold apcText
  split_ifs with payload
  · split <;> exact ⟨rfl, rfl, ⟨_, _, rfl⟩, [], rfl⟩
  · have charged : ∃ apcBytes apcRefused, p.controlString.chargeApc.1 = { p.controlString with apcBytes, apcRefused } := by
      unfold ControlString.chargeApc
      split_ifs <;> exact ⟨_, _, rfl⟩
    dsimp only
    split_ifs
    · exact ⟨rfl, rfl, charged, [_], rfl⟩
    · exact ⟨rfl, rfl, charged, [], rfl⟩
    · split <;> exact ⟨rfl, rfl, charged, [], rfl⟩
    · exact ⟨rfl, rfl, charged, [], rfl⟩
    · exact ⟨rfl, rfl, charged, [], rfl⟩

theorem Apart.plainByte {p : Front} (apart : p.Apart) (b : UInt8) : (p.plainByte inflate b).1.Apart := by
  unfold Front.plainByte
  split_ifs with inside
  · unfold apcByte
    split_ifs
    · exact .outside p.terminateApc_inApc
    · exact .outside rfl
    · obtain ⟨-, sameScan, ⟨apcBytes, apcRefused, charged⟩, -⟩ := p.apcText_frame b
      refine ⟨fun _ => sameScan ▸ apart.idle inside, fun _ => ?_⟩
      rw [charged]
      exact apart.undiscarded inside
  · exact .outside (by simpa [groundByte] using inside)

theorem Apart.beginApc {p : Front} (idle : p.iterm2.isActive = false) : p.beginApc.Apart :=
  ⟨fun _ => idle, fun _ => rfl⟩

theorem Apart.groundEsc {p : Front} (outside : p.inApc = false) (idle : p.iterm2.isActive = false)
    (nxt : UInt8) : (p.groundEsc nxt).front.Apart := by
  unfold Front.groundEsc
  split_ifs
  · exact .beginApc idle
  · exact .outside (by simpa using outside)
  · exact .outside (by simpa using outside)

theorem Apart.lookEsc {p : Front} (idle : p.iterm2.isActive = false) (nxt : UInt8) :
    (p.lookEsc inflate nxt).front.Apart := by
  unfold Front.lookEsc
  split_ifs with inside
  · unfold apcEsc
    split_ifs
    · exact .outside p.terminateApc_inApc
    · exact .groundEsc p.abortApc_inApc idle nxt
    · exact .beginApc idle
    · exact .outside (by simp)
    · exact .outside rfl
  · exact .groundEsc (by simpa using inside) idle nxt

theorem Apart.resume {p : Front} (idle : p.iterm2.isActive = false) (nxt : UInt8) :
    (p.resume inflate p.inApc nxt).front.Apart := by
  have ground : ∀ q : Front, q.inApc = false → q.iterm2.isActive = false → (q.resumeGround nxt).front.Apart := by
    intro q outside quiet
    unfold resumeGround
    split_ifs
    · exact .beginApc quiet
    · exact .outside (by simpa using outside)
    · exact .outside (by simpa using outside)
  unfold Front.resume
  split_ifs with h₁ h₂
  · exact ground _ rfl idle
  · unfold resumeApc
    split_ifs
    · exact .outside p.terminateApc_inApc
    · exact .outside rfl
    · exact .beginApc idle
    · exact .outside (by simp)
    · exact .outside rfl
  · exact ground p (by simpa using h₂) idle

def prepend (wires : List Wire) (r : Intake × List Wire) : Intake × List Wire := (r.1, wires ++ r.2)

@[simp] theorem prepend_fst (wires : List Wire) (r : Intake × List Wire) : (prepend wires r).1 = r.1 := rfl

@[simp] theorem prepend_snd (wires : List Wire) (r : Intake × List Wire) : (prepend wires r).2 = wires ++ r.2 := rfl

theorem prepend_prepend (first second : List Wire) (r : Intake × List Wire) :
    prepend first (prepend second r) = prepend (first ++ second) r := by
  simp [prepend]

@[simp] theorem loop_nil (p : Front) : p.loop inflate [] = (⟨p, none⟩, []) := rfl

theorem loop_consumed {p : Front} {b : UInt8} (consumed : (p.scan b).consumed = true) (rest : List UInt8) :
    p.loop inflate (b :: rest) = prepend (p.scan b).wires ((p.scan b).front.loop inflate rest) := by
  rw [loop.eq_def]
  simp only [consumed, if_true]
  rfl

theorem loop_plain {p : Front} {b : UInt8} (passed : (p.scan b).consumed = false) (text : b ≠ 0x1B)
    (rest : List UInt8) :
    p.loop inflate (b :: rest) = prepend ((p.scan b).wires ++ ((p.scan b).front.plainByte inflate b).2)
      (((p.scan b).front.plainByte inflate b).1.loop inflate rest) := by
  rw [loop.eq_def]
  simp only [passed, text, ne_eq, not_false_eq_true, if_true]
  rfl

theorem loop_hold {p : Front} (passed : (p.scan 0x1B).consumed = false) :
    p.loop inflate [0x1B] = (⟨(p.scan 0x1B).front, some p.inApc⟩, (p.scan 0x1B).wires) := by
  simp [loop, passed]

theorem loop_look {p : Front} (passed : (p.scan 0x1B).consumed = false) (nxt : UInt8) (rest : List UInt8) :
    p.loop inflate (0x1B :: nxt :: rest) =
      prepend ((p.scan 0x1B).wires ++ ((p.scan 0x1B).front.lookEsc inflate nxt).wires)
        (((p.scan 0x1B).front.lookEsc inflate nxt).front.loop inflate
          (if ((p.scan 0x1B).front.lookEsc inflate nxt).consumed then rest else nxt :: rest)) := by
  simp only [loop, passed, ne_eq, not_true_eq_false, if_false]
  split_ifs <;> simp_all [prepend]

theorem loop_induction (inflate : List UInt8 → Nat → Inflated) {motive : Front → List UInt8 → Prop}
    (nil : ∀ p, motive p [])
    (consumed : ∀ p b rest, (p.scan b).consumed = true → motive (p.scan b).front rest → motive p (b :: rest))
    (plain : ∀ p b rest, (p.scan b).consumed = false → b ≠ 0x1B →
      motive ((p.scan b).front.plainByte inflate b).1 rest → motive p (b :: rest))
    (hold : ∀ p, (p.scan 0x1B).consumed = false → motive p [0x1B])
    (look : ∀ p nxt rest, (p.scan 0x1B).consumed = false →
      motive ((p.scan 0x1B).front.lookEsc inflate nxt).front
        (if ((p.scan 0x1B).front.lookEsc inflate nxt).consumed then rest else nxt :: rest) →
      motive p (0x1B :: nxt :: rest))
    (p : Front) (bytes : List UInt8) : motive p bytes := by
  induction p, bytes using Front.loop.induct inflate with
  | case1 p => exact nil p
  | case2 p b rest _ _ h ih => exact consumed p b rest h ih
  | case3 p b rest _ _ h text _ ih => exact plain p b rest (by simpa using h) text ih
  | case4 p b _ h text =>
    obtain rfl : b = 0x1B := by simpa using text
    exact hold p (by simpa using h)
  | case5 p b _ _ h text nxt rest _ ih₁ ih₂ =>
    obtain rfl : b = 0x1B := by simpa using text
    refine look p nxt rest (by simpa using h) ?_
    split_ifs
    · exact ih₁
    · exact ih₂

theorem loop_invariant {σ : Type*} (follow : σ → Wire → σ) (Inv : Front → σ → Prop)
    (scanned : ∀ p b s, Inv p s → Inv (p.scan b).front ((p.scan b).wires.foldl follow s))
    (plain : ∀ p b s, Inv p s → p.iterm2.isActive = false → b ≠ 0x1B →
      Inv (p.plainByte inflate b).1 ((p.plainByte inflate b).2.foldl follow s))
    (looked : ∀ p nxt s, Inv p s → p.iterm2.isActive = false →
      Inv (p.lookEsc inflate nxt).front ((p.lookEsc inflate nxt).wires.foldl follow s))
    {p : Front} {s : σ} (holds : Inv p s) (bytes : List UInt8) :
    Inv (p.loop inflate bytes).1.front ((p.loop inflate bytes).2.foldl follow s) := by
  induction p, bytes using loop_induction inflate generalizing s with
  | nil p => exact holds
  | consumed p b rest took ih =>
    rw [loop_consumed took, prepend_fst, prepend_snd, List.foldl_append]
    exact ih (scanned _ _ _ holds)
  | plain p b rest passed text ih =>
    rw [loop_plain passed text, prepend_fst, prepend_snd, List.foldl_append, List.foldl_append]
    exact ih (plain _ _ _ (scanned _ _ _ holds) (scan_idle passed) text)
  | hold p passed =>
    rw [loop_hold passed]
    exact scanned _ _ _ holds
  | look p nxt rest passed ih =>
    rw [loop_look passed, prepend_fst, prepend_snd, List.foldl_append, List.foldl_append]
    exact ih (looked _ _ _ (scanned _ _ _ holds) (scan_idle passed))

/-- A held `ESC` was held where it says, with no candidate open. -/
structure Held (p : Intake) : Prop where
  apart : p.front.Apart
  inApc : ∀ v, p.held = some v → v = p.front.inApc
  idle : p.held.isSome → p.front.iterm2.isActive = false

theorem loop_held {p : Front} (apart : p.Apart) (bytes : List UInt8) : Held (p.loop inflate bytes).1 := by
  induction p, bytes using loop_induction inflate with
  | nil p => exact ⟨apart, by simp, by simp⟩
  | consumed p b rest took ih =>
    rw [loop_consumed took]
    exact ih (apart.scan b)
  | plain p b rest passed text ih =>
    rw [loop_plain passed text]
    exact ih ((apart.scan b).plainByte b)
  | hold p passed =>
    rw [loop_hold passed]
    exact ⟨apart.scan _, by simp, fun _ => scan_idle passed⟩
  | look p nxt rest passed ih =>
    rw [loop_look passed]
    exact ih (.lookEsc (scan_idle passed) nxt)

theorem Held.advance {p : Intake} (holds : Held p) (bytes : List UInt8) : Held (p.advance inflate bytes).1 := by
  unfold Intake.advance
  cases held : p.held with
  | none => exact loop_held holds.apart bytes
  | some v =>
    cases bytes with
    | nil => exact holds
    | cons next rest =>
      obtain rfl := holds.inApc v held
      exact loop_held (.resume (holds.idle (by simp [held])) next) _

end Bitty.Vt.Front

namespace Bitty.Vt.Parser

variable {V : Vte} {inflate : List UInt8 → Nat → Inflated} {m : Meaning}

theorem Reachable.held {p : Parser V} (reach : Reachable inflate m p) : Front.Held p.intake := by
  induction reach with
  | new => exact ⟨.outside rfl, nofun, nofun⟩
  | withLedgerCap cap => exact ⟨.outside rfl, nofun, nofun⟩
  | advance bytes _ ih => exact ih.advance bytes

end Bitty.Vt.Parser
