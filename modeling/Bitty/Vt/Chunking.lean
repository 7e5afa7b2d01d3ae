import Bitty.Vt.Front
import Bitty.Vt.Machine

namespace Bitty.Vt

namespace ControlString

variable {cs : ControlString} {byte : UInt8}

theorem feedByte_leaving (undiscarded : cs.discard = none) (leaving : (cs.state.after byte).isString = false)
    (unhooking : ¬(cs.state = .other ∧ byte = 0x9C ∧ cs.dcsHooked = true)) :
    feedByte cs byte =
      ({ (if cs.state.isString then cs.endVteString else cs) with state := cs.state.after byte }, [.vte byte]) := by
  unfold feedByte visit
  simp only [undiscarded, leaving, if_neg unhooking, if_false, Bool.false_eq_true]
  split_ifs <;> simp [Fate.wires, undiscarded]

theorem after_escape (state : VteString) : state.after 0x1B = .escape := by
  cases state <;> rfl

theorem after_interrupt (state : VteString) (interrupt : byte = 0x18 ∨ byte = 0x1A) : state.after byte = .ground := by
  rcases interrupt with rfl | rfl <;> cases state <;> rfl

theorem feedByte_escape (undiscarded : cs.discard = none) :
    feedByte cs 0x1B = ({ (if cs.state.isString then cs.endVteString else cs) with state := .escape }, [.vte 0x1B]) := by
  rw [feedByte_leaving undiscarded (by rw [after_escape]; rfl) (by simp), after_escape]

theorem feedByte_interrupt (undiscarded : cs.discard = none) (interrupt : byte = 0x18 ∨ byte = 0x1A) :
    feedByte cs byte = ({ (if cs.state.isString then cs.endVteString else cs) with state := .ground }, [.vte byte]) := by
  rw [feedByte_leaving undiscarded (by rw [after_interrupt _ interrupt]; rfl)
    (by rcases interrupt with rfl | rfl <;> simp), after_interrupt _ interrupt]

theorem feedByte_escape_interrupt (undiscarded : cs.discard = none) (interrupt : byte = 0x18 ∨ byte = 0x1A) :
    (feedByte (feedByte cs 0x1B).1 byte) = feedByte cs byte := by
  rw [feedByte_escape undiscarded, feedByte_interrupt (by split_ifs <;> exact undiscarded) interrupt,
    feedByte_interrupt undiscarded interrupt]
  simp [VteString.isString]

end ControlString

namespace Front

variable {inflate : List UInt8 → Nat → Inflated}

theorem feed_singleton (p : Front) (byte : UInt8) :
    p.feed [byte] = ({ p with controlString := (feedByte p.controlString byte).1 }, (feedByte p.controlString byte).2) := by
  simp [feed, feedVte_eq_run, Transducer.run_singleton]

variable {p : Front}

theorem note_idle (idle : p.kitty.pending = none) : p.note = p := by
  simp [note, KittyApcAssembler.noteInterleaved, idle]

theorem groundEsc_idle (idle : p.kitty.pending = none) (nxt : UInt8) : p.groundEsc nxt = p.resumeGround nxt := by
  rw [groundEsc, resumeGround, note_idle idle]

theorem resume_eq_lookEsc (inflate : List UInt8 → Nat → Inflated) {nxt : UInt8}
    (charged : p.inApc = false → nxt = 0x5F ∨ nxt = 0x5D ∨ p.kitty.pending = none)
    (uninterrupted : p.inApc = true → p.apcDiscarding = true ∨ (nxt ≠ 0x18 ∧ nxt ≠ 0x1A)) :
    p.resume inflate p.inApc nxt = p.lookEsc inflate nxt := by
  unfold resume lookEsc
  cases inside : p.inApc with
  | false =>
    simp only [Bool.false_eq_true, false_and, if_false]
    rcases charged inside with rfl | rfl | idle
    · simp [resumeGround, groundEsc]
    · simp [resumeGround, groundEsc]
    · rw [groundEsc_idle idle]
  | true =>
    simp only [true_and, if_true]
    unfold apcEsc
    by_cases st : nxt = 0x5C
    · simp [st, resumeApc]
    · by_cases discarding : p.apcDiscarding
      · simp [discarding, st, groundEsc_idle p.abortApc_pending]
      · obtain ⟨noCan, noSub⟩ := (uninterrupted inside).resolve_left discarding
        simp [resumeApc, discarding, st, noCan, noSub]

end Front

/-- The rest of the stream, read as the loop reads it when it is in the same slice as what came
before. -/
def Intake.onward (inflate : List UInt8 → Nat → Inflated) (p : Intake) (bytes : List UInt8) :
    Intake × List Wire :=
  match p.held, bytes with
  | none, bytes => p.front.loop inflate bytes
  | some _, [] => (p, [])
  | some _, nxt :: rest =>
    Front.prepend (p.front.lookEsc inflate nxt).wires
      ((p.front.lookEsc inflate nxt).front.loop inflate
        (if (p.front.lookEsc inflate nxt).consumed then rest else nxt :: rest))

namespace Front

variable {inflate : List UInt8 → Nat → Inflated}

theorem loop_append (p : Front) (xs ys : List UInt8) :
    p.loop inflate (xs ++ ys) = prepend (p.loop inflate xs).2 ((p.loop inflate xs).1.onward inflate ys) := by
  induction p, xs using loop_induction inflate with
  | nil p => rfl
  | consumed p b rest took ih => rw [List.cons_append, loop_consumed took, loop_consumed took, ih, prepend_prepend]; rfl
  | plain p b rest passed text ih =>
    rw [List.cons_append, loop_plain passed text, loop_plain passed text, ih, prepend_prepend]
    rfl
  | hold p passed =>
    rw [loop_hold passed]
    cases ys with
    | nil => simp [loop_hold passed, Intake.onward, prepend]
    | cons y ys =>
      rw [List.singleton_append, loop_look passed, ← prepend_prepend]
      rfl
  | look p nxt rest passed ih =>
    rw [List.cons_append, List.cons_append, loop_look passed, loop_look passed]
    have same : (if ((p.scan 0x1B).front.lookEsc inflate nxt).consumed then rest ++ ys else nxt :: (rest ++ ys)) =
        (if ((p.scan 0x1B).front.lookEsc inflate nxt).consumed then rest else nxt :: rest) ++ ys := by
      split_ifs <;> rfl
    rw [same, ih, prepend_prepend]
    rfl

end Front

theorem Intake.advance_append (inflate : List UInt8 → Nat → Inflated) (p : Intake) {xs : List UInt8}
    (cut : xs ≠ []) (ys : List UInt8) :
    p.advance inflate (xs ++ ys) =
      Front.prepend (p.advance inflate xs).2 ((p.advance inflate xs).1.onward inflate ys) := by
  unfold advance
  cases p.held with
  | none => exact p.front.loop_append xs ys
  | some v =>
    obtain ⟨x, xs, rfl⟩ := List.exists_cons_of_ne_nil cut
    have same : (if (p.front.resume inflate v x).consumed then xs ++ ys else x :: (xs ++ ys)) =
        (if (p.front.resume inflate v x).consumed then xs else x :: xs) ++ ys := by
      split_ifs <;> rfl
    simp only [List.cons_append, same, Front.loop_append, Front.prepend_fst, Front.prepend_snd]
    simp [Front.prepend]

namespace Parser

variable {V : Vte} {inflate : List UInt8 → Nat → Inflated} {m : Meaning}

/-- `vte` answers `ESC next` as it answers `next` here, whatever follows. -/
def Blind (s : V.State) (next : UInt8) : Prop :=
  ∀ bytes, (V.advance s (0x1B :: next :: bytes)).2 = (V.advance s (next :: bytes)).2

/-- A cut after which `rest` follows is harmless: an `ESC` held outside an `APC` is not one that
an open kitty stream should be charged for, and an `ESC` held inside an accepted `APC` is not
lost before an interrupt that `vte` would answer differently after it. -/
def CleanCut (p : Parser V) (rest : List UInt8) : Prop :=
  match p.intake.held, rest with
  | some false, next :: _ => next = 0x5F ∨ next = 0x5D ∨ p.hasPendingKitty = false
  | some true, next :: _ =>
    p.intake.front.apcDiscarding = true ∨ (next ≠ 0x18 ∧ next ≠ 0x1A) ∨ Blind p.back.stateMachine next
  | _, _ => True

def Seamless (inflate : List UInt8 → Nat → Inflated) (m : Meaning) : Parser V → List (List UInt8) → Prop
  | _, [] => True
  | p, slice :: slices =>
    (slice ≠ [] → CleanCut (p.advance inflate m slice).1 slices.flatten) ∧
      Seamless inflate m (p.advance inflate m slice).1 slices

def onward (inflate : List UInt8 → Nat → Inflated) (m : Meaning) (p : Parser V) (bytes : List UInt8) :
    List TerminalAction :=
  (Transducer.run (Backend.execute m) p.back (p.intake.onward inflate bytes).2).2

@[simp] theorem advance_nil (p : Parser V) : p.advance inflate m [] = (p, []) := by
  obtain ⟨⟨front, held⟩, back⟩ := p
  cases held <;> rfl

theorem advanceAll_eq_run (p : Parser V) (slices : List (List UInt8)) :
    p.advanceAll inflate m slices =
      let fed := Transducer.run (Intake.advance inflate) p.intake slices
      let done := Transducer.run (Backend.execute m) p.back fed.2
      (⟨fed.1, done.1⟩, done.2) := by
  induction slices generalizing p with
  | nil => rfl
  | cons slice slices ih =>
    unfold advanceAll at ih ⊢
    rw [Transducer.run_cons, ih]
    simp [advance, Transducer.run_cons, Transducer.run_append]

theorem advance_append (p : Parser V) {xs : List UInt8} (cut : xs ≠ []) (ys : List UInt8) :
    (p.advance inflate m (xs ++ ys)).2 =
      (p.advance inflate m xs).2 ++ (p.advance inflate m xs).1.onward inflate m ys := by
  unfold advance onward
  rw [p.intake.advance_append inflate cut]
  simp

theorem Blind.alike {b : Backend V} {next : UInt8} (blind : Blind b.stateMachine next) :
    Backend.Alike (b.advance m [0x1B, next]).1 (b.advance m [next]).1 ∧
      (b.advance m [0x1B, next]).2 = (b.advance m [next]).2 := by
  have same : (V.advance b.stateMachine [0x1B, next]).2 = (V.advance b.stateMachine [next]).2 := blind []
  refine Backend.Alike.advance_of_events same (fun bytes => ?_) (.refl _)
  have whole : (V.advance b.stateMachine ([0x1B, next] ++ bytes)).2 =
      (V.advance b.stateMachine ([next] ++ bytes)).2 := blind bytes
  rw [V.advance_append, V.advance_append, same] at whole
  exact List.append_cancel_left whole

theorem onward_interrupt {p : Parser V} (held : Front.Held p.intake) (inApc : p.intake.held = some true)
    (accepted : p.intake.front.apcDiscarding = false) {next : UInt8} (interrupt : next = 0x18 ∨ next = 0x1A)
    (blind : Blind p.back.stateMachine next) (rest : List UInt8) :
    p.onward inflate m (next :: rest) = (p.advance inflate m (next :: rest)).2 := by
  have inside : p.intake.front.inApc = true := (held.inApc true inApc).symm
  have idle : p.intake.front.iterm2.isActive = false := held.idle (by simp [inApc])
  have undiscarded : p.intake.front.controlString.endApc.discard = none := held.apart.undiscarded inside
  have notSt : next ≠ 0x5C ∧ next ≠ 0x5F ∧ next ≠ 0x5D ∧ next ≠ 0x1B := by
    rcases interrupt with rfl | rfl <;> decide
  have resumed : p.intake.front.resume inflate true next =
      ⟨(p.intake.front.abortApc.feed [next]).1, [.vte next], true⟩ := by
    simp [Front.resume, Front.resumeApc, accepted, notSt, interrupt, Front.feed_singleton,
      ControlString.feedByte_interrupt undiscarded interrupt]
  have looked : p.intake.front.lookEsc inflate next =
      ⟨(p.intake.front.abortApc.feed [0x1B]).1, [.vte 0x1B], false⟩ := by
    simp [Front.lookEsc, Front.apcEsc, inside, accepted, notSt, Front.feed_singleton,
      ControlString.feedByte_escape undiscarded]
  have plain : (p.intake.front.abortApc.feed [0x1B]).1.plainByte inflate next =
      ((p.intake.front.abortApc.feed [next]).1, [.vte next]) := by
    rw [Front.plainByte, Front.feed_inApc, Front.abortApc_inApc, if_neg (by decide), Front.groundByte,
      Front.note_idle (by simp)]
    simp only [Front.feed_singleton, Front.abortApc_controlString,
      ControlString.feedByte_escape_interrupt undiscarded interrupt]
    rw [ControlString.feedByte_interrupt undiscarded interrupt]
  have passed : ((p.intake.front.abortApc.feed [0x1B]).1.scan next) =
      ⟨(p.intake.front.abortApc.feed [0x1B]).1, [], false⟩ := Front.scan_inactive (by simpa using idle) next
  unfold onward advance Intake.onward Intake.advance
  simp only [inApc, resumed, looked, if_true, if_false, Bool.false_eq_true]
  rw [Front.loop_plain (by rw [passed]) notSt.2.2.2, passed, plain]
  have twoBytes := Backend.run_vte m p.back [0x1B, next]
  have oneByte := Backend.run_vte m p.back [next]
  simp only [List.map_cons, List.map_nil] at twoBytes oneByte
  obtain ⟨alike, same⟩ := blind.alike (m := m)
  simp only [Front.prepend_snd, List.nil_append, ← List.append_assoc]
  rw [List.singleton_append, Transducer.run_append, Transducer.run_append, twoBytes, oneByte, same, (alike.run _).2]

theorem onward_eq_advance {p : Parser V} (held : Front.Held p.intake) {rest : List UInt8} (clean : CleanCut p rest) :
    p.onward inflate m rest = (p.advance inflate m rest).2 := by
  cases state : p.intake.held with
  | none => simp only [onward, advance, Intake.onward, Intake.advance, state]
  | some v =>
    cases rest with
    | nil => simp [onward, advance, Intake.onward, Intake.advance, state]
    | cons next rest =>
      obtain rfl := held.inApc v state
      have same (charged : p.intake.front.inApc = false → next = 0x5F ∨ next = 0x5D ∨ p.intake.front.kitty.pending = none)
          (uninterrupted : p.intake.front.inApc = true →
            p.intake.front.apcDiscarding = true ∨ (next ≠ 0x18 ∧ next ≠ 0x1A)) :
          p.onward inflate m (next :: rest) = (p.advance inflate m (next :: rest)).2 := by
        have looked := Front.resume_eq_lookEsc inflate charged uninterrupted
        simp only [onward, advance, Intake.onward, Intake.advance, state, looked, Front.prepend]
      cases inside : p.intake.front.inApc with
      | false =>
        simp only [CleanCut, state, inside, hasPendingKitty, KittyApcAssembler.hasPending,
          Option.isSome_eq_false_iff, Option.isNone_iff_eq_none] at clean
        exact same (fun _ => clean) (by simp [inside])
      | true =>
        rw [inside] at state
        simp only [CleanCut, state] at clean
        by_cases accepted : p.intake.front.apcDiscarding = false
        · by_cases interrupt : next = 0x18 ∨ next = 0x1A
          · have blind := (clean.resolve_left (by simp [accepted])).resolve_left
              (fun neither => interrupt.elim neither.1 neither.2)
            exact onward_interrupt held state accepted interrupt blind rest
          · exact same (by simp [inside]) (fun _ => .inr (not_or.mp interrupt))
        · exact same (by simp [inside]) (fun _ => .inl (by simpa using accepted))

/-- Cutting a stream into slices does not change the actions, if every cut is clean. -/
theorem advanceAll_eq_advance_flatten {p : Parser V} (reach : Reachable inflate m p) (slices : List (List UInt8))
    (seamless : Seamless inflate m p slices) :
    (p.advanceAll inflate m slices).2 = (p.advance inflate m slices.flatten).2 := by
  induction slices generalizing p with
  | nil => rw [List.flatten_nil, advance_nil]; rfl
  | cons slice slices ih =>
    obtain ⟨clean, later⟩ := seamless
    have whole := ih (reach.advance slice) later
    unfold advanceAll at whole ⊢
    rw [Transducer.run_cons_snd, whole, List.flatten_cons]
    by_cases cut : slice = []
    · rw [cut, advance_nil, List.nil_append, List.nil_append]
    · rw [advance_append p cut, onward_eq_advance (reach.advance slice).held (clean cut)]

/-- `A ESC | | _`: an `APC` introducer cut in two. -/
theorem advanceAll_eq_advance_flatten_apc :
    (advanceAll (fun _ _ => .failed) Reference.meaning (new Reference.vte) [[0x41, 0x1B], [], [0x5F]]).2 =
      ((new Reference.vte).advance (fun _ _ => .failed) Reference.meaning [0x41, 0x1B, 0x5F]).2 :=
  advanceAll_eq_advance_flatten .new _ ⟨fun _ => .inl rfl, fun empty => absurd rfl empty, fun _ => trivial, trivial⟩

end Parser

namespace Front

/-- Outside an `APC`, with an empty kitty stream open and `interleaved` bytes charged to it. -/
def streaming (interleaved : Nat) : Front where
  kitty := { KittyApcAssembler.new with
    pending := some {
      PendingKitty.ofParams {
        formatF := 100, widthS := none, heightV := none, actionA := none, colsC := 0, rowsR := 0
        cursorMovementC := 0, more := true, compressed := false, keys := {} } KITTY_APC_LEDGER_CAP with
      interleaved } }
  apcPayload := true

theorem streaming_text (interleaved : Nat) (room : interleaved + 1 ≤ KITTY_APC_STALL_MAX_BYTES) :
    (streaming interleaved).plainByte (fun _ _ => .failed) 0x61 = (streaming (interleaved + 1), [.vte 0x61]) := by
  rw [plainByte, if_neg (by simp [streaming]), groundByte, feed_singleton]
  simp [note, KittyApcAssembler.noteInterleaved, streaming, room, feedByte, ControlString.visit, VteString.after,
    VteString.isString, ControlString.Fate.wires]

theorem streaming_texts (interleaved count : Nat) (room : interleaved + count ≤ KITTY_APC_STALL_MAX_BYTES)
    (rest : List UInt8) :
    (streaming interleaved).loop (fun _ _ => .failed) (List.replicate count 0x61 ++ rest) =
      prepend (List.replicate count (.vte 0x61)) ((streaming (interleaved + count)).loop (fun _ _ => .failed) rest) := by
  induction count generalizing interleaved with
  | zero => rfl
  | succ count ih =>
    have quiet : (streaming interleaved).scan 0x61 = ⟨streaming interleaved, [], false⟩ := scan_inactive rfl _
    rw [List.replicate_succ, List.cons_append, loop_plain (by rw [quiet]) (by decide), quiet,
      streaming_text _ (by omega), ih _ (by omega), prepend_prepend, Nat.add_right_comm]
    rfl

end Front

namespace Parser

/-- `ESC _ Gf=100,m=1; ESC \` -/
def openStream : List UInt8 := [0x1B, 0x5F] ++ bytesOf "Gf=100,m=1;" ++ [0x1B, 0x5C]

/-- `ESC _ Gm=0; ESC \` -/
def closeStream : List UInt8 := [0x1B, 0x5F] ++ bytesOf "Gm=0;" ++ [0x1B, 0x5C]

/-- A stream is opened, `count` bytes of text follow, and the slice ends after an `ESC`. -/
def stalling (count : Nat) : List UInt8 := openStream ++ List.replicate count 0x61 ++ [0x1B]

theorem stalling_loop {count : Nat} (room : count ≤ KITTY_APC_STALL_MAX_BYTES) (rest : List UInt8) :
    ({} : Front).loop (fun _ _ => .failed) (stalling count ++ rest) =
      Front.prepend (List.replicate count (.vte 0x61)) ((Front.streaming count).loop (fun _ _ => .failed) ([0x1B] ++ rest)) := by
  have opened : ({} : Front).loop (fun _ _ => .failed) openStream = (⟨Front.streaming 0, none⟩, []) := by decide +kernel
  have texts := Front.streaming_texts 0 count (by simpa using room) ([0x1B] ++ rest)
  rw [Nat.zero_add] at texts
  rw [stalling, List.append_assoc, List.append_assoc, Front.loop_append, opened]
  exact texts

theorem cut_completes {slice : List UInt8} {texts : List Wire}
    (reads : ∀ rest, ({} : Front).loop (fun _ _ => .failed) (slice ++ rest) =
      Front.prepend texts ((Front.streaming 65530).loop (fun _ _ => .failed) ([0x1B] ++ rest))) :
    (advanceAll (fun _ _ => .failed) Reference.meaning (new Reference.vte) [slice, [0x37] ++ closeStream]).2 ≠
      ((new Reference.vte).advance (fun _ _ => .failed) Reference.meaning [slice, [0x37] ++ closeStream].flatten).2 := by
  have whole : (Intake.advance (fun _ _ => .failed) {} (slice ++ ([0x37] ++ closeStream))).2 =
      texts ++ [.vte 0x1B, .vte 0x37] := by
    have tail : ((Front.streaming 65530).loop (fun _ _ => .failed) ([0x1B] ++ ([0x37] ++ closeStream))).2 =
        [.vte 0x1B, .vte 0x37] := by decide +kernel
    rw [← tail, Intake.advance, reads, Front.prepend_snd]
  have first : Intake.advance (fun _ _ => .failed) {} slice = (⟨Front.streaming 65530, some false⟩, texts) := by
    have tail : (Front.streaming 65530).loop (fun _ _ => .failed) ([0x1B] ++ []) =
        (⟨Front.streaming 65530, some false⟩, []) := by decide +kernel
    rw [← List.append_nil slice, Intake.advance, reads, tail, Front.prepend, List.append_nil]
  have second : (Intake.advance (fun _ _ => .failed) ⟨Front.streaming 65530, some false⟩ ([0x37] ++ closeStream)).2 =
      [.vte 0x1B, .vte 0x37] ++ [.emit (.kittyGraphics 100 none none none 0 0 0 [] {})] := by decide +kernel
  simp only [advanceAll, advance, new, Transducer.run_cons_snd, Transducer.run_nil, List.append_nil,
    List.flatten_cons, List.flatten_nil, first, second, whole]
  rw [← Transducer.run_append_snd, ← List.append_assoc, Transducer.run_append_snd]
  exact fun same => absurd (List.append_right_eq_self.mp same) (by simp [Transducer.run, Backend.execute])

/-- `ESC 7` in the middle of a chunked image, cut after the `ESC`. -/
theorem advanceAll_ne_advance_flatten :
    (advanceAll (fun _ _ => .failed) Reference.meaning (new Reference.vte) [stalling 65530, [0x37] ++ closeStream]).2 ≠
      ((new Reference.vte).advance (fun _ _ => .failed) Reference.meaning
        [stalling 65530, [0x37] ++ closeStream].flatten).2 :=
  cut_completes (stalling_loop (by decide))

end Parser

end Bitty.Vt
