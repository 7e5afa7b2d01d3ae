import Bitty.Vt.Sync

namespace Bitty.Vt

/-- The bytes a list of wires hands to `vte`. -/
def forwarded (wires : List Wire) : List UInt8 :=
  wires.filterMap fun
    | .vte byte => some byte
    | _ => none

@[simp] theorem forwarded_nil : forwarded [] = [] := rfl

@[simp] theorem forwarded_append (xs ys : List Wire) : forwarded (xs ++ ys) = forwarded xs ++ forwarded ys :=
  List.filterMap_append

theorem forwarded_vte (byte : UInt8) (wires : List Wire) : forwarded (.vte byte :: wires) = byte :: forwarded wires := rfl

@[simp] theorem forwarded_emit (actions : List TerminalAction) : forwarded (actions.map .emit) = [] := by
  induction actions with
  | nil => rfl
  | cons _ _ ih => exact ih

def LeavesFirst (mode : VteMode) (wires : List Wire) : Prop :=
  ∃ y ys, forwarded wires = y :: ys ∧ (mode.next y).isString = false

namespace LeavesFirst

variable {mode : VteMode}

theorem append {xs : List Wire} (leaves : LeavesFirst mode xs) (ys : List Wire) : LeavesFirst mode (xs ++ ys) := by
  obtain ⟨y, rest, first, leaves⟩ := leaves
  exact ⟨y, rest ++ forwarded ys, by rw [forwarded_append, first]; rfl, leaves⟩

theorem escape (wires : List Wire) : LeavesFirst mode (.vte 0x1B :: wires) :=
  ⟨0x1B, forwarded wires, rfl, by rw [VteMode.next_escape]; rfl⟩

theorem interrupt {byte : UInt8} (interrupt : byte = 0x18 ∨ byte = 0x1A) (wires : List Wire) :
    LeavesFirst mode (.vte byte :: wires) :=
  ⟨byte, forwarded wires, rfl, by rw [VteMode.next_interrupt mode interrupt]; rfl⟩

theorem not_of_forwarded {wires : List Wire} (nothing : forwarded wires = []) : ¬LeavesFirst mode wires := by
  rintro ⟨y, ys, first, -⟩
  exact List.cons_ne_nil y ys (first.symm.trans nothing)

end LeavesFirst

namespace Front

variable {inflate : List UInt8 → Nat → Inflated} {p : Front} {mode : VteMode}

structure Open (p : Front) : Prop where
  undiscarded : p.controlString.discard = none
  string : p.controlString.state.isString = true

theorem Synced.open (synced : p.Synced mode) (string : mode.isString = true) : p.Open :=
  have shadows := (synced.tracks.string string).1
  ⟨shadows.undiscarded, shadows.agrees.string.trans string⟩

namespace Open

theorem abortApc (opened : p.Open) : p.abortApc.Open := ⟨opened.undiscarded, opened.string⟩

theorem note (opened : p.Open) : p.note.Open := ⟨opened.undiscarded, opened.string⟩

theorem feed_escape (opened : p.Open) : (p.feed [0x1B]).2 = [.vte 0x1B] := by
  rw [feed_singleton, ControlString.feedByte_escape opened.undiscarded]

theorem divert (opened : p.Open) : ∃ rest, p.divert.2 = .vte 0x1B :: rest := by
  have needed : p.controlString.needsClose = true := by
    have string := opened.string
    unfold ControlString.needsClose VteString.needsClose
    cases state : p.controlString.state <;> simp_all [VteString.isString]
  refine ⟨(Transducer.run feedByte (feedByte p.controlString 0x1B).1 [0x5C]).2, ?_⟩
  unfold Front.divert closeVteString
  rw [if_pos needed]
  simp only [feed, feedVte_eq_run, Transducer.run_cons_snd, ControlString.feedByte_escape opened.undiscarded]
  rfl

variable {nxt : UInt8}

theorem groundEsc (opened : p.Open) (closes : nxt ≠ 0x5F) : ∃ rest, (p.groundEsc nxt).wires = .vte 0x1B :: rest := by
  unfold Front.groundEsc
  rw [if_neg closes]
  split_ifs
  · exact opened.divert
  · exact ⟨[], opened.note.feed_escape⟩

theorem resumeGround (opened : p.Open) (closes : nxt ≠ 0x5F) :
    ∃ rest, (p.resumeGround nxt).wires = .vte 0x1B :: rest := by
  unfold Front.resumeGround
  rw [if_neg closes]
  split_ifs
  · exact opened.divert
  · exact ⟨[], opened.feed_escape⟩

theorem lookEsc (opened : p.Open) (opens : nxt ≠ 0x5F) (ends : ¬(p.inApc = true ∧ nxt = 0x5C)) :
    LeavesFirst mode (p.lookEsc inflate nxt).wires := by
  unfold Front.lookEsc
  split_ifs with inside
  · unfold apcEsc
    rw [if_neg (fun st => ends ⟨inside, st⟩), if_neg opens]
    split_ifs
    · obtain ⟨rest, wires⟩ := opened.abortApc.groundEsc opens
      exact wires ▸ .escape rest
    · obtain ⟨rest, wires⟩ := opened.abortApc.divert
      exact wires ▸ .escape rest
    · exact opened.abortApc.feed_escape ▸ .escape []
  · obtain ⟨rest, wires⟩ := opened.groundEsc opens
    exact wires ▸ .escape rest

theorem resume (opened : p.Open) (opens : nxt ≠ 0x5F) (ends : ¬(p.inApc = true ∧ nxt = 0x5C)) :
    LeavesFirst mode (p.resume inflate p.inApc nxt).wires := by
  unfold Front.resume
  split_ifs with discarding inside
  · obtain ⟨rest, wires⟩ := opened.abortApc.resumeGround opens
    exact wires ▸ .escape rest
  · unfold resumeApc
    rw [if_neg (fun st => ends ⟨inside, st⟩), if_neg opens]
    split_ifs with interrupt
    · rw [feed_singleton, ControlString.feedByte_interrupt opened.abortApc.undiscarded interrupt]
      exact .interrupt interrupt []
    · obtain ⟨rest, wires⟩ := opened.abortApc.divert
      exact wires ▸ .escape rest
    · exact opened.abortApc.feed_escape ▸ .escape []
  · obtain ⟨rest, wires⟩ := opened.resumeGround opens
    exact wires ▸ .escape rest

end Open

theorem lookEsc_quiet (inflate : List UInt8 → Nat → Inflated) {nxt : UInt8} (quiet : nxt = 0x5F ∨ p.inApc = true ∧ nxt = 0x5C) :
    forwarded (p.lookEsc inflate nxt).wires = [] ∧ (p.lookEsc inflate nxt).consumed = true := by
  unfold lookEsc
  rcases quiet with rfl | ⟨inside, rfl⟩
  · have notSt : (0x5F : UInt8) ≠ 0x5C := by decide
    simp only [apcEsc, groundEsc, notSt, if_true, if_false]
    split_ifs <;> exact ⟨rfl, rfl⟩
  · obtain ⟨-, -, -, actions, wires⟩ := p.terminateApc_frame inflate
    simp [inside, apcEsc, wires]

theorem resume_quiet (inflate : List UInt8 → Nat → Inflated) {nxt : UInt8} (quiet : nxt = 0x5F ∨ p.inApc = true ∧ nxt = 0x5C) :
    forwarded (p.resume inflate p.inApc nxt).wires = [] ∧ (p.resume inflate p.inApc nxt).consumed = true := by
  unfold resume
  rcases quiet with rfl | ⟨inside, rfl⟩
  · have notSt : (0x5F : UInt8) ≠ 0x5C := by decide
    have notInterrupt : ¬((0x5F : UInt8) = 0x18 ∨ (0x5F : UInt8) = 0x1A) := by decide
    simp only [resumeApc, resumeGround, notSt, notInterrupt, if_true, if_false]
    split_ifs <;> exact ⟨rfl, rfl⟩
  · obtain ⟨-, -, -, actions, wires⟩ := p.terminateApc_frame inflate
    simp [inside, resumeApc, wires]

end Front

namespace Intake

variable (inflate : List UInt8 → Nat → Inflated)

theorem advance_nil (p : Intake) : p.advance inflate [] = (p, []) := by
  obtain ⟨front, held⟩ := p
  cases held <;> rfl

variable {slices : List (List UInt8)}

theorem run_nothing (p : Intake) (empty : slices.flatten = []) :
    Transducer.run (advance inflate) p slices = (p, []) := by
  induction slices with
  | nil => rfl
  | cons slice slices ih =>
    obtain ⟨rfl, rest⟩ := List.append_eq_nil_iff.mp empty
    rw [Transducer.run_cons, advance_nil, ih rest]
    rfl

theorem run_one (p : Intake) {b : UInt8} (cut : slices.flatten = [b]) :
    Transducer.run (advance inflate) p slices = p.advance inflate [b] := by
  induction slices with
  | nil => exact absurd cut (by simp)
  | cons slice slices ih =>
    rw [Transducer.run_cons]
    rcases List.append_eq_singleton_iff.mp cut with ⟨rfl, rest⟩ | ⟨rfl, rest⟩
    · rw [advance_nil, ih rest]
      rfl
    · rw [run_nothing inflate _ rest, List.append_nil]

theorem run_two (p : Intake) {a b : UInt8} (cut : slices.flatten = [a, b]) :
    Transducer.run (advance inflate) p slices = p.advance inflate [a, b] ∨
    Transducer.run (advance inflate) p slices =
      ((((p.advance inflate [a]).1).advance inflate [b]).1,
        (p.advance inflate [a]).2 ++ (((p.advance inflate [a]).1).advance inflate [b]).2) := by
  induction slices with
  | nil => exact absurd cut (by simp)
  | cons slice slices ih =>
    rw [Transducer.run_cons]
    rcases slice with _ | ⟨x, _ | ⟨y, slice⟩⟩
    · rw [advance_nil]
      exact ih cut
    · obtain ⟨rfl, rest⟩ := List.cons_eq_cons.mp cut
      rw [run_one inflate _ rest]
      exact .inr rfl
    · simp only [List.flatten_cons, List.cons_append, List.cons.injEq, List.append_eq_nil_iff] at cut
      obtain ⟨rfl, rfl, rfl, rest⟩ := cut
      rw [run_nothing inflate _ rest, List.append_nil]
      exact .inl rfl

end Intake

/-- `ESC x` with the two bytes in one slice or in two, while `vte` has a string open: the string is
left before anything else reaches `vte`, unless `ESC x` opens an `APC`, or ends one that was
opened over the string. -/
theorem escape_leaves_iff {V : Vte} (doc : Documented V) {inflate : List UInt8 → Nat → Inflated} {m : Meaning}
    {p : Parser V} (reach : Parser.Reachable inflate m p) (settled : p.intake.held = none)
    (string : (doc.mode p.back.stateMachine).isString = true) (x : UInt8) {slices : List (List UInt8)}
    (cut : slices.flatten = [0x1B, x]) :
    LeavesFirst (doc.mode p.back.stateMachine) (Transducer.run (Intake.advance inflate) p.intake slices).2 ↔
      x ≠ 0x5F ∧ ¬(p.intake.front.inApc = true ∧ x = 0x5C) := by
  have synced := reach.synced doc
  have opened := synced.open string
  have idle : p.intake.front.iterm2.isActive = false :=
    Bool.eq_false_iff.mpr fun active => by simp [(synced.diverted active).2] at string
  have passed := Front.scan_inactive idle 0x1B
  have quiet : ¬(x ≠ 0x5F ∧ ¬(p.intake.front.inApc = true ∧ x = 0x5C)) →
      x = 0x5F ∨ p.intake.front.inApc = true ∧ x = 0x5C := by tauto
  rcases p.intake.run_two inflate cut with together | apart
  · rw [together, Intake.advance, settled]
    dsimp only
    rw [Front.loop_look (by rw [passed]), passed]
    constructor
    · intro leaves
      by_contra kept
      obtain ⟨nothing, consumed⟩ := Front.lookEsc_quiet inflate (quiet kept)
      refine LeavesFirst.not_of_forwarded ?_ leaves
      simp [consumed, nothing]
    · rintro ⟨opens, ends⟩
      exact (opened.lookEsc opens ends).append _
  · have first : p.intake.advance inflate [0x1B] = (⟨p.intake.front, some p.intake.front.inApc⟩, []) := by
      rw [Intake.advance, settled]
      dsimp only
      rw [Front.loop_hold (by rw [passed]), passed]
    rw [apart, first]
    constructor
    · intro leaves
      by_contra kept
      obtain ⟨nothing, consumed⟩ := Front.resume_quiet inflate (quiet kept)
      refine LeavesFirst.not_of_forwarded ?_ leaves
      simp [Intake.advance, consumed, nothing]
    · rintro ⟨opens, ends⟩
      exact (opened.resume opens ends).append _

/-- `ESC ] 0 ; t`: a title is open. -/
def titled : Parser Reference.vte :=
  ((Parser.new Reference.vte).advance (fun _ _ => .failed) Reference.meaning ([0x1B] ++ bytesOf "]0;t")).1

theorem titled_reachable : Parser.Reachable (fun _ _ => .failed) Reference.meaning titled := .advance _ .new

theorem titled_intake : titled.intake =
    { front := { controlString := { state := .osc, bytes := 3 } } } := by
  have read : (Intake.advance (fun _ _ => .failed) {} ([0x1B] ++ bytesOf "]0;t")).1 =
      { front := { controlString := { state := .osc, bytes := 3 } } } := by decide
  exact read

theorem titled_mode : Reference.documented.mode titled.back.stateMachine = .oscString := by
  rw [titled, Parser.advance, VteMode.follow_run]
  have read : (Intake.advance (fun _ _ => .failed) {} ([0x1B] ++ bytesOf "]0;t")).2.foldl VteMode.follow .ground =
      .oscString := by decide
  exact read

/-- `ESC | ]` in a title. -/
theorem escape_leaves_iff_candidate :
    LeavesFirst (Reference.documented.mode titled.back.stateMachine)
      (Transducer.run (Intake.advance (fun _ _ => .failed)) titled.intake [[0x1B], [0x5D]]).2 :=
  (escape_leaves_iff Reference.documented titled_reachable (by rw [titled_intake]) (by rw [titled_mode]; rfl) 0x5D rfl).mpr
    (by rw [titled_intake]; decide)

/-- `ESC _` in a title is kept from `vte`, and after the `APC` text goes on into the title. -/
theorem escape_stays_apc :
    Parser.Reachable (fun _ _ => .failed) Reference.meaning titled ∧
      Reference.documented.mode titled.back.stateMachine = .oscString ∧
      ¬LeavesFirst (Reference.documented.mode titled.back.stateMachine)
        (Transducer.run (Intake.advance (fun _ _ => .failed)) titled.intake [[0x1B, 0x5F]]).2 ∧
      Reference.documented.mode (titled.advance (fun _ _ => .failed) Reference.meaning
        ([0x1B] ++ bytesOf "_x" ++ [0x1B] ++ bytesOf "\\hi")).1.back.stateMachine = .oscString := by
  refine ⟨titled_reachable, titled_mode, LeavesFirst.not_of_forwarded ?_, ?_⟩
  · rw [titled_intake]
    decide
  · rw [Parser.advance, VteMode.follow_run, titled_mode, titled_intake]
    decide

end Bitty.Vt
