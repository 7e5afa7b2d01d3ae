import Bitty.Vt.Bridge

namespace Bitty.Vt

/-- The states of `vte` 0.15. -/
inductive VteMode
  | ground
  | escape
  | escapeIntermediate
  | csiEntry
  | csiParam
  | csiIntermediate
  | csiIgnore
  | dcsEntry
  | dcsParam
  | dcsIntermediate
  | dcsIgnore
  | dcsPassthrough
  | oscString
  | sosPmApcString
  deriving DecidableEq

namespace VteMode

/-- `anywhere`: `CAN` and `SUB` return to Ground, `ESC` starts a sequence. -/
def anywhere (mode : VteMode) (b : UInt8) : VteMode :=
  if b = 0x18 ∨ b = 0x1A then .ground
  else if b = 0x1B then .escape
  else mode

def next (mode : VteMode) (b : UInt8) : VteMode :=
  match mode with
  | .ground => if b = 0x1B then .escape else .ground
  | .escape =>
    if b = 0x50 then .dcsEntry
    else if b = 0x5B then .csiEntry
    else if b = 0x5D then .oscString
    else if b = 0x58 ∨ b = 0x5E ∨ b = 0x5F then .sosPmApcString
    else if 0x20 ≤ b ∧ b ≤ 0x2F then .escapeIntermediate
    else if 0x30 ≤ b ∧ b ≤ 0x7E then .ground
    else anywhere .escape b
  | .escapeIntermediate => if 0x30 ≤ b ∧ b ≤ 0x7E then .ground else anywhere .escapeIntermediate b
  | .csiEntry =>
    if 0x20 ≤ b ∧ b ≤ 0x2F then .csiIntermediate
    else if 0x30 ≤ b ∧ b ≤ 0x3F then .csiParam
    else if 0x40 ≤ b ∧ b ≤ 0x7E then .ground
    else anywhere .csiEntry b
  | .csiParam =>
    if 0x20 ≤ b ∧ b ≤ 0x2F then .csiIntermediate
    else if 0x3C ≤ b ∧ b ≤ 0x3F then .csiIgnore
    else if 0x40 ≤ b ∧ b ≤ 0x7E then .ground
    else anywhere .csiParam b
  | .csiIntermediate =>
    if 0x30 ≤ b ∧ b ≤ 0x3F then .csiIgnore
    else if 0x40 ≤ b ∧ b ≤ 0x7E then .ground
    else anywhere .csiIntermediate b
  | .csiIgnore => if 0x40 ≤ b ∧ b ≤ 0x7E then .ground else anywhere .csiIgnore b
  | .dcsEntry =>
    if 0x20 ≤ b ∧ b ≤ 0x2F then .dcsIntermediate
    else if 0x30 ≤ b ∧ b ≤ 0x3F then .dcsParam
    else if 0x40 ≤ b ∧ b ≤ 0x7E then .dcsPassthrough
    else anywhere .dcsEntry b
  | .dcsParam =>
    if 0x20 ≤ b ∧ b ≤ 0x2F then .dcsIntermediate
    else if 0x3C ≤ b ∧ b ≤ 0x3F then .dcsIgnore
    else if 0x40 ≤ b ∧ b ≤ 0x7E then .dcsPassthrough
    else anywhere .dcsParam b
  | .dcsIntermediate =>
    if 0x30 ≤ b ∧ b ≤ 0x3F then .dcsIgnore
    else if 0x40 ≤ b ∧ b ≤ 0x7E then .dcsPassthrough
    else anywhere .dcsIntermediate b
  | .dcsIgnore => anywhere .dcsIgnore b
  | .dcsPassthrough => if b = 0x9C then .ground else anywhere .dcsPassthrough b
  | .oscString => if b = 0x07 then .ground else anywhere .oscString b
  | .sosPmApcString => anywhere .sosPmApcString b

def isString (mode : VteMode) : Bool :=
  match mode with
  | .dcsEntry | .dcsParam | .dcsIntermediate | .dcsIgnore | .dcsPassthrough | .oscString | .sosPmApcString => true
  | _ => false

@[simp] theorem next_escape (mode : VteMode) : mode.next 0x1B = .escape := by
  cases mode <;> rfl

end VteMode

def VteEvent.isHook : VteEvent → Bool
  | .hook .. => true
  | _ => false

/-- What `vte` documents of itself: its state table, that an `ESC` or the end of a string leaves
nothing behind, that `ESC \` is an `esc_dispatch` of its own, and that `hook` and `unhook` come
when a DCS passthrough is entered and left. -/
structure Documented (V : Vte) where
  mode : V.State → VteMode
  mode_init : mode V.init = .ground
  mode_step : ∀ s b, mode (V.step s b).1 = (mode s).next b
  escape_forgets : ∀ s t, V.TraceEq (V.step s 0x1B).1 (V.step t 0x1B).1
  string_end_forgets : ∀ s t b c, (mode s).isString → (mode t).isString →
    (mode s).next b = .ground → (mode t).next c = .ground → V.TraceEq (V.step s b).1 (V.step t c).1
  escape_escape_quiet : ∀ s, mode s = .escape → (V.step s 0x1B).2 = []
  escape_st : ∀ s, mode s = .escape → (V.step s 0x5C).2 = [.escDispatch [] false 0x5C]
  st_escape_quiet : ∀ s, mode s = .escape → (V.step (V.step s 0x5C).1 0x1B).2 = []
  hook_enters : ∀ s b, (∃ e ∈ (V.step s b).2, e.isHook) → (mode s).next b = .dcsPassthrough
  unhook_leaves : ∀ s b, mode s = .dcsPassthrough → (mode s).next b ≠ .dcsPassthrough →
    ∃ later, (V.step s b).2 = .unhook :: later ∧ ∀ e ∈ later, e.isHook = false

namespace Documented

variable {V : Vte} (doc : Documented V)

theorem mode_advance (s : V.State) (bytes : List UInt8) :
    doc.mode (V.advance s bytes).1 = bytes.foldl VteMode.next (doc.mode s) := by
  induction bytes generalizing s with
  | nil => rw [V.advance_nil]; rfl
  | cons b bytes ih => rw [V.advance_cons_fst, ih, doc.mode_step]; rfl

end Documented

namespace Reference

/-- The state of a machine that keeps what is documented: its mode and the bytes collected since
the open sequence began. It prints bytes from `0x80` on as replacement characters. -/
structure State where
  mode : VteMode := .ground
  collected : List UInt8 := []

def isIntermediate (b : UInt8) : Bool := 0x20 ≤ b ∧ b ≤ 0x2F ∨ 0x3C ≤ b ∧ b ≤ 0x3F

/-- A decimal parameter; `u16` parameters saturate. -/
def parameter (text : List UInt8) : Nat :=
  min 65535 (text.foldl (fun acc b => acc * 10 + (b.toNat - 0x30)) 0)

def parameters (text : List UInt8) : Params :=
  if text = [] then [] else (text.splitOn 0x3B).map (fun piece => (piece.splitOn 0x3A).map parameter)

def header (collected : List UInt8) : Params × List UInt8 :=
  (parameters (collected.filter (fun b => 0x30 ≤ b ∧ b ≤ 0x3B)), collected.filter isIntermediate)

def interrupt (b : UInt8) : List VteEvent := if b = 0x18 ∨ b = 0x1A then [.execute b] else []

def isControl (b : UInt8) : Bool := b ≤ 0x1F ∧ b ≠ 0x1B

def events (s : State) (b : UInt8) : List VteEvent :=
  match s.mode with
  | .ground =>
    if isControl b then [.execute b]
    else if b = 0x1B ∨ b = 0x7F then []
    else if b ≤ 0x7E then [.print (Char.ofNat b.toNat)]
    else [.print (Char.ofNat 0xFFFD)]
  | .escape =>
    if isControl b then [.execute b]
    else if s.mode.next b = .ground then [.escDispatch [] false b]
    else []
  | .escapeIntermediate =>
    if isControl b then [.execute b]
    else if s.mode.next b = .ground then [.escDispatch s.collected false b]
    else []
  | .csiEntry | .csiParam | .csiIntermediate =>
    if isControl b then [.execute b]
    else if s.mode.next b = .ground then
      [.csiDispatch (header s.collected).1 (header s.collected).2 false (Char.ofNat b.toNat)]
    else []
  | .csiIgnore => if isControl b then [.execute b] else []
  | .dcsEntry | .dcsParam | .dcsIntermediate =>
    if s.mode.next b = .dcsPassthrough then
      [.hook (header s.collected).1 (header s.collected).2 false (Char.ofNat b.toNat)]
    else interrupt b
  | .dcsIgnore | .sosPmApcString => interrupt b
  | .dcsPassthrough =>
    if b = 0x18 ∨ b = 0x1A then [.unhook, .execute b]
    else if b = 0x1B ∨ b = 0x9C then [.unhook]
    else if b ≤ 0x7E then [.put b]
    else []
  | .oscString =>
    if b = 0x07 ∨ b = 0x1B ∨ b = 0x18 ∨ b = 0x1A then
      .oscDispatch (s.collected.splitOn 0x3B) (b = 0x07) :: interrupt b
    else []

def collect (s : State) (b : UInt8) : List UInt8 :=
  let next := s.mode.next b
  if next = .ground ∨ next = .escape then []
  else if s.mode = .escape ∧ next ≠ .escapeIntermediate then []
  else if b ≤ 0x1F ∨ next = .dcsPassthrough ∨ next = .sosPmApcString then s.collected
  else s.collected ++ [b]

def step (s : State) (b : UInt8) : State × List VteEvent := (⟨s.mode.next b, collect s b⟩, events s b)

def vte : Vte := StreamMachine.ofStep {} step

theorem step_eq (s : vte.State) (b : UInt8) : vte.step s b = step s b := Transducer.run_singleton s b

theorem step_dropped {s : State} {b : UInt8} {mode : VteMode} (goes : s.mode.next b = mode)
    (plain : mode = .ground ∨ mode = .escape) : (step s b).1 = ⟨mode, []⟩ := by
  subst goes
  simp [step, collect, plain]

theorem traceEq_of_step {s t : vte.State} {b c : UInt8} {mode : VteMode} (left : (step s b).1 = ⟨mode, []⟩)
    (right : (step t c).1 = ⟨mode, []⟩) : vte.TraceEq (vte.step s b).1 (vte.step t c).1 := by
  rw [step_eq, step_eq]
  exact fun bytes => by rw [left, right]

theorem interrupt_hook (b : UInt8) : ∀ e ∈ interrupt b, e.isHook = false := by
  unfold interrupt
  split_ifs <;> simp [VteEvent.isHook]

theorem events_hook {s : State} {b : UInt8} (stays : s.mode.next b ≠ .dcsPassthrough) :
    ∀ e ∈ events s b, e.isHook = false := by
  have quiet := interrupt_hook b
  unfold events
  cases mode : s.mode <;> dsimp only <;> (try split_ifs) <;> simp_all [VteEvent.isHook]

theorem events_unhook {s : State} {b : UInt8} (inside : s.mode = .dcsPassthrough)
    (leaves : s.mode.next b ≠ .dcsPassthrough) :
    ∃ later, events s b = .unhook :: later ∧ ∀ e ∈ later, e.isHook = false := by
  have last : b = 0x18 ∨ b = 0x1A ∨ b = 0x1B ∨ b = 0x9C := by
    rw [inside] at leaves
    simp only [VteMode.next, VteMode.anywhere] at leaves
    grind
  rcases last with rfl | rfl | rfl | rfl <;> simp [events, inside, VteEvent.isHook]

def meaning : Meaning where
  csiDispatch _ _ _ _ := []
  oscDispatch _ _ := []
  decodeSixel _ _ := .error .empty

def documented : Documented vte where
  mode := State.mode
  mode_init := rfl
  mode_step s b := congrArg (fun r => r.1.mode) (step_eq s b)
  escape_forgets _ _ :=
    traceEq_of_step (step_dropped (VteMode.next_escape _) (.inr rfl)) (step_dropped (VteMode.next_escape _) (.inr rfl))
  string_end_forgets _ _ _ _ _ _ left right :=
    traceEq_of_step (step_dropped left (.inl rfl)) (step_dropped right (.inl rfl))
  escape_escape_quiet s (escape : State.mode s = .escape) := by
    refine (congrArg Prod.snd (step_eq s 0x1B)).trans ?_
    simp only [step, events, escape]
    decide
  escape_st s (escape : State.mode s = .escape) := by
    refine (congrArg Prod.snd (step_eq s 0x5C)).trans ?_
    simp only [step, events, escape]
    decide
  st_escape_quiet s (escape : State.mode s = .escape) := by
    refine (congrArg Prod.snd (step_eq _ 0x1B)).trans ?_
    have dropped : (vte.step s 0x5C).1 = (⟨.ground, []⟩ : State) :=
      (congrArg Prod.fst (step_eq s 0x5C)).trans (step_dropped (by rw [escape]; rfl) (.inl rfl))
    rw [dropped]
    rfl
  hook_enters s b hooked := by
    obtain ⟨e, member, hook⟩ := hooked
    rw [show (vte.step s b).2 = events s b from congrArg Prod.snd (step_eq s b)] at member
    by_contra stays
    exact Bool.noConfusion (hook.symm.trans (events_hook stays e member))
  unhook_leaves s b (inside : State.mode s = .dcsPassthrough) leaves := by
    rw [show (vte.step s b).2 = events s b from congrArg Prod.snd (step_eq s b)]
    exact events_unhook inside leaves

end Reference

end Bitty.Vt
