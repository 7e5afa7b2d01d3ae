import Bitty.Vt.Diversion

namespace Bitty.Vt

variable {V : Vte} {m : Meaning}

namespace Backend

theorem advance_append (b : Backend V) (xs ys : List UInt8) :
    b.advance m (xs ++ ys) = (((b.advance m xs).1.advance m ys).1, (b.advance m xs).2 ++ ((b.advance m xs).1.advance m ys).2) := by
  rw [← run_vte, List.map_append, Transducer.run_append, run_vte, run_vte]

theorem advance_nil (b : Backend V) : b.advance m [] = (b, []) := by
  rw [← run_vte]
  rfl

end Backend

/-- From any backend, handing `vte` the bytes `held` and then `xs` is the same as the wires `ws` and
then `later`: no action is added, lost or moved, and what follows is answered alike. -/
def Serves (V : Vte) (m : Meaning) (held xs : List UInt8) (ws : List Wire) (later : List UInt8) : Prop :=
  ∀ b : Backend V,
    Backend.Alike (b.advance m (held ++ xs)).1 ((Transducer.run (Backend.execute m) b ws).1.advance m later).1 ∧
      (b.advance m (held ++ xs)).2 =
        (Transducer.run (Backend.execute m) b ws).2 ++ ((Transducer.run (Backend.execute m) b ws).1.advance m later).2

namespace Serves

variable {held later : List UInt8} {xs : List UInt8} {ws : List Wire}

theorem trans (first : Serves V m held xs ws later) {ys : List UInt8} {us : List Wire} {last : List UInt8}
    (second : Serves V m later ys us last) : Serves V m held (xs ++ ys) (ws ++ us) last := by
  intro b
  obtain ⟨alike, same⟩ := first b
  obtain ⟨next, actions⟩ := second (Transducer.run (Backend.execute m) b ws).1
  obtain ⟨onward, answered⟩ := alike.advance (m := m) ys
  rw [Backend.advance_append] at next actions
  rw [← List.append_assoc, Backend.advance_append, Transducer.run_append]
  refine ⟨onward.trans next, ?_⟩
  dsimp only at actions ⊢
  rw [same, answered, List.append_assoc, actions, List.append_assoc]

theorem forward (held xs : List UInt8) : Serves V m held xs ((held ++ xs).map .vte) [] := by
  intro b
  rw [Backend.run_vte, Backend.advance_nil, List.append_nil]
  exact ⟨.refl _, rfl⟩

theorem hold (held xs : List UInt8) : Serves V m held xs [] (held ++ xs) := fun _ => ⟨.refl _, rfl⟩

theorem close (doc : Documented V) (xs : List UInt8) :
    Serves V m [] (0x1B :: xs) [.vte 0x1B, .vte 0x5C] (0x1B :: xs) := by
  intro b
  let escaped := (b.advance m [0x1B]).1
  have mode : doc.mode escaped.stateMachine = .escape := (doc.mode_step b.stateMachine 0x1B).trans (VteMode.next_escape _)
  have st : escaped.advance m [0x5C] = (⟨(V.step escaped.stateMachine 0x5C).1, escaped.dcs⟩, []) := by
    have events : (V.advance escaped.stateMachine [0x5C]).2 = [.escDispatch [] false 0x5C] := doc.escape_st _ mode
    rw [Backend.advance, events, Transducer.run_singleton, Bridge.perform, Bridge.escDispatch_st]
    rfl
  have again : (⟨(V.step escaped.stateMachine 0x5C).1, escaped.dcs⟩ : Backend V).advance m [0x1B] =
      (⟨(V.step (V.step escaped.stateMachine 0x5C).1 0x1B).1, escaped.dcs⟩, []) := by
    have events : (V.advance (V.step escaped.stateMachine 0x5C).1 [0x1B]).2 = [] := doc.st_escape_quiet _ mode
    rw [Backend.advance, events]
    rfl
  have alike : escaped.Alike ⟨(V.step (V.step escaped.stateMachine 0x5C).1 0x1B).1, escaped.dcs⟩ :=
    ⟨doc.escape_forgets _ _, .refl _⟩
  obtain ⟨onward, same⟩ := alike.advance (m := m) xs
  have closed : Transducer.run (Backend.execute m) b [.vte 0x1B, .vte 0x5C] =
      (⟨(V.step escaped.stateMachine 0x5C).1, escaped.dcs⟩, (b.advance m [0x1B]).2) := by
    have read := Backend.run_vte m b ([0x1B] ++ [0x5C])
    rw [Backend.advance_append, st, List.append_nil] at read
    exact read
  rw [closed, List.nil_append, ← List.singleton_append, Backend.advance_append, Backend.advance_append, again]
  exact ⟨onward, congrArg (_ ++ ·) same⟩

end Serves

/-- `ESC _` or `ESC ]1337;File=`, which are not meant for `vte`. -/
def Diverts (bytes : List UInt8) : Prop := [0x1B, 0x5F] <:+: bytes ∨ [0x1B, 0x5D] ++ ITERM2_OSC_PREFIX <:+: bytes

theorem Diverts.mono {xs ys : List UInt8} (diverts : Diverts xs) (inside : xs <:+: ys) : Diverts ys :=
  diverts.imp (·.trans inside) (·.trans inside)

namespace Front

def diverted (p : Front) : List UInt8 :=
  if p.iterm2.isActive then [0x1B, 0x5D] ++ ITERM2_OSC_PREFIX.take p.iterm2.matched else []

/-- No `APC`, no image and no refused string are open. -/
structure Plain (p : Front) : Prop where
  outside : p.inApc = false
  undiscarded : p.controlString.discard = none
  probing : p.iterm2.isActive = true → p.iterm2.state = .probe ∧ p.iterm2.matched < ITERM2_OSC_PREFIX.length

theorem diverted_inactive {p : Front} (inactive : p.iterm2.isActive = false) : p.diverted = [] := by
  simp [diverted, inactive]

end Front

/-- What the parser has taken off the wire and not handed to `vte`: an `ESC`, or a candidate. -/
def Intake.withheld (p : Intake) : List UInt8 := if p.held.isSome then [0x1B] else p.front.diverted

def Unrefused (ws : List Wire) : Prop := ∀ kind, Wire.emit (.controlStringRejected kind .overflow) ∉ ws

theorem Unrefused.left {xs ys : List Wire} (unrefused : Unrefused (xs ++ ys)) : Unrefused xs :=
  fun kind member => unrefused kind (List.mem_append_left _ member)

theorem Unrefused.right {xs ys : List Wire} (unrefused : Unrefused (xs ++ ys)) : Unrefused ys :=
  fun kind member => unrefused kind (List.mem_append_right _ member)

theorem feedVte_unrefused {cs : ControlString} (undiscarded : cs.discard = none) {bytes : List UInt8}
    (unrefused : Unrefused (feedVte cs bytes).2) :
    (feedVte cs bytes).1.discard = none ∧ (feedVte cs bytes).2 = bytes.map .vte := by
  rw [feedVte_eq_run] at unrefused ⊢
  induction bytes generalizing cs with
  | nil => exact ⟨undiscarded, rfl⟩
  | cons b bytes ih =>
    rw [Transducer.run_cons_snd] at unrefused
    rcases cs.visit_cases b with ⟨_, kept, next⟩ | ⟨_, _, _, _, refused⟩ | ⟨discarding, _⟩ | ⟨discarding, _⟩
    · obtain ⟨last, wires⟩ := ih next unrefused.right
      have first : (feedByte cs b).2 = [.vte b] := by rw [feedByte, kept]; rfl
      rw [Transducer.run_cons_fst, Transducer.run_cons_snd, first]
      exact ⟨last, by rw [List.map_cons, ← wires]; rfl⟩
    · refine absurd (List.mem_append_left _ ?_) (unrefused cs.kind)
      rw [feedByte, refused]
      simp [ControlString.Fate.wires, refusal]
    · simp [undiscarded] at discarding
    · simp [undiscarded] at discarding

namespace Front

theorem scan_matching {p : Front} {b : UInt8} (active : p.iterm2.isActive = true) (probe : p.iterm2.state = .probe)
    (matching : ITERM2_OSC_PREFIX[p.iterm2.matched]? = some b) :
    ∃ collecting, p.scan b = ⟨({ p with
      iterm2 := { p.iterm2 with
        matched := p.iterm2.matched + 1
        state := if p.iterm2.matched + 1 = ITERM2_OSC_PREFIX.length then .collect else .probe }
      controlString := p.controlString.chargeDiversion collecting } : Front).note, [], true⟩ := by
  refine ⟨Iterm2OscScanner.isCollecting { p.iterm2 with
    matched := p.iterm2.matched + 1
    state := if p.iterm2.matched + 1 = ITERM2_OSC_PREFIX.length then .collect else .probe }, ?_⟩
  rw [scan, if_neg (by simpa using active), Iterm2OscScanner.push, probe]
  dsimp only
  rw [if_pos matching]

theorem scan_failing {p : Front} {b : UInt8} (active : p.iterm2.isActive = true) (probe : p.iterm2.state = .probe)
    (failing : ITERM2_OSC_PREFIX[p.iterm2.matched]? ≠ some b) :
    ∃ iterm2 : Iterm2OscScanner, iterm2.state = .idle ∧ p.scan b =
      ⟨({ p with iterm2, controlString := p.controlString.endDiversion }.feed p.diverted).1,
        ({ p with iterm2, controlString := p.controlString.endDiversion }.feed p.diverted).2, false⟩ := by
  refine ⟨{ p.iterm2 with state := .idle, replay := [] }, rfl, ?_⟩
  rw [scan, if_neg (by simpa using active), Iterm2OscScanner.push, probe, diverted, if_pos active]
  dsimp only
  rw [if_neg failing]
  rfl

namespace Plain

variable {p : Front} {inflate : List UInt8 → Nat → Inflated}

theorem scan_consumed (plain : p.Plain) {b : UInt8} (consumed : (p.scan b).consumed = true)
    (kept : ¬Diverts (p.diverted ++ [b])) :
    (p.scan b).front.Plain ∧ (p.scan b).wires = [] ∧ (p.scan b).front.diverted = p.diverted ++ [b] := by
  by_cases active : p.iterm2.isActive
  · obtain ⟨probe, short⟩ := plain.probing active
    by_cases matching : ITERM2_OSC_PREFIX[p.iterm2.matched]? = some b
    · have grown : p.diverted ++ [b] = [0x1B, 0x5D] ++ ITERM2_OSC_PREFIX.take (p.iterm2.matched + 1) := by
        rw [diverted, if_pos active, List.take_add_one, matching, List.append_assoc]
        rfl
      have more : p.iterm2.matched + 1 ≠ ITERM2_OSC_PREFIX.length := fun whole => by
        have candidate : p.diverted ++ [b] = [0x1B, 0x5D] ++ ITERM2_OSC_PREFIX := by rw [grown, whole, List.take_length]
        exact kept (.inr (candidate ▸ List.infix_rfl))
      obtain ⟨collecting, scanned⟩ := scan_matching active probe matching
      have undiscarded : (p.controlString.chargeDiversion collecting).discard = none := by
        unfold ControlString.chargeDiversion
        split_ifs <;> exact plain.undiscarded
      rw [scanned, if_neg more, grown]
      exact ⟨⟨plain.outside, undiscarded, fun _ => ⟨rfl, Nat.lt_of_le_of_ne short more⟩⟩, rfl, rfl⟩
    · obtain ⟨iterm2, -, scanned⟩ := scan_failing active probe matching
      rw [scanned] at consumed
      exact Bool.noConfusion consumed
  · rw [scan_inactive (by simpa using active)] at consumed
    exact Bool.noConfusion consumed

theorem scan_passed (plain : p.Plain) {b : UInt8} (passed : (p.scan b).consumed = false)
    (unrefused : Unrefused (p.scan b).wires) :
    (p.scan b).front.Plain ∧ (p.scan b).wires = p.diverted.map .vte := by
  by_cases active : p.iterm2.isActive
  · obtain ⟨probe, short⟩ := plain.probing active
    by_cases matching : ITERM2_OSC_PREFIX[p.iterm2.matched]? = some b
    · obtain ⟨collecting, scanned⟩ := scan_matching active probe matching
      rw [scanned] at passed
      exact Bool.noConfusion passed
    · obtain ⟨iterm2, idle, scanned⟩ := scan_failing active probe matching
      rw [scanned] at unrefused ⊢
      have quiet : p.controlString.endDiversion.discard = none := plain.undiscarded
      obtain ⟨undiscarded, wires⟩ := feedVte_unrefused quiet unrefused
      exact ⟨⟨plain.outside, undiscarded, fun active => by simp [Iterm2OscScanner.isActive, idle] at active⟩, wires⟩
  · have inactive : p.iterm2.isActive = false := by simpa using active
    rw [scan_inactive inactive, diverted_inactive inactive]
    exact ⟨plain, rfl⟩

theorem feed (plain : p.Plain) {bytes : List UInt8} (unrefused : Unrefused (p.feed bytes).2) :
    (p.feed bytes).1.Plain ∧ (p.feed bytes).2 = bytes.map .vte :=
  have fed := feedVte_unrefused plain.undiscarded unrefused
  ⟨⟨plain.outside, fed.1, plain.probing⟩, fed.2⟩

theorem note (plain : p.Plain) : p.note.Plain := ⟨plain.outside, plain.undiscarded, plain.probing⟩

theorem divert (plain : p.Plain) (doc : Documented V) :
    p.divert.1.Plain ∧ p.divert.1.diverted = [0x1B, 0x5D] ∧ Serves V m [] [0x1B, 0x5D] p.divert.2 [0x1B, 0x5D] := by
  refine ⟨⟨(divert_inApc p).trans plain.outside, rfl, fun _ => ⟨rfl, ?_⟩⟩, rfl, ?_⟩
  · exact show 0 < ITERM2_OSC_PREFIX.length by decide
  unfold Front.divert closeVteString
  split_ifs
  · have wires : (p.feed [0x1B, 0x5C]).2 = [.vte 0x1B, .vte 0x5C] := by
      rw [Front.feed, feedVte_eq_run, Transducer.run_cons_snd, Transducer.run_singleton,
        ControlString.feedByte_escape plain.undiscarded, ControlString.feedByte_leaving _ rfl (by simp)]
      · rfl
      · split_ifs <;> exact plain.undiscarded
    dsimp only
    rw [wires]
    exact .close doc [0x5D]
  · exact .hold [] [0x1B, 0x5D]

end Plain

end Front

/-- `xs` after `held` was read to `r`: nothing is open, the wires serve what was read, and what is
withheld is the end of it. -/
structure Passes (V : Vte) (m : Meaning) (held xs : List UInt8) (r : Intake × List Wire) : Prop where
  plain : r.1.front.Plain
  serves : Serves V m held xs r.2 r.1.withheld
  suffix : r.1.withheld <:+ held ++ xs

theorem Passes.prepend {held xs later ys : List UInt8} {ws : List Wire} {r : Intake × List Wire}
    (first : Serves V m held xs ws later) (suffix : later <:+ held ++ xs) (second : Passes V m later ys r) :
    Passes V m held (xs ++ ys) (Front.prepend ws r) := by
  refine ⟨second.plain, first.trans second.serves, second.suffix.trans ?_⟩
  rw [← List.append_assoc]
  obtain ⟨before, same⟩ := suffix
  exact ⟨before, by rw [← same, List.append_assoc]⟩

theorem not_diverts (held xs : List UInt8) {later ys : List UInt8} (kept : ¬Diverts (held ++ (xs ++ ys))) (suffix : later <:+ held ++ xs) :
    ¬Diverts (later ++ ys) := by
  refine fun diverts => kept (diverts.mono ?_)
  obtain ⟨before, same⟩ := suffix
  exact ⟨before, [], by rw [← List.append_assoc held, ← same]; simp⟩

theorem Passes.shift {held xs : List UInt8} {r : Intake × List Wire} (passes : Passes V m [] (held ++ xs) r) :
    Passes V m held xs r :=
  ⟨passes.plain, passes.serves, passes.suffix⟩

namespace Front

variable {inflate : List UInt8 → Nat → Inflated}

/-- The `ESC`, and the byte after it if the step consumed it. -/
def Looked.taken (r : Looked) (nxt : UInt8) : List UInt8 := if r.consumed then [0x1B, nxt] else [0x1B]

/-- The same for the step of an `ESC`. -/
structure Takes (V : Vte) (m : Meaning) (nxt : UInt8) (r : Looked) : Prop where
  plain : r.front.Plain
  serves : Serves V m [] (r.taken nxt) r.wires r.front.diverted
  suffix : r.front.diverted <:+ r.taken nxt

theorem Looked.taken_append (r : Looked) (nxt : UInt8) (rest : List UInt8) :
    r.taken nxt ++ (if r.consumed then rest else nxt :: rest) = 0x1B :: nxt :: rest := by
  unfold taken
  split_ifs <;> rfl

variable {p : Front} {nxt : UInt8}

theorem Plain.resumeGround (doc : Documented V) (plain : p.Plain) (idle : p.iterm2.isActive = false)
    (noApc : nxt ≠ 0x5F) (unrefused : Unrefused (p.resumeGround nxt).wires) :
    Takes V m nxt (p.resumeGround nxt) := by
  unfold Front.resumeGround at unrefused ⊢
  rw [if_neg noApc] at unrefused ⊢
  split_ifs at unrefused ⊢ with candidate
  · obtain ⟨diverted, taken, serves⟩ := plain.divert (m := m) doc
    subst candidate
    rw [← taken] at serves
    exact ⟨diverted, serves, taken ▸ List.suffix_rfl⟩
  · obtain ⟨fed, wires⟩ := plain.feed unrefused
    have empty : (p.feed [0x1B]).1.diverted = [] := diverted_inactive idle
    refine ⟨fed, ?_, ?_⟩
    · simp only [wires, empty]
      exact .forward [] [0x1B]
    · simp only [empty]
      exact List.nil_suffix

theorem groundEsc_eq_resumeGround (p : Front) (nxt : UInt8) :
    p.groundEsc nxt = if nxt = 0x5D ∨ nxt = 0x5F then p.resumeGround nxt else p.note.resumeGround nxt := by
  unfold groundEsc resumeGround
  split_ifs <;> simp_all

theorem Plain.groundEsc (doc : Documented V) (plain : p.Plain) (idle : p.iterm2.isActive = false)
    (noApc : nxt ≠ 0x5F) (unrefused : Unrefused (p.groundEsc nxt).wires) :
    Takes V m nxt (p.groundEsc nxt) := by
  rw [groundEsc_eq_resumeGround] at unrefused ⊢
  by_cases opens : nxt = 0x5D ∨ nxt = 0x5F
  · rw [if_pos opens] at unrefused ⊢
    exact plain.resumeGround doc idle noApc unrefused
  · rw [if_neg opens] at unrefused ⊢
    exact plain.note.resumeGround doc idle noApc unrefused

theorem Takes.passes {r : Looked} (takes : Takes V m nxt r) {rest : List UInt8} {s : Intake × List Wire}
    (later : Passes V m r.front.diverted (if r.consumed then rest else nxt :: rest) s) :
    Passes V m [] (0x1B :: nxt :: rest) (prepend r.wires s) := by
  have passes := later.prepend takes.serves takes.suffix
  rwa [r.taken_append] at passes

theorem Takes.not_diverts {r : Looked} (takes : Takes V m nxt r) {rest : List UInt8}
    (kept : ¬Diverts (0x1B :: nxt :: rest)) :
    ¬Diverts (r.front.diverted ++ if r.consumed then rest else nxt :: rest) := by
  rw [← r.taken_append] at kept
  exact Vt.not_diverts [] _ kept takes.suffix

theorem loop_passes (doc : Documented V) (plain : p.Plain) {bytes : List UInt8}
    (kept : ¬Diverts (p.diverted ++ bytes)) (unrefused : Unrefused (p.loop inflate bytes).2) :
    Passes V m p.diverted bytes (p.loop inflate bytes) := by
  induction p, bytes using loop_induction inflate with
  | nil p => exact ⟨plain, by simpa [Intake.withheld] using Serves.hold p.diverted [], by simp [Intake.withheld]⟩
  | consumed p b rest took ih =>
    rw [loop_consumed took] at unrefused ⊢
    obtain ⟨next, quiet, grown⟩ := plain.scan_consumed took fun diverts => kept (diverts.mono ⟨[], rest, by simp⟩)
    have passes := ih next (by rwa [grown, List.append_assoc]) unrefused.right
    rw [grown] at passes
    rw [quiet]
    exact passes.prepend (.hold p.diverted [b]) List.suffix_rfl
  | plain p b rest passed text ih =>
    rw [loop_plain passed text] at unrefused ⊢
    obtain ⟨next, replayed⟩ := plain.scan_passed passed unrefused.left.left
    have text : (p.scan b).front.plainByte inflate b = (p.scan b).front.note.feed [b] := by
      rw [plainByte, next.outside]
      rfl
    rw [text] at ih unrefused ⊢
    obtain ⟨fed, wires⟩ := next.note.feed unrefused.left.right
    have idle : ((p.scan b).front.note.feed [b]).1.iterm2.isActive = false := scan_idle passed
    rw [diverted_inactive idle] at ih
    have passes := ih fed (Vt.not_diverts p.diverted [b] kept List.nil_suffix) unrefused.right
    rw [replayed, wires, ← List.map_append]
    exact passes.prepend (.forward p.diverted [b]) List.nil_suffix
  | hold p passed =>
    rw [loop_hold passed] at unrefused ⊢
    obtain ⟨next, replayed⟩ := plain.scan_passed passed unrefused
    refine ⟨next, ?_, List.suffix_append _ _⟩
    have serves := (Serves.forward (V := V) (m := m) p.diverted []).trans (.hold [] [0x1B])
    rw [List.append_nil, List.append_nil] at serves
    rw [replayed]
    exact serves
  | look p nxt rest passed ih =>
    rw [loop_look passed] at unrefused ⊢
    obtain ⟨next, replayed⟩ := plain.scan_passed passed unrefused.left.left
    have idle : (p.scan 0x1B).front.iterm2.isActive = false := scan_idle passed
    have looked : (p.scan 0x1B).front.lookEsc inflate nxt = (p.scan 0x1B).front.groundEsc nxt := by
      rw [lookEsc, next.outside]
      rfl
    rw [looked] at ih unrefused ⊢
    have noApc : nxt ≠ 0x5F := by
      rintro rfl
      exact kept (.inl ⟨p.diverted, rest, by simp⟩)
    have takes := next.groundEsc (m := m) doc idle noApc unrefused.left.right
    have after : ¬Diverts (0x1B :: nxt :: rest) := 
      fun diverts => kept (diverts.mono (List.suffix_append _ _).isInfix)
    have passes := takes.passes (ih takes.plain (takes.not_diverts after) unrefused.right)
    rw [replayed, ← prepend_prepend]
    have whole := passes.prepend (.forward p.diverted []) List.nil_suffix
    rwa [List.append_nil] at whole

end Front

namespace Intake

variable {inflate : List UInt8 → Nat → Inflated}

theorem advance_passes (doc : Documented V) {p : Intake} (plain : p.front.Plain) (held : Front.Held p)
    {bytes : List UInt8} (kept : ¬Diverts (p.withheld ++ bytes)) (unrefused : Unrefused (p.advance inflate bytes).2) :
    Passes V m p.withheld bytes (p.advance inflate bytes) := by
  cases state : p.held with
  | none =>
    have withheld : p.withheld = p.front.diverted := by simp [Intake.withheld, state]
    rw [withheld] at kept ⊢
    unfold advance at unrefused ⊢
    rw [state] at unrefused ⊢
    exact Front.loop_passes doc plain kept unrefused
  | some v =>
    obtain rfl : false = v := plain.outside.symm.trans (held.inApc v state).symm
    have withheld : p.withheld = [0x1B] := by simp [Intake.withheld, state]
    cases bytes with
    | nil =>
      rw [advance_nil]
      exact ⟨plain, by simpa using Serves.hold p.withheld [], by simp⟩
    | cons next rest =>
      rw [withheld] at kept ⊢
      unfold advance at unrefused ⊢
      rw [state] at unrefused ⊢
      have resumed : p.front.resume inflate false next = p.front.resumeGround next := by simp [Front.resume]
      dsimp only at unrefused ⊢
      rw [resumed] at unrefused ⊢
      have noApc : next ≠ 0x5F := by
        rintro rfl
        exact kept (.inl ⟨[], rest, rfl⟩)
      have takes := plain.resumeGround (m := m) doc (held.idle (by simp [state])) noApc unrefused.left
      exact (takes.passes (Front.loop_passes doc takes.plain (takes.not_diverts kept) unrefused.right)).shift

theorem run_passes (doc : Documented V) {p : Intake} (plain : p.front.Plain) (held : Front.Held p)
    {slices : List (List UInt8)} (kept : ¬Diverts (p.withheld ++ slices.flatten))
    (unrefused : Unrefused (Transducer.run (advance inflate) p slices).2) :
    Passes V m p.withheld slices.flatten (Transducer.run (advance inflate) p slices) := by
  induction slices generalizing p with
  | nil => exact ⟨plain, by simpa using Serves.hold p.withheld [], by simp⟩
  | cons slice slices ih =>
    rw [Transducer.run_cons] at unrefused ⊢
    rw [List.flatten_cons] at kept ⊢
    have first := advance_passes (V := V) (m := m) doc plain held
      (fun diverts => kept (diverts.mono ⟨[], slices.flatten, by simp⟩)) unrefused.left
    have rest := ih first.plain (held.advance slice) (not_diverts _ _ kept first.suffix) unrefused.right
    exact rest.prepend first.serves first.suffix

end Intake

namespace Parser

/-- Without `ESC _`, `ESC ]1337;File=` and refusals, the actions of a parser, and of what it still
withholds, are those of the raw stream. -/
theorem advanceAll_transparent (doc : Documented V) (inflate : List UInt8 → Nat → Inflated) (m : Meaning)
    (slices : List (List UInt8)) (noApc : ¬[0x1B, 0x5F] <:+: slices.flatten)
    (noFile : ¬[0x1B, 0x5D] ++ bytesOf "1337;File=" <:+: slices.flatten)
    (unrefused : Unrefused (Transducer.run (Intake.advance inflate) {} slices).2) :
    ((Backend.new V).advance m slices.flatten).2 =
      ((Parser.new V).advanceAll inflate m slices).2 ++
        (((Parser.new V).advanceAll inflate m slices).1.back.advance m
          ((Parser.new V).advanceAll inflate m slices).1.intake.withheld).2 := by
  have plain : ({} : Front).Plain := ⟨rfl, rfl, nofun⟩
  have held : Front.Held {} := ⟨.outside rfl, nofun, nofun⟩
  have passes := Intake.run_passes (V := V) (m := m) doc plain held (fun diverts => diverts.elim noApc noFile) unrefused
  rw [advanceAll_eq_run]
  exact (passes.serves (.new V)).2

/-- `ESC ] 1 | 3 BEL ESC`: an abandoned candidate, and an `ESC` that is still withheld. -/
theorem advanceAll_transparent_title :
    ((Backend.new Reference.vte).advance Reference.meaning [[0x1B, 0x5D, 0x31], [0x33, 0x07, 0x1B]].flatten).2 =
      ((Parser.new Reference.vte).advanceAll (fun _ _ => .failed) Reference.meaning
        [[0x1B, 0x5D, 0x31], [0x33, 0x07, 0x1B]]).2 ++
        (((Parser.new Reference.vte).advanceAll (fun _ _ => .failed) Reference.meaning
          [[0x1B, 0x5D, 0x31], [0x33, 0x07, 0x1B]]).1.back.advance Reference.meaning
          ((Parser.new Reference.vte).advanceAll (fun _ _ => .failed) Reference.meaning
            [[0x1B, 0x5D, 0x31], [0x33, 0x07, 0x1B]]).1.intake.withheld).2 :=
  advanceAll_transparent Reference.documented (fun _ _ => .failed) Reference.meaning _ (by decide) (by decide)
    fun kind => by cases kind <;> decide

/-- `ESC P x ESC`: the `ESC` that ends the string is withheld. -/
theorem advanceAll_withholds :
    ¬[0x1B, 0x5F] <:+: ([[0x1B, 0x50, 0x78, 0x1B]] : List (List UInt8)).flatten ∧
      ¬[0x1B, 0x5D] ++ bytesOf "1337;File=" <:+: ([[0x1B, 0x50, 0x78, 0x1B]] : List (List UInt8)).flatten ∧
      Unrefused (Transducer.run (Intake.advance fun _ _ => .failed) {} [[0x1B, 0x50, 0x78, 0x1B]]).2 ∧
      ((Backend.new Reference.vte).advance Reference.meaning [0x1B, 0x50, 0x78, 0x1B]).2 ≠
        ((Parser.new Reference.vte).advanceAll (fun _ _ => .failed) Reference.meaning [[0x1B, 0x50, 0x78, 0x1B]]).2 := by
  refine ⟨by decide, by decide, fun kind => by cases kind <;> decide, ?_⟩
  decide

end Parser

end Bitty.Vt
