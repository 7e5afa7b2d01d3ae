import Bitty.Vt.Chunking
import Bitty.Vt.Kitty.Charge

namespace Bitty.Vt

namespace KittyApcAssembler

/-- The potential of the open stream: five for each byte charged to it, and what the parser around
it has still to charge. A step that drops the stream or feeds it is excused. -/
def Spends (before : Nat) (k : KittyApcAssembler) (after : Nat) (k' : KittyApcAssembler) : Prop :=
  ∀ q', k'.pending = some q' → ∃ q, k.pending = some q ∧
    (q.encodedLen < q'.encodedLen ∨
      q'.encodedLen = q.encodedLen ∧ 5 * q.interleaved + before ≤ 5 * q'.interleaved + after)

variable {a b c : Nat} {k k₁ k₂ : KittyApcAssembler}

theorem Charges.spends {cost : Nat} (charges : Charges cost k k₁) (paid : a ≤ 5 * cost + b) : Spends a k b k₁ := by
  intro q' some
  obtain ⟨q, start, len, more⟩ := charges q' some
  exact ⟨q, start, .inr ⟨len, by omega⟩⟩

theorem Spends.trans (first : Spends a k b k₁) (second : Spends b k₁ c k₂) : Spends a k c k₂ := by
  intro q₂ last
  obtain ⟨q₁, middle, next⟩ := second q₂ last
  obtain ⟨q, start, prior⟩ := first q₁ middle
  refine ⟨q, start, ?_⟩
  rcases next with fed | ⟨len₂, more₂⟩ <;> rcases prior with fed' | ⟨len₁, more₁⟩
  · exact .inl (by omega)
  · exact .inl (by omega)
  · exact .inl (by omega)
  · exact .inr ⟨by omega, by omega⟩

theorem Spends.shift (spends : Spends a k b k₁) (extra : Nat) : Spends (a + extra) k (b + extra) k₁ := by
  intro q' some
  obtain ⟨q, start, fed | ⟨len, more⟩⟩ := spends q' some
  · exact ⟨q, start, .inl fed⟩
  · exact ⟨q, start, .inr ⟨len, by omega⟩⟩

theorem Spends.weaken (spends : Spends a k b k₁) (less : c ≤ a) : Spends c k b k₁ := by
  intro q' some
  obtain ⟨q, start, fed | ⟨len, more⟩⟩ := spends q' some
  · exact ⟨q, start, .inl fed⟩
  · exact ⟨q, start, .inr ⟨len, by omega⟩⟩

theorem Spends.dropped (none : k₁.pending = none) : Spends a k b k₁ := fun _ some => by simp [none] at some

theorem Spends.of_none (spends : Spends a k b k₁) (closed : k.pending = none) : k₁.pending = none := by
  cases last : k₁.pending with
  | none => rfl
  | some q' =>
    obtain ⟨q, start, -⟩ := spends q' last
    simp [closed] at start

end KittyApcAssembler

namespace Front

open KittyApcAssembler

variable {inflate : List UInt8 → Nat → Inflated} {p : Front}

structure Metered (p : Front) : Prop where
  unstalled : p.kitty.Unstalled
  short : p.apcBuf.length ≤ KITTY_APC_MAX_CONTROL_BYTES
  settled : p.kitty.currentFinal ≠ none → p.inApc = true ∧ p.apcPayload = true ∧ p.apcDiscarding = false
  chunk : p.inApc = true → p.apcPayload = true → p.kitty.currentFinal ≠ none

def weight (p : Front) : Nat :=
  if p.inApc then (if p.apcPayload ∨ p.apcDiscarding then 0 else 4 + p.apcBuf.length)
  else if p.iterm2.isActive then 1 else 2

theorem weight_ground (outside : p.inApc = false) (idle : p.iterm2.isActive = false) : p.weight = 2 := by
  simp [weight, outside, idle]

theorem weight_pos (outside : p.inApc = false) : 1 ≤ p.weight := by
  unfold weight
  rw [if_neg (by simp [outside])]
  split_ifs <;> omega

theorem Metered.weight_le (metered : p.Metered) : p.weight ≤ 4 + KITTY_APC_MAX_CONTROL_BYTES := by
  have short := metered.short
  unfold weight
  split_ifs <;> omega

theorem note_charges (p : Front) : Charges 1 p.kitty p.note.kitty := p.kitty.noteInterleaved_charges 1

theorem divert_charges (p : Front) : Charges 1 p.kitty p.divert.1.kitty := by
  have noted := p.closeVteString.1.note_charges
  rwa [closeVteString_kitty] at noted

theorem scan_spends (outside : p.iterm2.isActive = true → p.inApc = false) (b : UInt8) :
    Spends (p.weight + if (p.scan b).consumed then 1 else 0) p.kitty (p.scan b).front.weight (p.scan b).front.kitty := by
  by_cases active : p.iterm2.isActive
  · have ground := outside active
    have start : p.weight = 1 := by simp [weight, ground, active]
    have past := p.iterm2.push_idle b
    have idle (scanner : Iterm2OscScanner) (past : scanner.state = .idle) : scanner.isActive = false :=
      decide_eq_false (not_not.mpr past)
    rw [start, scan, if_neg (not_not.mpr active)]
    rcases pushed : p.iterm2.push b with ⟨scanner, _ | _ | _ | _⟩ <;> rw [pushed] at past
    · refine (note_charges _).spends ?_
      rw [if_pos rfl]
      omega
    · refine (Charges.same rfl).spends ?_
      rw [Nat.mul_zero, Nat.zero_add]
      exact weight_pos ground
    · refine (Charges.same rfl).spends ?_
      rw [Nat.mul_zero, Nat.zero_add]
      refine Nat.le_of_eq (weight_ground ?_ ?_).symm
      · exact ground
      · exact idle _ (past (by rintro ⟨⟩))
    · refine (Charges.same rfl).spends ?_
      rw [Nat.mul_zero, Nat.zero_add]
      exact weight_pos ground
  · rw [scan_inactive (by simpa using active)]
    exact (Charges.same rfl).spends (by simp)

def Queries (p : Front) : Prop :=
  p.apcDiscarding = false ∧ p.apcPayload = false ∧ (parseKittyFontQuery p.apcBuf).isSome = true

instance (p : Front) : Decidable p.Queries := inferInstanceAs (Decidable (_ ∧ _))

theorem Metered.header_settled (metered : p.Metered) (header : p.apcPayload = false) : p.kitty.currentFinal = none := by
  by_contra chunk
  simp [(metered.settled chunk).2.1] at header

theorem finishApc_charges (p : Front) : Charges 0 p.kitty (p.finishApc inflate).1.kitty :=
  (finish_charges inflate p.kitty).1.frame rfl

theorem terminateApc_spends (metered : p.Metered) (inside : p.inApc = true) (idle : p.iterm2.isActive = false)
    (opened : p.kitty.pending.isSome) (noQuery : ¬p.Queries) :
    Spends (p.weight + 2) p.kitty (p.terminateApc inflate).1.weight (p.terminateApc inflate).1.kitty := by
  have after : (p.terminateApc inflate).1.weight = 2 := by
    obtain ⟨outside, scanner, -⟩ := p.terminateApc_frame inflate
    exact weight_ground outside (scanner ▸ idle)
  rw [after]
  unfold weight terminateApc
  rw [if_pos inside]
  by_cases discarding : p.apcDiscarding
  · simp only [discarding, if_true, or_true]
    exact (Charges.same rfl).spends (by omega)
  · by_cases payload : p.apcPayload
    · simp only [discarding, payload, if_true, true_or, Bool.false_eq_true, if_false]
      exact (finishApc_charges _).spends (by omega)
    · simp only [discarding, payload, Bool.false_eq_true, if_false, or_false]
      have noAnswer : parseKittyFontQuery p.apcBuf = none := by
        by_contra answer
        exact noQuery ⟨by simpa using discarding, by simpa using payload, Option.isSome_iff_ne_none.mpr answer⟩
      have settled := metered.header_settled (by simpa using payload)
      have begun := beginControl_charges settled metered.short opened
      rw [noAnswer]
      dsimp only
      rcases beginning : p.kitty.beginControl p.apcBuf with ⟨k, reason | ⟨⟩⟩ <;> rw [beginning] at begun
      · refine (begun.frame rfl).spends ?_
        omega
      · refine ((begun.trans (finishApc_charges _)).frame rfl).spends ?_
        omega

theorem apcText_spends (metered : p.Metered) (inside : p.inApc = true) (opened : p.kitty.pending.isSome) (b : UInt8) :
    Spends (p.weight + 1) p.kitty (p.apcText b).1.weight (p.apcText b).1.kitty := by
  by_cases payload : p.apcPayload
  · have chunk := Option.isSome_iff_ne_none.mpr (metered.chunk inside payload)
    unfold apcText
    rw [if_pos payload]
    rcases p.kitty.pushPayload_cases b chunk with ⟨closed, -, failed⟩ | ⟨q, q', start, last, longer, -, -, fed⟩
    · rcases pushed : p.kitty.pushPayload [b] with ⟨k, reason | ⟨⟩⟩ <;> rw [pushed] at closed
      · exact .dropped closed
      · exact .dropped closed
    · rcases pushed : p.kitty.pushPayload [b] with ⟨k, reason | ⟨⟩⟩ <;> rw [pushed] at last
      · exact fun q₂ last₂ => ⟨q, start, .inl (by obtain rfl := Option.some.inj (last.symm.trans last₂); omega)⟩
      · exact fun q₂ last₂ => ⟨q, start, .inl (by obtain rfl := Option.some.inj (last.symm.trans last₂); omega)⟩
  · have settled := metered.header_settled (by simpa using payload)
    have start : p.weight = if p.apcDiscarding then 0 else 4 + p.apcBuf.length := by
      simp [weight, inside, payload]
    rw [start]
    unfold apcText
    rw [if_neg payload]
    dsimp only
    by_cases crossed : p.controlString.chargeApc.2
    · rw [if_pos crossed]
      exact .dropped rfl
    · rw [if_neg crossed]
      by_cases discarding : p.apcDiscarding
      · rw [if_pos discarding, if_pos discarding]
        exact (note_charges _).spends (by omega)
      · rw [if_neg discarding, if_neg discarding]
        by_cases separator : b = 0x3B ∧ ¬bytesOf "+q" <+: p.apcBuf
        · rw [if_pos separator]
          have begun := beginControl_charges settled metered.short opened
          rcases beginning : p.kitty.beginControl p.apcBuf with ⟨k, reason | ⟨⟩⟩ <;> rw [beginning] at begun
          · exact (begun.frame rfl).spends (by omega)
          · exact (begun.frame rfl).spends (by omega)
        · rw [if_neg separator]
          split_ifs
          · exact .dropped rfl
          · refine (Charges.same rfl).spends ?_
            simp only [weight, inside, payload, discarding, if_true, or_self, if_false, Bool.false_eq_true,
              List.length_append, List.length_singleton]
            omega

theorem plainByte_spends (metered : p.Metered) (idle : p.iterm2.isActive = false)
    (opened : p.inApc = true → p.kitty.pending.isSome) {b : UInt8}
    (noQuery : p.inApc = true → b = 0x07 ∨ b = 0x9C → ¬p.Queries) :
    Spends (p.weight + 1) p.kitty (p.plainByte inflate b).1.weight (p.plainByte inflate b).1.kitty := by
  unfold plainByte
  split_ifs with inside
  · unfold apcByte
    split_ifs with terminator interrupt
    · exact (terminateApc_spends metered inside idle (opened inside) (noQuery inside terminator)).weaken (by omega)
    · exact .dropped rfl
    · exact apcText_spends metered inside (opened inside) b
  · have outside : p.inApc = false := by simpa using inside
    rw [weight_ground outside idle]
    refine (note_charges p).spends ?_
    omega

namespace Metered

theorem ground (outside : p.inApc = false) (unstalled : p.kitty.Unstalled)
    (short : p.apcBuf.length ≤ KITTY_APC_MAX_CONTROL_BYTES) (settled : p.kitty.currentFinal = none) : p.Metered :=
  ⟨unstalled, short, fun chunk => absurd settled chunk, fun inside => by simp [outside] at inside⟩

theorem ground_settled (metered : p.Metered) (outside : p.inApc = false) : p.kitty.currentFinal = none := by
  by_contra chunk
  simp [(metered.settled chunk).1] at outside

theorem feed (metered : p.Metered) (bytes : List UInt8) : (p.feed bytes).1.Metered :=
  ⟨metered.unstalled, metered.short, metered.settled, metered.chunk⟩

theorem note (metered : p.Metered) (outside : p.inApc = false) : p.note.Metered :=
  .ground outside (p.kitty.noteInterleaved_unstalled 1 metered.unstalled) metered.short
    (p.kitty.noteInterleaved_currentFinal 1 (metered.ground_settled outside))

theorem abortApc : p.abortApc.Metered := .ground rfl (.dropped rfl) (Nat.zero_le _) rfl

theorem beginApc (metered : p.Metered) (outside : p.inApc = false) : p.beginApc.Metered :=
  ⟨metered.unstalled, Nat.zero_le _, fun chunk => absurd (metered.ground_settled outside) chunk, nofun⟩

theorem closeVteString (metered : p.Metered) : p.closeVteString.1.Metered := by
  unfold Front.closeVteString
  split_ifs
  · exact metered.feed _
  · exact metered

theorem divert (metered : p.Metered) (outside : p.inApc = false) : p.divert.1.Metered := by
  have noted := metered.closeVteString.note ((closeVteString_inApc p).trans outside)
  exact ⟨noted.unstalled, noted.short, noted.settled, noted.chunk⟩

theorem scan (metered : p.Metered) (apart : p.Apart) (b : UInt8) : (p.scan b).front.Metered := by
  by_cases active : p.iterm2.isActive
  · have outside : p.inApc = false := Bool.eq_false_iff.mpr fun inside => by simp [apart.idle inside] at active
    have noted := metered.note outside
    unfold Front.scan
    rw [if_neg (not_not.mpr active)]
    rcases p.iterm2.push b with ⟨scanner, _ | _ | _ | _⟩
    · exact ⟨noted.unstalled, noted.short, noted.settled, noted.chunk⟩
    · exact ⟨metered.unstalled, metered.short, metered.settled, metered.chunk⟩
    · exact ⟨metered.unstalled, metered.short, metered.settled, metered.chunk⟩
    · exact ⟨metered.unstalled, metered.short, metered.settled, metered.chunk⟩
  · rw [scan_inactive (by simpa using active)]
    exact metered

theorem finishApc (unstalled : p.kitty.Unstalled) : (p.finishApc inflate).1.Metered :=
  .ground rfl (finish_unstalled inflate unstalled) (Nat.zero_le _) (finish_charges inflate p.kitty).2

theorem terminateApc (metered : p.Metered) : (p.terminateApc inflate).1.Metered := by
  unfold Front.terminateApc
  dsimp only
  split_ifs with discarding payload
  · refine .ground rfl metered.unstalled (Nat.zero_le _) ?_
    by_contra chunk
    simp [(metered.settled chunk).2.2] at discarding
  · exact finishApc metered.unstalled
  · have settled := metered.header_settled (by simpa using payload)
    split
    · exact .ground rfl metered.unstalled (Nat.zero_le _) settled
    · have keeps := beginControl_keeps metered.unstalled settled p.apcBuf
      rcases beginning : p.kitty.beginControl p.apcBuf with ⟨k, reason | ⟨⟩⟩ <;> rw [beginning] at keeps
      · refine .ground rfl keeps.unstalled (Nat.zero_le _) ?_
        by_contra chunk
        exact absurd (keeps.chunk.mpr chunk) nofun
      · exact finishApc keeps.unstalled

theorem header (unstalled : p.kitty.Unstalled) (short : p.apcBuf.length ≤ KITTY_APC_MAX_CONTROL_BYTES)
    (settled : p.kitty.currentFinal = none) (payload : p.apcPayload = false) : p.Metered :=
  ⟨unstalled, short, fun chunk => absurd settled chunk, fun _ inPayload => by simp [payload] at inPayload⟩

theorem apcText (metered : p.Metered) (inside : p.inApc = true) (b : UInt8) : (p.apcText b).1.Metered := by
  unfold Front.apcText
  by_cases payload : p.apcPayload
  · rw [if_pos payload]
    have chunk := metered.chunk inside payload
    rcases p.kitty.pushPayload_cases b (Option.isSome_iff_ne_none.mpr chunk) with
      ⟨closed, settled, failed⟩ | ⟨q, q', -, last, -, fresh, final, fed⟩
    · rcases pushed : p.kitty.pushPayload [b] with ⟨k, reason | ⟨⟩⟩ <;> rw [pushed] at closed settled failed
      · exact .header (.dropped closed) metered.short settled rfl
      · exact absurd rfl failed
    · rcases pushed : p.kitty.pushPayload [b] with ⟨k, reason | ⟨⟩⟩ <;> rw [pushed] at last final fed
      · exact absurd fed nofun
      · refine ⟨fun q₁ some => ?_, metered.short, fun _ => metered.settled chunk, fun _ _ => final ▸ chunk⟩
        obtain rfl := Option.some.inj (last.symm.trans some)
        rw [fresh]
        exact Nat.zero_le _
  · rw [if_neg payload]
    have header : p.apcPayload = false := by simpa using payload
    have settled := metered.header_settled header
    dsimp only
    by_cases crossed : p.controlString.chargeApc.2
    · rw [if_pos crossed]
      exact .header (.dropped rfl) (Nat.zero_le _) rfl rfl
    · rw [if_neg crossed]
      by_cases discarding : p.apcDiscarding
      · rw [if_pos discarding]
        exact .header (p.kitty.noteInterleaved_unstalled 1 metered.unstalled) metered.short
          (p.kitty.noteInterleaved_currentFinal 1 settled) header
      · rw [if_neg discarding]
        by_cases separator : b = 0x3B ∧ ¬bytesOf "+q" <+: p.apcBuf
        · rw [if_pos separator]
          have keeps := beginControl_keeps metered.unstalled settled p.apcBuf
          rcases beginning : p.kitty.beginControl p.apcBuf with ⟨k, reason | ⟨⟩⟩ <;> rw [beginning] at keeps
          · refine .header keeps.unstalled (Nat.zero_le _) ?_ header
            by_contra chunk
            exact absurd (keeps.chunk.mpr chunk) nofun
          · exact ⟨keeps.unstalled, Nat.zero_le _, fun _ => ⟨inside, rfl, Bool.eq_false_iff.mpr discarding⟩, fun _ _ => keeps.chunk.mp rfl⟩
        · rw [if_neg separator]
          split_ifs with full
          · exact .header (.dropped rfl) (Nat.zero_le _) rfl header
          · refine .header metered.unstalled ?_ settled header
            have room := (not_or.mp full).1
            rw [List.length_append, List.length_singleton]
            omega

theorem plainByte (metered : p.Metered) (b : UInt8) : (p.plainByte inflate b).1.Metered := by
  unfold Front.plainByte
  split_ifs with inside
  · unfold apcByte
    split_ifs
    · exact metered.terminateApc
    · exact abortApc.feed [b]
    · exact metered.apcText inside b
  · exact (metered.note (by simpa using inside)).feed [b]

theorem groundEsc (metered : p.Metered) (outside : p.inApc = false) (nxt : UInt8) : (p.groundEsc nxt).front.Metered := by
  unfold Front.groundEsc
  split_ifs
  · exact metered.beginApc outside
  · exact metered.divert outside
  · exact (metered.note outside).feed [0x1B]

theorem resumeGround (metered : p.Metered) (outside : p.inApc = false) (nxt : UInt8) :
    (p.resumeGround nxt).front.Metered := by
  unfold Front.resumeGround
  split_ifs
  · exact metered.beginApc outside
  · exact metered.divert outside
  · exact metered.feed [0x1B]

theorem lookEsc (metered : p.Metered) (nxt : UInt8) : (p.lookEsc inflate nxt).front.Metered := by
  unfold Front.lookEsc
  split_ifs with inside
  · unfold apcEsc
    split_ifs
    · exact metered.terminateApc
    · exact abortApc.groundEsc rfl nxt
    · exact abortApc.beginApc rfl
    · exact abortApc.divert rfl
    · exact abortApc.feed [0x1B]
  · exact metered.groundEsc (by simpa using inside) nxt

theorem resume (metered : p.Metered) (next : UInt8) : (p.resume inflate p.inApc next).front.Metered := by
  unfold Front.resume
  split_ifs with discarding inside
  · exact abortApc.resumeGround rfl next
  · unfold resumeApc
    split_ifs
    · exact metered.terminateApc
    · exact abortApc.feed [next]
    · exact abortApc.beginApc rfl
    · exact abortApc.divert rfl
    · exact abortApc.feed [0x1B]
  · exact metered.resumeGround (by simpa using inside) next

end Metered

theorem Metered.loop (metered : p.Metered) (apart : p.Apart) (bytes : List UInt8) :
    (p.loop inflate bytes).1.front.Metered :=
  (loop_invariant (fun (s : Unit) _ => s) (fun q _ => q.Apart ∧ q.Metered)
    (fun _ b _ sound => ⟨sound.1.scan b, sound.2.scan sound.1 b⟩)
    (fun _ b _ sound _ _ => ⟨sound.1.plainByte b, sound.2.plainByte b⟩)
    (fun _ nxt _ sound idle => ⟨.lookEsc idle nxt, sound.2.lookEsc nxt⟩) (s := ()) ⟨apart, metered⟩ bytes).2

end Front

/-- With the `ESC` that is held. -/
def Intake.weight (p : Intake) : Nat := p.front.weight + if p.held.isSome then 1 else 0

namespace Front

open KittyApcAssembler

variable {inflate : List UInt8 → Nat → Inflated} {p : Front}

/-- The state a step of `ESC` and the byte after it leads to. -/
def Looked.land (inflate : List UInt8 → Nat → Inflated) (r : Looked) (nxt : UInt8) : Intake :=
  (r.front.loop inflate (if r.consumed then [] else [nxt])).1

theorem loop_ground_spends (outside : p.inApc = false) (idle : p.iterm2.isActive = false) (b : UInt8) :
    Spends 3 p.kitty (p.loop inflate [b]).1.weight (p.loop inflate [b]).1.front.kitty := by
  have passed := scan_inactive idle b
  by_cases text : b = 0x1B
  · subst text
    rw [loop_hold (by rw [passed]), passed]
    refine (Charges.same rfl).spends ?_
    rw [Intake.weight, weight_ground outside idle]
    exact Nat.le_refl 3
  · rw [loop_plain (by rw [passed]) text, passed]
    have charged : ((p.plainByte inflate b).1.loop inflate []).1.front.kitty = p.note.kitty := by
      rw [plainByte, outside]
      rfl
    exact ((note_charges p).frame (congrArg pending charged)).spends (by omega)

theorem loop_passed {b : UInt8} (passed : (p.scan b).consumed = false) (inflate : List UInt8 → Nat → Inflated) :
    (p.loop inflate [b]).1 = ((p.scan b).front.loop inflate [b]).1 := by
  have again := scan_inactive (scan_idle passed) b
  by_cases text : b = 0x1B
  · subst text
    rw [loop_hold passed, loop_hold (by rw [again]), again, scan_inApc]
  · rw [loop_plain passed text, loop_plain (by rw [again]) text, again]
    rfl

theorem loop_one_spends (metered : p.Metered) (apart : p.Apart) (opened : p.kitty.pending.isSome) {b : UInt8}
    (noQuery : p.inApc = true → b = 0x07 ∨ b = 0x9C → ¬p.Queries) :
    Spends (p.weight + 1) p.kitty (p.loop inflate [b]).1.weight (p.loop inflate [b]).1.front.kitty := by
  have outside : p.iterm2.isActive = true → p.inApc = false :=
    fun active => Bool.eq_false_iff.mpr fun inside => by simp [apart.idle inside] at active
  have scanned := scan_spends outside b
  cases inside : p.inApc with
  | true =>
    have idle := apart.idle inside
    have passed := scan_inactive idle b
    by_cases text : b = 0x1B
    · subst text
      rw [loop_hold (by rw [passed]), passed]
      exact (Charges.same rfl).spends (by rw [Intake.weight]; simp)
    · rw [loop_plain (by rw [passed]) text, passed]
      exact (plainByte_spends metered idle (fun _ => opened) noQuery).trans ((Charges.same rfl).spends (by simp [Intake.weight]))
  | false =>
    cases consumed : (p.scan b).consumed with
    | true =>
      rw [loop_consumed consumed]
      rw [consumed, if_pos rfl] at scanned
      exact scanned
    | false =>
      have idle := scan_idle consumed
      have ground := (scan_inApc p b).trans inside
      rw [consumed, if_neg (by decide), Nat.add_zero, weight_ground ground idle] at scanned
      rw [loop_passed consumed inflate]
      exact (scanned.shift 1).trans (loop_ground_spends ground idle b)

theorem land_consumed {r : Looked} (consumed : r.consumed = true) (nxt : UInt8) : r.land inflate nxt = ⟨r.front, none⟩ := by
  rw [Looked.land, if_pos consumed, loop_nil]

theorem land_again {r : Looked} (again : r.consumed = false) (nxt : UInt8) :
    r.land inflate nxt = (r.front.loop inflate [nxt]).1 := by
  rw [Looked.land, if_neg (by simp [again])]

theorem beginApc_spends (p : Front) : Spends 4 p.kitty p.beginApc.weight p.beginApc.kitty :=
  (Charges.same rfl).spends (by simp [weight, beginApc, clearApcHeader])

theorem divert_spends (outside : p.inApc = false) : Spends 4 p.kitty p.divert.1.weight p.divert.1.kitty := by
  have pos := weight_pos ((divert_inApc p).trans outside)
  exact p.divert_charges.spends (by omega)

theorem groundEsc_spends (outside : p.inApc = false) (idle : p.iterm2.isActive = false) (nxt : UInt8) :
    Spends 4 p.kitty ((p.groundEsc nxt).land inflate nxt).weight ((p.groundEsc nxt).land inflate nxt).front.kitty := by
  unfold groundEsc
  split_ifs
  · rw [land_consumed rfl]
    exact p.beginApc_spends
  · rw [land_consumed rfl]
    exact divert_spends outside
  · rw [land_again rfl]
    have charged : Charges 1 p.kitty (p.note.feed [0x1B]).1.kitty := p.note_charges
    exact (charged.spends (b := 3) (by omega)).trans
      (loop_ground_spends (p := (p.note.feed [0x1B]).1) outside idle nxt)

theorem resumeGround_spends (outside : p.inApc = false) {nxt : UInt8} (opens : nxt = 0x5F ∨ nxt = 0x5D) :
    Spends 4 p.kitty ((p.resumeGround nxt).land inflate nxt).weight ((p.resumeGround nxt).land inflate nxt).front.kitty := by
  rcases opens with rfl | rfl
  · exact p.beginApc_spends
  · exact divert_spends outside

theorem resumeGround_closed (outside : p.inApc = false) (idle : p.iterm2.isActive = false)
    (closed : p.kitty.pending = none) (nxt : UInt8) : ((p.resumeGround nxt).land inflate nxt).front.kitty.pending = none := by
  unfold resumeGround
  split_ifs
  · rw [land_consumed rfl]
    exact p.beginApc_spends.of_none closed
  · rw [land_consumed rfl]
    exact (divert_spends outside).of_none closed
  · rw [land_again rfl]
    exact (loop_ground_spends (p := (p.feed [0x1B]).1) outside idle nxt).of_none closed

theorem apcEsc_spends (metered : p.Metered) (inside : p.inApc = true) (idle : p.iterm2.isActive = false)
    (opened : p.kitty.pending.isSome) {nxt : UInt8} (noQuery : nxt = 0x5C → ¬p.Queries) :
    Spends (p.weight + 2) p.kitty ((p.apcEsc inflate nxt).land inflate nxt).weight
      ((p.apcEsc inflate nxt).land inflate nxt).front.kitty := by
  unfold apcEsc
  split_ifs with st
  · rw [land_consumed rfl]
    exact terminateApc_spends metered inside idle opened (noQuery st)
  · exact .dropped ((groundEsc_spends (p := p.abortApc) rfl idle nxt).of_none rfl)
  · rw [land_consumed rfl]
    exact .dropped rfl
  · rw [land_consumed rfl]
    exact .dropped ((divert_spends (p := p.abortApc) rfl).of_none rfl)
  · rw [land_again rfl]
    exact .dropped ((loop_ground_spends (p := (p.abortApc.feed [0x1B]).1) rfl idle nxt).of_none rfl)

theorem resumeApc_spends (metered : p.Metered) (inside : p.inApc = true) (idle : p.iterm2.isActive = false)
    (opened : p.kitty.pending.isSome) {nxt : UInt8} (noQuery : nxt = 0x5C → ¬p.Queries) :
    Spends (p.weight + 2) p.kitty ((p.resumeApc inflate nxt).land inflate nxt).weight
      ((p.resumeApc inflate nxt).land inflate nxt).front.kitty := by
  unfold resumeApc
  split_ifs with st
  · rw [land_consumed rfl]
    exact terminateApc_spends metered inside idle opened (noQuery st)
  · rw [land_consumed rfl]
    exact .dropped rfl
  · rw [land_consumed rfl]
    exact .dropped rfl
  · rw [land_consumed rfl]
    exact .dropped ((divert_spends (p := p.abortApc) rfl).of_none rfl)
  · rw [land_again rfl]
    exact .dropped ((loop_ground_spends (p := (p.abortApc.feed [0x1B]).1) rfl idle nxt).of_none rfl)

end Front

namespace Intake

open KittyApcAssembler

variable {inflate : List UInt8 → Nat → Inflated} {p : Intake}

theorem advance_metered (metered : p.front.Metered) (held : Front.Held p) (bytes : List UInt8) :
    (p.advance inflate bytes).1.front.Metered := by
  unfold advance
  cases state : p.held with
  | none => exact metered.loop held.apart bytes
  | some v =>
    cases bytes with
    | nil => exact metered
    | cons next rest =>
      obtain rfl := held.inApc v state
      exact (metered.resume next).loop (.resume (held.idle (by simp [state])) next) _

theorem onward_metered (metered : p.front.Metered) (held : Front.Held p) (bytes : List UInt8) :
    (p.onward inflate bytes).1.front.Metered := by
  unfold onward
  cases state : p.held with
  | none => exact metered.loop held.apart bytes
  | some v =>
    cases bytes with
    | nil => exact metered
    | cons next rest => exact (metered.lookEsc next).loop (.lookEsc (held.idle (by simp [state])) next) _

theorem onward_held (held : Front.Held p) (bytes : List UInt8) : Front.Held (p.onward inflate bytes).1 := by
  unfold onward
  cases state : p.held with
  | none => exact Front.loop_held held.apart bytes
  | some v =>
    cases bytes with
    | nil => exact held
    | cons next rest => exact Front.loop_held (.lookEsc (held.idle (by simp [state])) next) _

def stepByte (inflate : List UInt8 → Nat → Inflated) (p : Intake) (input : Bool × UInt8) : Intake :=
  if input.1 then (p.advance inflate [input.2]).1 else (p.onward inflate [input.2]).1

def marked : List (List UInt8) → List (Bool × UInt8)
  | [] => []
  | [] :: slices => marked slices
  | (b :: rest) :: slices => (true, b) :: rest.map (fun c => (false, c)) ++ marked slices

theorem length_marked (slices : List (List UInt8)) : (marked slices).length = slices.flatten.length := by
  induction slices using marked.induct with
  | case1 => rfl
  | case2 slices ih => exact ih
  | case3 b rest slices ih =>
    rw [marked, List.flatten_cons, List.length_append, List.length_append, ih, List.length_cons, List.length_map,
      List.length_cons]

theorem mem_marked {slices : List (List UInt8)} {input : Bool × UInt8} (member : input ∈ marked slices) :
    input.2 ∈ slices.flatten := by
  induction slices using marked.induct with
  | case1 => cases member
  | case2 slices ih => exact ih member
  | case3 b rest slices ih =>
    simp only [marked, List.cons_append, List.mem_cons, List.mem_append, List.mem_map] at member
    rw [List.flatten_cons, List.mem_append, List.mem_cons]
    rcases member with rfl | ⟨c, inside, rfl⟩ | later
    · exact .inl (.inl rfl)
    · exact .inl (.inr inside)
    · exact .inr (ih later)

theorem marked_replicate (count : Nat) (b : UInt8) :
    marked (List.replicate count [b]) = List.replicate count (true, b) := by
  induction count with
  | zero => rfl
  | succ count ih => simp [List.replicate_succ, Intake.marked, ih]

/-- The two ways to take a byte without a charge are not used: an `ESC` held at the end of a slice
outside an `APC` is followed by `_` or `]`, and no `APC` that ends is a font query. -/
def Counted (p : Intake) (input : Bool × UInt8) : Prop :=
  (input.1 = true → p.held = some false → input.2 = 0x5F ∨ input.2 = 0x5D) ∧
    (p.front.inApc = true → p.front.Queries →
      ¬if p.held.isSome then input.2 = 0x5C else input.2 = 0x07 ∨ input.2 = 0x9C)

theorem stepByte_sound (metered : p.front.Metered) (held : Front.Held p) (input : Bool × UInt8) :
    (p.stepByte inflate input).front.Metered ∧ Front.Held (p.stepByte inflate input) := by
  unfold stepByte
  split_ifs
  · exact ⟨advance_metered metered held _, held.advance _⟩
  · exact ⟨onward_metered metered held _, onward_held held _⟩

theorem stepByte_spends (inflate : List UInt8 → Nat → Inflated) (metered : p.front.Metered) (held : Front.Held p) (opened : p.front.kitty.pending.isSome)
    {input : Bool × UInt8} (counted : p.Counted input) :
    Spends (p.weight + 1) p.front.kitty (p.stepByte inflate input).weight (p.stepByte inflate input).front.kitty := by
  obtain ⟨fresh, b⟩ := input
  obtain ⟨opens, noQuery⟩ := counted
  cases state : p.held with
  | none =>
    have loop : p.stepByte inflate (fresh, b) = (p.front.loop inflate [b]).1 := by
      cases fresh <;> simp [stepByte, advance, onward, state]
    have weight : p.weight = p.front.weight := by simp [Intake.weight, state]
    rw [loop, weight]
    refine Front.loop_one_spends metered held.apart opened fun inside ends queries => ?_
    simp only [state, Option.isSome_none, Bool.false_eq_true, if_false] at noQuery
    exact noQuery inside queries ends
  | some v =>
    obtain rfl := held.inApc v state
    have idle := held.idle (by simp [state])
    have weight : p.weight = p.front.weight + 1 := by simp [Intake.weight, state]
    have apart (inside : p.front.inApc = true) (st : b = 0x5C) : ¬p.front.Queries := fun queries => by
      simp only [state, Option.isSome_some, if_true] at noQuery
      exact noQuery inside queries st
    rw [weight]
    cases fresh with
    | false =>
      have looked : p.stepByte inflate (false, b) = (p.front.lookEsc inflate b).land inflate b := by
        simp only [stepByte, onward, state, Front.Looked.land]
        split_ifs <;> simp_all
      rw [looked]
      unfold Front.lookEsc
      split_ifs with inside
      · exact Front.apcEsc_spends metered inside idle opened (apart inside)
      · have outside : p.front.inApc = false := by simpa using inside
        rw [Front.weight_ground outside idle]
        exact Front.groundEsc_spends outside idle b
    | true =>
      have resumed : p.stepByte inflate (true, b) = (p.front.resume inflate p.front.inApc b).land inflate b := by
        simp only [stepByte, advance, state, Front.Looked.land]
        split_ifs <;> simp_all
      rw [resumed]
      unfold Front.resume
      split_ifs with discarding inside
      · exact .dropped (Front.resumeGround_closed (p := p.front.abortApc) rfl idle rfl b)
      · exact Front.resumeApc_spends metered inside idle opened (apart inside)
      · have outside : p.front.inApc = false := by simpa using inside
        rw [Front.weight_ground outside idle]
        exact Front.resumeGround_spends outside (opens rfl (by rw [state, outside]))

end Intake

theorem Parser.Reachable.metered {V : Vte} {inflate : List UInt8 → Nat → Inflated} {m : Meaning} {p : Parser V}
    (reach : Reachable inflate m p) : p.intake.front.Metered := by
  induction reach with
  | new => exact .ground rfl (.dropped rfl) (Nat.zero_le _) rfl
  | withLedgerCap cap => exact .ground rfl (.dropped rfl) (Nat.zero_le _) rfl
  | advance bytes reach ih => exact Intake.advance_metered ih reach.held bytes

def KITTY_STALL_BOUND : Nat := 5 * KITTY_APC_STALL_MAX_BYTES + KITTY_APC_MAX_CONTROL_BYTES + 6

namespace Parser

variable {V : Vte} {inflate : List UInt8 → Nat → Inflated} {m : Meaning}

/-- The parser's front after `n` bytes of some slices. -/
def after (inflate : List UInt8 → Nat → Inflated) (p : Parser V) (slices : List (List UInt8)) (n : Nat) : Intake :=
  ((Intake.marked slices).take n).foldl (Intake.stepByte inflate) p.intake

theorem after_succ {p : Parser V} {slices : List (List UInt8)} {n : Nat} {input : Bool × UInt8}
    (next : (Intake.marked slices)[n]? = some input) :
    p.after inflate slices (n + 1) = (p.after inflate slices n).stepByte inflate input := by
  rw [after, List.take_add_one, next, List.foldl_append]
  rfl

theorem after_induction {p : Parser V} {slices : List (List UInt8)} {P : Intake → Prop} (start : P p.intake)
    (step : ∀ q input, input ∈ Intake.marked slices → P q → P (q.stepByte inflate input)) (n : Nat) :
    P (p.after inflate slices n) := by
  induction n with
  | zero => exact start
  | succ n ih =>
    cases next : (Intake.marked slices)[n]? with
    | none =>
      rw [after, List.take_add_one, next]
      simpa [after] using ih
    | some input =>
      rw [after_succ next]
      exact step _ _ (List.mem_of_getElem? next) ih

theorem Reachable.after_sound {p : Parser V} (reach : Reachable inflate m p) (slices : List (List UInt8)) (n : Nat) :
    (p.after inflate slices n).front.Metered ∧ Front.Held (p.after inflate slices n) :=
  after_induction (P := fun q => q.front.Metered ∧ Front.Held q) ⟨reach.metered, reach.held⟩
    (fun _ input _ sound => Intake.stepByte_sound sound.1 sound.2 input) n

/-- No byte of the payload of the open stream is accepted for `bound` bytes, as long as it is open. -/
def Starved (inflate : List UInt8 → Nat → Inflated) (p : Parser V) (slices : List (List UInt8)) (bound : Nat) : Prop :=
  ∀ n ≤ bound, (∀ i ≤ n, (p.after inflate slices i).front.kitty.hasPending = true) →
    (p.after inflate slices n).front.kitty.pendingEncodedLen = p.intake.front.kitty.pendingEncodedLen

theorem stalled_dropped {p : Parser V} (reach : Reachable inflate m p)
    {slices : List (List UInt8)} (long : KITTY_STALL_BOUND ≤ slices.flatten.length)
    (starved : p.Starved inflate slices KITTY_STALL_BOUND)
    (counted : ∀ n input, (Intake.marked slices)[n]? = some input → (p.after inflate slices n).Counted input) :
    ∃ n ≤ KITTY_STALL_BOUND, (p.after inflate slices n).front.kitty.hasPending = false := by
  by_contra never
  have pending (n : Nat) (within : n ≤ KITTY_STALL_BOUND) : (p.after inflate slices n).front.kitty.hasPending = true := by
    by_contra dropped
    exact never ⟨n, within, by simpa using dropped⟩
  have fed (n : Nat) (within : n ≤ KITTY_STALL_BOUND) : (p.after inflate slices n).front.kitty.pendingEncodedLen =
      p.intake.front.kitty.pendingEncodedLen := starved n within fun i earlier => pending i (Nat.le_trans earlier within)
  have sound := reach.after_sound slices
  have counts (n : Nat) (within : n ≤ KITTY_STALL_BOUND) : ∃ q, (p.after inflate slices n).front.kitty.pending = some q ∧
      n ≤ 5 * q.interleaved + (p.after inflate slices n).weight := by
    induction n with
    | zero =>
      obtain ⟨q, start⟩ := Option.isSome_iff_exists.mp (pending 0 within)
      exact ⟨q, start, Nat.zero_le _⟩
    | succ n ih =>
      obtain ⟨q, start, less⟩ := ih (by omega)
      have inside : n < (Intake.marked slices).length := by
        rw [Intake.length_marked]
        omega
      have next := List.getElem?_eq_getElem inside
      obtain ⟨q', last⟩ := Option.isSome_iff_exists.mp (pending (n + 1) within)
      have spends := Intake.stepByte_spends inflate (sound n).1 (sound n).2 (by simp [start]) (counted n _ next)
      rw [← after_succ next] at spends
      obtain ⟨q₀, start', paid⟩ := spends q' last
      obtain rfl := Option.some.inj (start.symm.trans start')
      have lengths := (fed (n + 1) within).trans (fed n (by omega)).symm
      simp only [KittyApcAssembler.pendingEncodedLen, start, last, Option.map_some, Option.getD_some] at lengths
      exact ⟨q', last, by omega⟩
  obtain ⟨q, last, all⟩ := counts KITTY_STALL_BOUND (Nat.le_refl _)
  have unstalled := (sound KITTY_STALL_BOUND).1.unstalled q last
  have light := (sound KITTY_STALL_BOUND).1.weight_le
  have held : (p.after inflate slices KITTY_STALL_BOUND).weight ≤ (p.after inflate slices KITTY_STALL_BOUND).front.weight + 1 := by
    unfold Intake.weight
    split_ifs <;> omega
  unfold KITTY_STALL_BOUND at *
  omega

theorem advance_intake (p : Parser V) (bytes : List UInt8) :
    (p.advance inflate m bytes).1.intake = (p.intake.advance inflate bytes).1 := rfl

def streaming : Parser Reference.vte :=
  ((new Reference.vte).advance (fun _ _ => .failed) Reference.meaning openStream).1

theorem streaming_reachable : Reachable (fun _ _ => .failed) Reference.meaning streaming := .advance _ .new

theorem streaming_intake : streaming.intake = ⟨Front.streaming 0, none⟩ := by
  have opened : ({} : Front).loop (fun _ _ => .failed) openStream = (⟨Front.streaming 0, none⟩, []) := by decide +kernel
  rw [streaming, advance_intake, new, Intake.advance, opened]

/-- Text outside an `APC`, with nothing of a payload taken. -/
structure Waiting (p : Intake) : Prop where
  held : p.held = none
  outside : p.front.inApc = false
  idle : p.front.iterm2.isActive = false
  empty : p.front.kitty.pendingEncodedLen = 0

theorem Waiting.text {p : Intake} (waiting : Waiting p) (fresh : Bool) :
    Waiting (p.stepByte (fun _ _ => .failed) (fresh, 0x61)) := by
  have passed := Front.scan_inactive waiting.idle 0x61
  have read : p.stepByte (fun _ _ => .failed) (fresh, 0x61) = ⟨(p.front.note.feed [0x61]).1, none⟩ := by
    have loop : p.stepByte (fun _ _ => .failed) (fresh, 0x61) = (p.front.loop (fun _ _ => .failed) [0x61]).1 := by
      cases fresh <;> simp [Intake.stepByte, Intake.advance, Intake.onward, waiting.held]
    rw [loop, Front.loop_plain (by rw [passed]) (by decide), passed, Front.plainByte, waiting.outside]
    rfl
  rw [read]
  exact ⟨rfl, waiting.outside, waiting.idle, (KittyApcAssembler.noteInterleaved_charges _ 1).empty waiting.empty⟩

theorem Waiting.streaming : Waiting streaming.intake := by
  rw [streaming_intake]
  exact ⟨rfl, rfl, rfl, rfl⟩

theorem Waiting.after (count n : Nat) :
    Waiting (Parser.streaming.after (fun _ _ => .failed) [List.replicate count 0x61] n) := by
  refine after_induction Waiting.streaming (fun p input member waiting => ?_) n
  obtain ⟨fresh, b⟩ := input
  have text := Intake.mem_marked member
  rw [List.flatten_singleton, List.mem_replicate] at text
  obtain rfl : b = 0x61 := text.2
  exact waiting.text fresh

theorem Waiting.counted {p : Intake} (waiting : Waiting p) {input : Bool × UInt8} : p.Counted input :=
  ⟨fun _ held => by simp [waiting.held] at held, fun inside => by simp [waiting.outside] at inside⟩

/-- A text that no stream survives. -/
theorem stalled_dropped_text :
    ∃ n ≤ KITTY_STALL_BOUND, (streaming.after (fun _ _ => .failed) [List.replicate KITTY_STALL_BOUND 0x61] n).front.kitty.hasPending = false := by
  have length (count : Nat) : count ≤ ([List.replicate count 0x61] : List (List UInt8)).flatten.length := by simp
  have starved (count : Nat) : streaming.Starved (fun _ _ => .failed) [List.replicate count 0x61] count :=
    fun n _ _ => (Waiting.after count n).empty.trans Waiting.streaming.empty.symm
  have counted (count : Nat) : ∀ n input, (Intake.marked [List.replicate count 0x61])[n]? = some input →
      (streaming.after (fun _ _ => .failed) [List.replicate count 0x61] n).Counted input :=
    fun n _ _ => (Waiting.after count n).counted
  exact stalled_dropped streaming_reachable (length KITTY_STALL_BOUND) (starved KITTY_STALL_BOUND)
    (counted KITTY_STALL_BOUND)

/-- The states of the stream while `ESC` comes, one byte a call. -/
def Escaped (p : Intake) : Prop :=
  p = ⟨Front.streaming 0, none⟩ ∨ p = ⟨Front.streaming 0, some false⟩ ∨
    p = ⟨((Front.streaming 0).feed [0x1B]).1, some false⟩

theorem Escaped.escape {p : Intake} (escaped : Escaped p) : Escaped (p.stepByte (fun _ _ => .failed) (true, 0x1B)) := by
  have first : Intake.stepByte (fun _ _ => .failed) ⟨Front.streaming 0, none⟩ (true, 0x1B) =
      ⟨Front.streaming 0, some false⟩ := by decide +kernel
  have second : Intake.stepByte (fun _ _ => .failed) ⟨Front.streaming 0, some false⟩ (true, 0x1B) =
      ⟨((Front.streaming 0).feed [0x1B]).1, some false⟩ := by decide +kernel
  have third : Intake.stepByte (fun _ _ => .failed) ⟨((Front.streaming 0).feed [0x1B]).1, some false⟩ (true, 0x1B) =
      ⟨((Front.streaming 0).feed [0x1B]).1, some false⟩ := by decide +kernel
  rcases escaped with rfl | rfl | rfl
  · exact .inr (.inl first)
  · exact .inr (.inr second)
  · exact .inr (.inr third)

theorem Escaped.kitty {p : Intake} (escaped : Escaped p) : p.front.kitty = (Front.streaming 0).kitty := by
  rcases escaped with rfl | rfl | rfl
  · rfl
  · rfl
  · decide +kernel

theorem Escaped.after (count n : Nat) :
    Escaped (streaming.after (fun _ _ => .failed) (List.replicate count [0x1B]) n) := by
  refine after_induction (P := Escaped) (.inl streaming_intake) (fun p input member escaped => ?_) n
  rw [Intake.marked_replicate, List.mem_replicate] at member
  rw [member.2]
  exact escaped.escape

/-- Calls that each end after an `ESC` pin a stream for ever. -/
theorem stalled_kept :
    ¬∃ bound, ∀ p : Parser Reference.vte, Reachable (fun _ _ => .failed) Reference.meaning p →
      p.intake.front.kitty.hasPending = true → ∀ slices : List (List UInt8), bound ≤ slices.flatten.length →
        p.Starved (fun _ _ => .failed) slices bound →
          ∃ n ≤ bound, (p.after (fun _ _ => .failed) slices n).front.kitty.hasPending = false := by
  rintro ⟨bound, dropped⟩
  have pending : (Front.streaming 0).kitty.hasPending = true := rfl
  have kitty (n : Nat) := (Escaped.after bound n).kitty
  obtain ⟨n, -, closed⟩ := dropped streaming streaming_reachable (by rw [streaming_intake]; rfl)
    (List.replicate bound [0x1B]) (by simp) (fun n _ _ => by rw [kitty, streaming_intake])
  rw [kitty, pending] at closed
  cases closed

end Parser

end Bitty.Vt
