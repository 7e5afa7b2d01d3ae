import Bitty.Vt.Kitty.Assembler

namespace Bitty.Vt.KittyApcAssembler

/-- If a stream is open after a step it was open before, with the same payload and at least `cost`
bytes less charged to it. -/
def Charges (cost : Nat) (k k' : KittyApcAssembler) : Prop :=
  ∀ q', k'.pending = some q' → ∃ q, k.pending = some q ∧ q'.encodedLen = q.encodedLen ∧ q.interleaved + cost ≤ q'.interleaved

namespace Charges

variable {c d : Nat} {k k₁ k₂ : KittyApcAssembler}

theorem dropped (none : k₁.pending = none) : Charges c k k₁ := fun _ some => by simp [none] at some

theorem same (same : k₁.pending = k.pending) : Charges 0 k k₁ := fun q' some => ⟨q', same ▸ some, rfl, Nat.le_refl _⟩

theorem trans (first : Charges c k k₁) (second : Charges d k₁ k₂) : Charges (c + d) k k₂ := by
  intro q₂ last
  obtain ⟨q₁, middle, sameLen, more⟩ := second q₂ last
  obtain ⟨q, start, len, less⟩ := first q₁ middle
  exact ⟨q, start, sameLen.trans len, by omega⟩

theorem frame (charges : Charges c k k₁) (same : k₂.pending = k₁.pending) : Charges c k k₂ :=
  fun q' some => charges q' (same ▸ some)

end Charges

theorem Charges.empty {c : Nat} {k k₁ : KittyApcAssembler} (charges : Charges c k k₁)
    (empty : k.pendingEncodedLen = 0) : k₁.pendingEncodedLen = 0 := by
  cases last : k₁.pending with
  | none => simp [pendingEncodedLen, last]
  | some q' =>
    obtain ⟨q, start, len, -⟩ := charges q' last
    simp only [pendingEncodedLen, start, last, Option.map_some, Option.getD_some] at empty ⊢
    omega

def Unstalled (k : KittyApcAssembler) : Prop := ∀ q, k.pending = some q → q.interleaved ≤ KITTY_APC_STALL_MAX_BYTES

theorem Unstalled.dropped {k : KittyApcAssembler} (none : k.pending = none) : k.Unstalled :=
  fun _ some => by simp [none] at some

variable {k : KittyApcAssembler}

theorem noteInterleaved_charges (k : KittyApcAssembler) (amount : Nat) : Charges amount k (k.noteInterleaved amount).1 := by
  unfold noteInterleaved
  cases pending : k.pending with
  | none => exact .dropped pending
  | some q =>
    dsimp only
    split_ifs
    · rintro _ ⟨⟩
      exact ⟨q, pending, rfl, Nat.le_refl _⟩
    · exact .dropped rfl

theorem noteInterleaved_unstalled (k : KittyApcAssembler) (amount : Nat) (unstalled : k.Unstalled) :
    (k.noteInterleaved amount).1.Unstalled := by
  unfold noteInterleaved
  cases pending : k.pending with
  | none => exact unstalled
  | some q =>
    dsimp only
    split_ifs with room
    · rintro _ ⟨⟩
      exact room
    · exact .dropped rfl

theorem noteInterleaved_currentFinal (k : KittyApcAssembler) (amount : Nat) (settled : k.currentFinal = none) :
    (k.noteInterleaved amount).1.currentFinal = none := by
  unfold noteInterleaved
  cases k.pending with
  | none => exact settled
  | some q =>
    dsimp only
    split_ifs
    · exact settled
    · rfl

theorem beginContinuation_charges (q : PendingKitty) (control afterG : List UInt8) :
    Charges (control.length + 1) k (k.beginContinuation q control afterG).1 := by
  unfold beginContinuation
  cases continuationFlags afterG with
  | error reason => exact .dropped rfl
  | ok flags =>
    dsimp only
    by_cases deletes : flags.delete
    · rw [if_pos deletes]
      exact .dropped rfl
    · rw [if_neg deletes]
      cases flags.more with
      | none => exact .dropped rfl
      | some more =>
        dsimp only
        by_cases allowed : actionOk q flags.action
        · rw [if_neg (not_not.mpr allowed)]
          have noted := k.noteInterleaved_charges (control.length + 1)
          rcases noting : k.noteInterleaved (control.length + 1) with ⟨k₁, _ | _⟩ <;> rw [noting] at noted
          · exact noted.frame rfl
          · exact noted
        · rw [if_pos allowed]
          exact .dropped rfl

theorem beginControl_charges {control : List UInt8} (settled : k.currentFinal = none)
    (short : control.length ≤ KITTY_APC_MAX_CONTROL_BYTES) (opened : k.pending.isSome) :
    Charges (control.length + 1) k (k.beginControl control).1 := by
  obtain ⟨q, pending⟩ := Option.isSome_iff_exists.mp opened
  unfold beginControl
  rw [settled, if_neg (by simp), if_neg (Nat.not_lt.mpr short)]
  split
  · rw [pending]
    exact beginContinuation_charges q _ _
  · exact k.noteInterleaved_charges _

/-- A chunk header that keeps the open stream within its bound, and opens a chunk if it is accepted. -/
structure Keeps (r : KittyApcAssembler × Except KittyApcReject Unit) : Prop where
  unstalled : r.1.Unstalled
  chunk : r.2 = .ok () ↔ r.1.currentFinal ≠ none

theorem Keeps.abort (k : KittyApcAssembler) (reason : KittyApcReject) : Keeps (k.abort, .error reason) :=
  ⟨.dropped rfl, nofun, fun chunk => absurd rfl chunk⟩

theorem Keeps.refused {k : KittyApcAssembler} (unstalled : k.Unstalled) (settled : k.currentFinal = none)
    (reason : KittyApcReject) : Keeps (k, .error reason) :=
  ⟨unstalled, nofun, fun chunk => absurd settled chunk⟩

theorem Keeps.accepted {k : KittyApcAssembler} (unstalled : k.Unstalled) (chunk : k.currentFinal.isSome) : Keeps (k, .ok ()) :=
  ⟨unstalled, fun _ => Option.isSome_iff_ne_none.mp chunk, fun _ => rfl⟩

theorem beginContinuation_keeps (unstalled : k.Unstalled) (settled : k.currentFinal = none) (q : PendingKitty)
    (control afterG : List UInt8) : Keeps (k.beginContinuation q control afterG) := by
  unfold beginContinuation
  cases continuationFlags afterG with
  | error reason => exact .abort k reason
  | ok flags =>
    dsimp only
    by_cases deletes : flags.delete
    · rw [if_pos deletes]
      exact .abort k _
    · rw [if_neg deletes]
      cases flags.more with
      | none => exact .abort k _
      | some more =>
        dsimp only
        by_cases allowed : actionOk q flags.action
        · rw [if_neg (not_not.mpr allowed)]
          have noted := k.noteInterleaved_unstalled (control.length + 1) unstalled
          have still := k.noteInterleaved_currentFinal (control.length + 1) settled
          rcases noting : k.noteInterleaved (control.length + 1) with ⟨k₁, _ | _⟩ <;> rw [noting] at noted still
          · exact .accepted noted rfl
          · exact .refused noted still _
        · rw [if_pos allowed]
          exact .abort k _

theorem beginStream_keeps (unstalled : k.Unstalled) (settled : k.currentFinal = none) (afterG : List UInt8) :
    Keeps (k.beginStream afterG) := by
  unfold beginStream
  split
  · exact .refused unstalled settled _
  · split
    · exact .refused unstalled settled _
    · refine .accepted ?_ rfl
      rintro _ ⟨⟩
      exact Nat.zero_le _

theorem beginControl_keeps (unstalled : k.Unstalled) (settled : k.currentFinal = none) (control : List UInt8) :
    Keeps (k.beginControl control) := by
  unfold beginControl
  rw [settled, if_neg (by simp)]
  split_ifs
  · exact .refused unstalled settled _
  · split
    · split
      · exact beginContinuation_keeps unstalled settled _ _ _
      · exact beginStream_keeps unstalled settled _
    · exact .refused (k.noteInterleaved_unstalled _ unstalled) (k.noteInterleaved_currentFinal _ settled) _

theorem finish_charges (inflate : List UInt8 → Nat → Inflated) (k : KittyApcAssembler) :
    Charges 0 k (k.finish inflate).1 ∧ (k.finish inflate).1.currentFinal = none := by
  unfold finish
  split
  · exact ⟨.same rfl, ‹_›⟩
  · exact ⟨.same rfl, rfl⟩
  · exact ⟨.same rfl, rfl⟩
  · dsimp only
    split <;> exact ⟨.dropped rfl, rfl⟩

theorem finish_unstalled (inflate : List UInt8 → Nat → Inflated) (unstalled : k.Unstalled) :
    (k.finish inflate).1.Unstalled := by
  intro q' pending
  obtain ⟨q, opened, -⟩ := (finish_charges inflate k).1 q' pending
  revert pending
  unfold finish
  split
  · exact unstalled q'
  · exact unstalled q'
  · exact unstalled q'
  · dsimp only
    split <;> exact nofun

theorem push_ok {q q' : PendingKitty} {input : List UInt8} {available : Nat} {budget budget' : IntakeBudget}
    (pushed : q.push input available budget = .ok (q', budget')) :
    q'.encodedLen = q.encodedLen + input.length ∧ q'.interleaved = q.interleaved := by
  unfold PendingKitty.push at pushed
  dsimp only at pushed
  split_ifs at pushed
  rcases decoded : q.decoder.push input q.payload available with reason | ⟨decoder, payload⟩
  · simp [decoded, bind, Except.bind] at pushed
  · simp only [decoded, bind, Except.bind] at pushed
    split at pushed
    · exact absurd pushed nofun
    · cases pushed
      exact ⟨rfl, rfl⟩

theorem pushPayload_cases (k : KittyApcAssembler) (b : UInt8) (chunk : k.currentFinal.isSome) :
    ((k.pushPayload [b]).1.pending = none ∧ (k.pushPayload [b]).1.currentFinal = none ∧ (k.pushPayload [b]).2 ≠ .ok ()) ∨
    ∃ q q', k.pending = some q ∧ (k.pushPayload [b]).1.pending = some q' ∧ q'.encodedLen = q.encodedLen + 1 ∧
      q'.interleaved = 0 ∧ (k.pushPayload [b]).1.currentFinal = k.currentFinal ∧ (k.pushPayload [b]).2 = .ok () := by
  obtain ⟨final, chunk⟩ := Option.isSome_iff_exists.mp chunk
  unfold pushPayload
  rw [chunk]
  cases pending : k.pending with
  | none => exact .inl ⟨rfl, rfl, nofun⟩
  | some q =>
    dsimp only
    by_cases control : q.controlOnly ∧ [b] ≠ []
    · rw [if_pos control]
      exact .inl ⟨rfl, rfl, nofun⟩
    · rw [if_neg control, if_pos (List.cons_ne_nil b [])]
      rcases pushed : PendingKitty.push { q with interleaved := 0 } [b] (min q.limit k.budget.payloadLimit) k.budget with
        reason | ⟨q', budget⟩
      · exact .inl ⟨rfl, rfl, nofun⟩
      · obtain ⟨len, fresh⟩ := push_ok pushed
        exact .inr ⟨q, q', rfl, rfl, len, fresh, rfl, rfl⟩

end Bitty.Vt.KittyApcAssembler
