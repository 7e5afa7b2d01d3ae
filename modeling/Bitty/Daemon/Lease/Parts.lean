import Bitty.Daemon.Lease.Moves

/-! The parts the operations share: minting, the due detach of one lease, the sweep. -/

namespace Bitty.Daemon.SessionHost

open Mutation
open Std (ExtTreeMap)

variable {h h' : SessionHost} {s : SessionId} {a : AttachId} {now : MonotonicMs} {r r' : SessionRecord}
  {st : SessionLeaseState}

section Checks

theorem onRegistry_apply {α : Type} (m : RegistryM α) (h : SessionHost) :
    onRegistry m h = ((m h.registry).1.mapError LeaseRefusal.ofRegistry, { h with registry := (m h.registry).2 }) := rfl

theorem findState_ok : findState s h = .ok st ↔ h.sessions[s]? = some st := by
  unfold findState
  split
  · rename_i st' here
    rw [here]
    exact ⟨fun eq => congrArg some (Except.ok.inj eq), fun eq => congrArg Except.ok (Option.some.inj eq)⟩
  · rename_i absent
    rw [absent]
    simp

theorem findSnapshot_ok {snapshot : SessionSnapshot} :
    findSnapshot s h = .ok snapshot ↔ h.registry.snapshot s = some snapshot := by
  unfold findSnapshot
  split
  · rename_i snapshot' here
    rw [here]
    exact ⟨fun eq => congrArg some (Except.ok.inj eq), fun eq => congrArg Except.ok (Option.some.inj eq)⟩
  · rename_i absent
    rw [absent]
    simp

theorem Sound.live_of_snapshot (sound : h.Sound) {snapshot : SessionSnapshot} (known : h.registry.snapshot s = some snapshot)
    (alive : snapshot.state.isTerminal = false) : ∃ r st, h.slot s = .live r st ∧ snapshot = r.snapshot := by
  obtain ⟨r, held, rfl⟩ := Option.map_eq_some_iff.mp known
  rcases Option.or_eq_some_iff.mp held with record | ⟨-, retained⟩
  · obtain ⟨st, live⟩ := sound.live_slot record
    exact ⟨r, st, live, rfl⟩
  · have terminal := ((sound.slots s).frozen r retained).1
    have eq : r.state.isTerminal = false := alive
    rw [eq] at terminal
    cases terminal

end Checks

section Minting

variable (digest : ControlToken → ControlTokenDigest)

theorem mintToken_spec (h : SessionHost) :
    ∃ e : Entropy, e.fills32 <:+ h.entropy.fills32 ∧ (mintToken h).2 = { h with entropy := e } := by
  have less : h.entropy.fill32.2.fills32 <:+ h.entropy.fills32 := List.tail_suffix _
  unfold mintToken
  split <;> rename_i drawn <;> rw [drawn] at less <;> exact ⟨_, less, rfl⟩

theorem mintToken_ok {token : ControlToken} (run : mintToken h = (.ok token, h')) :
    h.entropy.fills32 = some token.bytes :: h'.entropy.fills32 := by
  unfold mintToken at run
  split at run
  · rename_i value entropy drawn
    obtain ⟨answer, rfl⟩ := Prod.mk.inj run
    obtain rfl := Except.ok.inj answer
    obtain ⟨head, rfl⟩ := Prod.mk.inj drawn
    cases fills : h.entropy.fills32 with
    | nil =>
      rw [fills] at head
      cases head
    | cons first rest =>
      rw [fills] at head
      obtain rfl : first = some value := head
      rfl
  · cases run

theorem mintRotatedToken_spec (h : SessionHost) (s : SessionId) :
    ∃ e : Entropy, e.fills32 <:+ h.entropy.fills32 ∧ (mintRotatedToken digest s h).2 = { h with entropy := e } := by
  obtain ⟨e, less, minted⟩ := mintToken_spec h
  unfold mintRotatedToken
  cases run : mintToken h with
  | mk answer after =>
    rw [run] at minted
    cases answer with
    | error refusal =>
      rw [bind_of_error run]
      exact ⟨e, less, minted⟩
    | ok token =>
      rw [bind_of_ok run, bind_apply]
      unfold refuseIf
      split <;> rename_i done <;> split_ifs at done <;> cases done <;> exact ⟨e, less, minted⟩

theorem fill_spec (h : SessionHost) :
    ∃ e : Entropy, e.fills32 = h.entropy.fills32 ∧ (fill h).2 = { h with entropy := e } := by
  have same : h.entropy.fill16.2.fills32 = h.entropy.fills32 := rfl
  unfold fill
  split <;> rename_i drawn <;> rw [drawn] at same <;> exact ⟨_, same, rfl⟩

theorem mintAttachIdWithin_spec (attempts : Nat) (h : SessionHost) :
    ∃ e : Entropy, e.fills32 = h.entropy.fills32 ∧ (mintAttachIdWithin attempts h).2 = { h with entropy := e } := by
  induction attempts generalizing h with
  | zero => exact ⟨h.entropy, rfl, rfl⟩
  | succ attempts ih =>
    obtain ⟨e, same, filled⟩ := fill_spec h
    unfold mintAttachIdWithin
    cases run : fill h with
    | mk answer after =>
      rw [run] at filled
      cases answer with
      | error refusal =>
        rw [bind_of_error run]
        exact ⟨e, same, filled⟩
      | ok value =>
        rw [bind_of_ok run, bind_of_ok (read_apply _ _)]
        split_ifs
        · obtain ⟨e', same', later⟩ := ih after
          simp only at filled
          refine ⟨e', ?_, later.trans ?_⟩
          · rw [same', filled, ← same]
          · rw [filled]
        · exact ⟨e, same, filled⟩

theorem mintAttachIdWithin_fresh {attempts : Nat} (run : mintAttachIdWithin attempts h = (.ok a, h')) :
    h.leaseSessions[a]? = none := by
  induction attempts generalizing h with
  | zero => cases run
  | succ attempts ih =>
    unfold mintAttachIdWithin at run
    obtain ⟨value, h₁, filled, rest⟩ := bind_ok run
    rw [bind_of_ok (read_apply _ _)] at rest
    obtain ⟨e, -, same⟩ := fill_spec h
    rw [filled] at same
    simp only at same
    have index : h₁.leaseSessions = h.leaseSessions := by rw [same]
    split_ifs at rest with taken
    · have fresh := ih rest
      rwa [index] at fresh
    · obtain ⟨answer, -⟩ := Prod.mk.inj rest
      obtain rfl := Except.ok.inj answer
      rw [index] at taken
      exact ExtTreeMap.getElem?_eq_none (by simpa using taken)

end Minting

theorem slot_forgetLease {t : SessionId} :
    (h.forgetLease s a).slot t =
      if s = t then { h.slot t with state := (h.slot t).state.map (·.removeLease a) } else h.slot t := by
  have same : (h.forgetLease s a).slot t = (h.modifyState s (·.removeLease a)).slot t := rfl
  rw [same]
  exact slot_modifyState

theorem removeLease_cases {answer : Except LeaseRefusal (Lease × SessionSnapshot)}
    (run : removeLease s a now h = (answer, h')) :
    (∃ e, answer = .error e ∧ h' = h) ∨
      ∃ st l r r', h.sessions[s]? = some st ∧ st.leases[a]? = some l ∧ h.registry.live[s]? = some r ∧
        r.detach now = .ok r' ∧ answer = .ok (l, r'.snapshot) ∧ h' = (h.putRecord s r').forgetLease s a := by
  unfold removeLease at run
  cases lookup : h.sessions[s]?.bind fun state => state.leases[a]? with
  | none =>
    rw [bind_apply, ask_apply, lookup] at run
    obtain ⟨rfl, rfl⟩ := Prod.mk.inj run
    exact .inl ⟨_, rfl, rfl⟩
  | some l =>
    obtain ⟨st, state, here⟩ := Option.bind_eq_some_iff.mp lookup
    rw [bind_apply, ask_apply, lookup] at run
    rcases bind_cases run with ⟨e, refused, rfl⟩ | ⟨session, h₁, detached, rest⟩
    · rcases onRegistry_cases refused with ⟨-, -, rfl, -⟩ | ⟨_, _, _, _, impossible, _⟩
      · exact .inl ⟨e, rfl, rfl⟩
      · cases impossible
    · rcases onRegistry_cases detached with ⟨_, impossible, _⟩ | ⟨r, r', record, done, same, rfl⟩
      · cases impossible
      · obtain rfl := Except.ok.inj same
        rw [bind_of_ok (change_apply _ _)] at rest
        obtain ⟨rfl, rfl⟩ := Prod.mk.inj rest
        exact .inr ⟨st, l, r, r', state, here, record, done, rfl, rfl⟩

section

variable {digest : ControlToken → ControlTokenDigest}

theorem forgetLease_index {b : AttachId} :
    (h.forgetLease s a).leaseSessions[b]? = if a = b then none else h.leaseSessions[b]? := TreeMap.find_erase _ _ _

theorem drop_moves (sound : h.Sound) (here : h.slot s = .live r st) {l : Lease} (lease : st.leases[a]? = some l)
    (detached : r.detach now = .ok r') : Moves digest silent h ((h.putRecord s r').forgetLease s a) := by
  have after : ((h.putRecord s r').forgetLease s a).slot s = .live r' (st.removeLease a) := by
    rw [slot_forgetLease, if_pos rfl, slot_putRecord, if_pos rfl, here]
    rfl
  have owner : h.leaseSessions[a]? = some s := (sound.owned a s).mpr ⟨st, l, congrArg Slot.state here, lease⟩
  rw [← only_nil (s := s)]
  refine .single sound ?_ (fun t other => ?_) (fun b t => ?_) rfl rfl rfl rfl
  · rw [here, after]
    exact .one (.drop lease detached)
  · rw [slot_forgetLease, if_neg other, slot_putRecord, if_neg other]
  · rw [forgetLease_index, after]
    have index : (h.putRecord s r').leaseSessions = h.leaseSessions := rfl
    rw [index]
    have owned := sound.owned b s
    rw [here] at owned
    by_cases same : a = b
    · subst same
      rw [if_pos rfl]
      simp only [reduceCtorEq, false_iff]
      split_ifs with mine
      · rintro ⟨st', l', state, found⟩
        obtain rfl := Option.some.inj state
        simp [SessionLeaseState.removeLease] at found
      · rw [owner]
        exact fun eq => mine (Option.some.inj eq)
    · rw [if_neg same]
      split_ifs with mine
      · subst mine
        have kept : (st.removeLease a).leases[b]? = st.leases[b]? := by
          rw [SessionLeaseState.removeLease, TreeMap.find_erase, if_neg same]
        rw [owned]
        simp only [Slot.Holds, Slot.live, Option.some.injEq, exists_and_left, exists_eq_left', kept]
      · exact Iff.rfl

theorem removeLease_moves (sound : h.Sound) {answer : Except LeaseRefusal (Lease × SessionSnapshot)}
    (run : removeLease s a now h = (answer, h')) : Moves digest silent h h' := by
  rcases removeLease_cases run with ⟨e, -, rfl⟩ | ⟨st, l, r, r', state, here, record, detached, -, rfl⟩
  · exact .refl sound
  · obtain ⟨st', live⟩ := sound.live_slot record
    obtain rfl := Option.some.inj (state.symm.trans (congrArg Slot.state live))
    exact drop_moves sound live here detached

end

end Bitty.Daemon.SessionHost
