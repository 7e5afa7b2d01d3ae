import Bitty.Daemon.Lease.Run

/-! The records of terminal sessions are kept by every operation but their collection and the end of a session. -/

namespace Bitty.Daemon.SessionHost

open Mutation
open Std (ExtTreeMap)

variable {α β : Type} {digest : ControlToken → ControlTokenDigest} {now : MonotonicMs} {h h' : SessionHost} {s : SessionId}

def Kept (h h' : SessionHost) : Prop := h'.registry.retained = h.registry.retained

theorem kept_trans (a b c : SessionHost) (first : Kept a b) (second : Kept b c) : Kept a c := Eq.trans second first

theorem kept_of_registry (same : h'.registry = h.registry) : Kept h h' := congrArg SessionRegistry.retained same

section Parts

variable {m : HostM α} {k : α → HostM β}

theorem kept_bind (first : m.Relates Kept) (rest : ∀ a, (k a).Relates Kept) : (m >>= k).Relates Kept :=
  Relates.bind kept_trans first rest

theorem kept_ask {f : SessionHost → Except LeaseRefusal α} (rest : ∀ a, (k a).Relates Kept) : (ask f >>= k).Relates Kept :=
  kept_bind (fun _ => rfl) rest

theorem kept_read {f : SessionHost → α} (rest : ∀ a, (k a).Relates Kept) : (Mutation.read f >>= k).Relates Kept :=
  kept_bind (fun _ => rfl) rest

theorem kept_refuseIf {c : SessionHost → Bool} {e : LeaseRefusal} {k : Unit → HostM β} (rest : (k ()).Relates Kept) :
    (refuseIf c e >>= k).Relates Kept :=
  kept_bind (Relates.of_refuseIf (R := Kept) (fun _ => rfl) c e) fun _ => rest

theorem kept_change {f : SessionHost → SessionHost} {k : Unit → HostM β} (same : ∀ h, (f h).registry = h.registry)
    (rest : (k ()).Relates Kept) : (change f >>= k).Relates Kept :=
  kept_bind (fun h => kept_of_registry (same h)) fun _ => rest

theorem kept_onRegistry {m : RegistryM α} (same : ∀ g, (m g).2.retained = g.retained) : (onRegistry m).Relates Kept :=
  fun h => same h.registry

theorem retained_mutate (s : SessionId) (change : SessionRecord → Except RegistryRefusal SessionRecord) (g : SessionRegistry) :
    (SessionRegistry.mutate s change g).2.retained = g.retained := by
  unfold SessionRegistry.mutate
  split
  · rfl
  · split <;> rfl

theorem kept_mutate (s : SessionId) (change : SessionRecord → Except RegistryRefusal SessionRecord) :
    (onRegistry (SessionRegistry.mutate s change)).Relates Kept := kept_onRegistry (retained_mutate s change)

end Parts

theorem renewLease_registry (h : SessionHost) (a : AttachId) (now : MonotonicMs) : (h.renewLease a now).registry = h.registry := by
  unfold renewLease
  split <;> rfl

theorem renewAuthorized_registry (h : SessionHost) (authorized : Authorized) (now : MonotonicMs) :
    (h.renewAuthorized authorized now).registry = h.registry := by
  unfold renewAuthorized
  split
  · exact renewLease_registry h _ now
  · rfl

theorem kept_mintToken : mintToken.Relates Kept := by
  intro h
  obtain ⟨e, -, same⟩ := mintToken_spec h
  rw [same]
  rfl

theorem kept_mintRotatedToken (s : SessionId) : (mintRotatedToken digest s).Relates Kept := by
  intro h
  obtain ⟨e, -, same⟩ := mintRotatedToken_spec digest h s
  rw [same]
  rfl

theorem kept_mintAttachId : mintAttachId.Relates Kept := by
  intro h
  obtain ⟨e, -, same⟩ := mintAttachIdWithin_spec ID_GENERATION_ATTEMPTS h
  unfold mintAttachId
  rw [same]
  rfl

theorem kept_removeLease (s : SessionId) (a : AttachId) (now : MonotonicMs) : (removeLease s a now).Relates Kept := by
  unfold removeLease
  refine kept_ask fun _ => kept_bind (kept_mutate s _) fun _ => ?_
  exact kept_change (fun _ => rfl) fun _ => rfl

theorem kept_sweepLeases (s : SessionId) (now : MonotonicMs) (due : List Lease) : (sweepLeases s now due).Relates Kept := by
  induction due with
  | nil => exact fun _ => rfl
  | cons l rest ih =>
    unfold sweepLeases
    refine kept_read fun present => ?_
    split_ifs
    · refine kept_bind (fun h => kept_mutate s _ h) fun detached => ?_
      split
      · exact ih
      · exact kept_change (fun _ => rfl) (kept_bind ih fun _ _ => rfl)
    · exact ih

theorem kept_sweepSession (s : SessionId) (now : MonotonicMs) : (sweepSession s now).Relates Kept := by
  unfold sweepSession
  exact kept_read fun due => kept_sweepLeases s now due

theorem kept_sweepSessions (now : MonotonicMs) (ids : List SessionId) : (sweepSessions now ids).Relates Kept := by
  induction ids with
  | nil => exact fun _ => rfl
  | cons s rest ih =>
    unfold sweepSessions
    exact kept_bind (kept_sweepSession s now) fun _ => kept_bind ih fun _ _ => rfl

theorem kept_vacate (s : SessionId) (now : MonotonicMs) (expired : Option Lease) : (vacate s now expired).Relates Kept := by
  cases expired with
  | none => exact fun _ => rfl
  | some l => exact kept_bind (kept_removeLease s l.attachId now) fun _ _ => rfl

theorem kept_attachObserver (s : SessionId) (now : MonotonicMs) : (attachObserver s now).Relates Kept := by
  unfold attachObserver
  refine kept_ask fun _ => kept_ask fun _ => kept_read fun _ => kept_refuseIf ?_
  refine kept_bind kept_mintAttachId fun _ => kept_bind (kept_sweepSession s now) fun _ => kept_refuseIf ?_
  refine kept_bind (kept_mutate s _) fun _ => kept_ask fun _ => ?_
  exact kept_change (fun _ => rfl) fun _ => rfl

theorem kept_claimController (s : SessionId) (generation : Nat) (token : ControlToken) (now : MonotonicMs) :
    (claimController digest s generation token now).Relates Kept := by
  unfold claimController
  refine kept_ask fun _ => kept_refuseIf (kept_refuseIf (kept_ask fun _ => kept_refuseIf (kept_refuseIf ?_)))
  refine kept_bind (kept_mintRotatedToken s) fun _ => kept_bind kept_mintAttachId fun _ => kept_read fun _ => ?_
  refine kept_bind (kept_vacate s now _) fun _ => kept_bind (kept_mutate s _) fun _ => kept_ask fun _ => ?_
  exact kept_change (fun _ => rfl) fun _ => rfl

theorem kept_heartbeat (a : AttachId) (now : MonotonicMs) : (heartbeat a now).Relates Kept := by
  unfold heartbeat
  refine kept_ask fun s => kept_ask fun _ => kept_refuseIf (kept_bind (kept_mutate s _) fun _ => ?_)
  exact kept_read fun _ => kept_change (fun _ => rfl) fun _ => rfl

variable {target : AttachId} {authorized : Authorized}

theorem kept_detachLive {authority : ControlAuthority} {own : Bool} :
    (detachLive s target authority own authorized now).Relates Kept := by
  unfold detachLive
  refine kept_read fun _ => kept_bind (kept_removeLease s target now) fun _ => ?_
  refine kept_change (fun _ => ?_) (kept_change (fun h => ?_) fun _ => rfl)
  · split <;> rfl
  · split
    · split_ifs
      · exact renewLease_registry h _ now
      · rfl
    · rfl

theorem kept_revokeLapsed : (revokeLapsed s target now).Relates Kept := by
  unfold revokeLapsed
  refine kept_bind (kept_removeLease s target now) fun _ => kept_change (fun _ => rfl) ?_
  exact kept_ask fun _ _ => rfl

theorem kept_detachAuthorized {authority : ControlAuthority} {own : Bool} {snapshot : SessionSnapshot}
    : (detachAuthorized s target authority own snapshot authorized now).Relates Kept := by
  intro h
  unfold detachAuthorized
  split_ifs
  · exact kept_detachLive h
  · exact kept_revokeLapsed h
  · rfl

theorem kept_detach (s : SessionId) (target : AttachId) (authority : ControlAuthority) (now : MonotonicMs) :
    (detach digest s target authority now).Relates Kept := by
  have own {snapshot : SessionSnapshot} : (detachOwn s target authority snapshot now).Relates Kept := by
    intro h
    unfold detachOwn
    split_ifs
    · rfl
    · exact kept_ask (fun _ => kept_detachAuthorized) h
  have other {snapshot : SessionSnapshot} : (detachOther digest s target authority snapshot now).Relates Kept :=
    kept_ask fun _ => kept_detachAuthorized
  unfold detach
  refine kept_ask fun _ => ?_
  split_ifs
  · exact fun _ => rfl
  · exact kept_refuseIf own
  · exact kept_refuseIf other

theorem kept_recordResize (a : AttachId) (now : MonotonicMs) : (recordResize a now).Relates Kept := by
  unfold recordResize
  refine kept_ask fun _ => kept_ask fun s => kept_bind (kept_mutate s _) fun _ => ?_
  exact kept_change (fun h => renewLease_registry h a now) fun _ => rfl

theorem kept_transferControl (s : SessionId) (generation : Nat) (authority : ControlAuthority) (target : AttachId)
    (now : MonotonicMs) : (transferControl digest s generation authority target now).Relates Kept := by
  have moved (h : SessionHost) (previous : Option AttachId) (d : ControlTokenDigest) :
      (h.moveControl s previous target d now).registry = h.registry := by
    unfold moveControl
    simp only [renewLease_registry]
    split
    · rw [renewLease_registry]
      rfl
    · rfl
  unfold transferControl
  refine kept_ask fun _ => kept_refuseIf (kept_ask fun _ => kept_ask fun _ => kept_ask fun _ => ?_)
  refine kept_bind (kept_mintRotatedToken s) fun _ => kept_bind (kept_vacate s now _) fun _ => ?_
  refine kept_bind (kept_mutate s _) fun _ => kept_ask fun _ => ?_
  exact kept_change (fun h => moved h _ _) fun _ => rfl

theorem kept_beginStop {stop : StopState} : (beginStop s stop authorized now).Relates Kept := by
  unfold beginStop
  refine kept_bind (kept_mutate s _) fun _ => kept_ask fun _ => kept_change (fun _ => rfl) ?_
  exact kept_change (fun h => renewAuthorized_registry h authorized now) fun _ => rfl

theorem kept_commitCancel {snapshot : SessionSnapshot} {intent : CancelIntent} :
    (commitCancel s snapshot intent now).Relates Kept := by
  unfold commitCancel
  exact kept_ask fun _ => kept_change (fun _ => rfl) fun _ => rfl

theorem kept_commitStop {reason : TerminalReason} {graceMs : Nat} :
    (commitStop s authorized reason now graceMs).Relates Kept := by
  unfold commitStop
  refine kept_ask fun _ => kept_read fun _ => ?_
  split
  · exact fun _ => rfl
  · split_ifs
    · split
      · exact fun _ => rfl
      · exact fun _ => rfl
    · exact kept_commitCancel
    · exact kept_bind kept_beginStop fun _ _ => rfl

theorem kept_abort (s : SessionId) (generation : Nat) (authority : ControlAuthority) (cause : ConsumerStopCause)
    (now : MonotonicMs) : (abort digest s generation authority cause now).Relates Kept := by
  unfold abort
  refine kept_refuseIf (kept_ask fun _ => ?_)
  split_ifs
  · exact fun _ => rfl
  · exact kept_ask fun _ => kept_read fun _ => kept_commitStop

theorem kept_operatorStop (s : SessionId) (generation : Nat) (cause : DaemonStopCause) (now : MonotonicMs) :
    (operatorStop s generation cause now).Relates Kept := by
  unfold operatorStop
  refine kept_ask fun _ => ?_
  split_ifs
  · exact fun _ => rfl
  · exact kept_refuseIf (kept_read fun _ => kept_commitStop)

theorem kept_kill (s : SessionId) (generation : Nat) (now : MonotonicMs) : (kill s generation now).Relates Kept := by
  unfold kill
  refine kept_ask fun snapshot => ?_
  by_cases terminal : snapshot.state.isTerminal = true
  · rw [if_pos terminal]
    exact fun _ => rfl
  rw [if_neg terminal]
  refine kept_refuseIf (kept_ask fun _ => ?_)
  split
  · exact fun _ => rfl
  · split_ifs
    · exact fun _ => rfl
    · exact kept_change (fun _ => rfl) fun _ => rfl
    · exact kept_commitCancel
    · exact kept_bind kept_beginStop fun _ _ => rfl

theorem kept_escalateAbort (s : SessionId) (now : MonotonicMs) : (escalateAbort s now).Relates Kept := by
  unfold escalateAbort
  refine kept_ask fun _ => ?_
  split
  · exact fun _ => rfl
  · split_ifs
    · exact fun _ => rfl
    · exact kept_change (fun _ => rfl) fun _ => rfl

theorem kept_createKind (request : CreateSession) (kind : SessionKind) (now : MonotonicMs) :
    (createKind digest request kind now).Relates Kept := by
  have made (g : SessionRegistry) : (SessionRegistry.createKind request kind now g).2.retained = g.retained := by
    cases run : SessionRegistry.createKind request kind now g with
    | mk answer g' =>
      rcases SessionRegistry.createKind_cases run with ⟨e, -, e', rfl⟩ | ⟨e, s, r, -, -, -, -, -, -, -, rfl⟩ <;> rfl
  unfold createKind
  refine kept_bind kept_mintToken fun _ => kept_bind (kept_onRegistry made) fun _ => ?_
  exact kept_change (fun _ => rfl) fun _ => rfl

theorem kept_discardCreated (s : SessionId) : (discardCreated s).Relates Kept := by
  have discarded (g : SessionRegistry) : (SessionRegistry.discardCreated s g).2.retained = g.retained := by
    unfold SessionRegistry.discardCreated
    split
    · rfl
    · split_ifs <;> rfl
  unfold discardCreated
  refine kept_ask fun _ => kept_refuseIf (kept_bind (kept_onRegistry discarded) fun _ => ?_)
  exact fun _ => rfl

theorem kept_observeWorker (s : SessionId) (now : MonotonicMs) : (observeWorker s now).Relates Kept := by
  unfold observeWorker
  exact kept_bind (fun h => kept_mutate s _ h) fun _ _ => rfl

section Terminal

variable {x : Termination} {cleanup : CleanupClass} {snapshot : SessionSnapshot}

theorem finishTerminal_completed {outcome : TerminalOutcome} {actor : Actor}
    (run : finishTerminal s outcome actor now h = (.ok x, h')) : ∃ notice, x = .completed notice := by
  unfold finishTerminal at run
  obtain ⟨_, _, run⟩ := ask_bind_ok run
  obtain ⟨_, _, run⟩ := ask_bind_ok run
  obtain ⟨_, _, -, run⟩ := bind_ok run
  obtain ⟨_, _, -, run⟩ := bind_ok run
  obtain ⟨_, _, run⟩ := ask_bind_ok run
  obtain ⟨answer, -⟩ := Prod.mk.inj run
  exact ⟨_, (Except.ok.inj answer).symm⟩

theorem completePreBindCancel_replay (run : completePreBindCancel s cleanup now h = (.ok (.alreadyTerminal snapshot), h')) :
    h' = h := by
  unfold completePreBindCancel at run
  obtain ⟨_, -, run⟩ := ask_bind_ok run
  split_ifs at run
  · exact (Prod.mk.inj run).2.symm
  · obtain ⟨_, -, run⟩ := ask_bind_ok run
    obtain ⟨-, run⟩ := refuseIf_bind_ok run
    obtain ⟨_, -, run⟩ := ask_bind_ok run
    obtain ⟨notice, impossible⟩ := finishTerminal_completed run
    cases impossible

theorem recordTermination_replay {observation : ExitObservation}
    (run : recordTermination s observation cleanup now h = (.ok (.alreadyTerminal snapshot), h')) : h' = h := by
  unfold recordTermination at run
  obtain ⟨_, -, run⟩ := ask_bind_ok run
  split_ifs at run
  · exact (Prod.mk.inj run).2.symm
  · obtain ⟨_, -, run⟩ := ask_bind_ok run
    obtain ⟨_, -, run⟩ := ask_bind_ok run
    obtain ⟨_, -, run⟩ := ask_bind_ok run
    obtain ⟨notice, impossible⟩ := finishTerminal_completed run
    cases impossible

theorem Whole.retained (whole : Whole now h h') (t : SessionId) : (h'.slot t).retained = (h.slot t).retained :=
  (whole.lapsed t).retained

variable {answer : Except LeaseRefusal Termination}

theorem finishTerminal_retained {outcome : TerminalOutcome} {actor : Actor}
    (sound : h.Sound) (caused : ∀ r st x, h.slot s = .live r st → r.checkTerminalTransition outcome = .ok x →
      Slot.Caused st outcome.reason actor)
    (run : finishTerminal s outcome actor now h = (answer, h')) (quiet : ∀ notice, answer ≠ .ok (.completed notice))
    (t : SessionId) : (h'.slot t).retained = (h.slot t).retained := by
  rcases finishTerminal_ends (fun token => ⟨token.bytes⟩) sound caused run with ends | ⟨-, -, stranded⟩
  · cases ends with
    | refused whole => exact whole.retained t
    | done moves =>
      obtain ⟨notice, rfl⟩ := finishTerminal_completed run
      exact absurd rfl (quiet notice)
  · obtain ⟨n, r, st, r', -, -, -, -, -, rfl⟩ := stranded
    rw [slot_putRecord]
    split_ifs <;> rfl

theorem completePreBindCancel_retained (sound : h.Sound)
    (run : completePreBindCancel s cleanup now h = (answer, h')) (quiet : ∀ notice, answer ≠ .ok (.completed notice))
    (t : SessionId) : (h'.slot t).retained = (h.slot t).retained := by
  rcases completePreBindCancel_cases (fun token => ⟨token.bytes⟩) sound run with ends | ⟨outcome, actor, asked, finish⟩
  · cases ends with
    | refused whole => exact whole.retained t
    | @done x _ moves =>
      cases x with
      | completed notice => exact absurd rfl (quiet notice)
      | alreadyTerminal snapshot => rw [completePreBindCancel_replay run]
  · exact finishTerminal_retained sound (asked.caused sound) finish quiet t

theorem recordTermination_retained {observation : ExitObservation} (sound : h.Sound)
    (run : recordTermination s observation cleanup now h = (answer, h')) (quiet : ∀ notice, answer ≠ .ok (.completed notice))
    (t : SessionId) : (h'.slot t).retained = (h.slot t).retained := by
  rcases recordTermination_cases (fun token => ⟨token.bytes⟩) sound run with ends | ⟨outcome, actor, asked, finish⟩
  · cases ends with
    | refused whole => exact whole.retained t
    | @done x _ moves =>
      cases x with
      | completed notice => exact absurd rfl (quiet notice)
      | alreadyTerminal snapshot => rw [recordTermination_replay run]
  · exact finishTerminal_retained sound (asked.caused sound) finish quiet t

end Terminal

theorem perform_kept {call : Call} {answer : Except LeaseRefusal Answer} (sound : h.Sound)
    (run : perform digest call h = (answer, h')) (stays : call.op ≠ .collectRetained)
    (quiet : ∀ notice, answer ≠ .ok (.termination (.completed notice))) (t : SessionId) :
    (h'.slot t).retained = (h.slot t).retained := by
  have of_kept (kept : Kept h h') : (h'.slot t).retained = (h.slot t).retained := by
    unfold Kept at kept
    simp only [slot, kept]
  have map {α : Type} {m : HostM α} (g : α → Answer) (kept : m.Relates Kept)
      (run : (m >>= fun x => pure (g x)) h = (answer, h')) : Kept h h' := by
    have after := kept_bind kept (fun x => fun _ => rfl : ∀ x, (pure (g x) : HostM Answer).Relates Kept) h
    rw [run] at after
    exact after
  obtain ⟨op, now⟩ := call
  cases op with
  | create request kind => exact of_kept (map _ (kept_createKind request kind now) run)
  | discardCreated s => exact of_kept (map (fun _ => .done) (kept_discardCreated s) run)
  | bind s =>
    refine of_kept (map _ ?_ run)
    exact kept_refuseIf (kept_bind (kept_mutate s _) fun _ _ => rfl)
  | attachObserver s => exact of_kept (map _ (kept_attachObserver s now) run)
  | claimController s generation token => exact of_kept (map _ (kept_claimController s generation token now) run)
  | heartbeat a => exact of_kept (map _ (kept_heartbeat a now) run)
  | detach s target authority => exact of_kept (map _ (kept_detach s target authority now) run)
  | recordResize a => exact of_kept (map _ (kept_recordResize a now) run)
  | recordGrantMutation s =>
    refine of_kept (map _ ?_ run)
    exact kept_bind (kept_mutate s _) fun _ _ => rfl
  | expireDue =>
    refine of_kept (map _ ?_ run)
    exact kept_read fun ids => kept_sweepSessions now ids
  | sweepSession s => exact of_kept (map _ (kept_sweepSession s now) run)
  | transferControl s generation authority target =>
    exact of_kept (map _ (kept_transferControl s generation authority target now) run)
  | abort s generation authority cause => exact of_kept (map _ (kept_abort s generation authority cause now) run)
  | operatorStop s generation cause => exact of_kept (map _ (kept_operatorStop s generation cause now) run)
  | kill s generation => exact of_kept (map _ (kept_kill s generation now) run)
  | escalateAbort s => exact of_kept (map _ (kept_escalateAbort s now) run)
  | completePreBindCancel s cleanup =>
    cases first : completePreBindCancel s cleanup now h with
    | mk answer' after =>
      have mapped := bind_pure_apply (completePreBindCancel s cleanup now) Answer.termination h
      rw [first] at mapped
      obtain ⟨rfl, rfl⟩ := Prod.mk.inj (run.symm.trans mapped)
      refine completePreBindCancel_retained sound first (fun notice done => quiet notice ?_) t
      rw [done]
      rfl
  | recordTermination s observation cleanup =>
    cases first : recordTermination s observation cleanup now h with
    | mk answer' after =>
      have mapped := bind_pure_apply (recordTermination s observation cleanup now) Answer.termination h
      rw [first] at mapped
      obtain ⟨rfl, rfl⟩ := Prod.mk.inj (run.symm.trans mapped)
      refine recordTermination_retained sound first (fun notice done => quiet notice ?_) t
      rw [done]
      rfl
  | collectRetained => exact absurd rfl stays
  | assignLeaseClient a clientId =>
    obtain ⟨-, rfl⟩ := Prod.mk.inj run
    refine of_kept (kept_of_registry ?_)
    unfold assignLeaseClient
    split <;> rfl
  | noteOrigin s ownerClientId createdByKind =>
    obtain ⟨-, rfl⟩ := Prod.mk.inj run
    rfl
  | noteRequester s requester =>
    obtain ⟨-, rfl⟩ := Prod.mk.inj run
    rfl
  | observeWorker s => exact of_kept (map (fun _ => .done) (kept_observeWorker s now) run)

end Bitty.Daemon.SessionHost
