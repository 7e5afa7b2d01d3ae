import Bitty.Library.Transducer
import Bitty.Daemon.Lease.Handover
import Bitty.Daemon.Lease.Finish

/-! The operations of the host as one machine, its runs, and what the callers hear of each session. -/

namespace Bitty.Daemon

open Std (ExtTreeMap)

inductive Op
  | create (request : CreateSession) (kind : SessionKind)
  | discardCreated (sessionId : SessionId)
  | bind (sessionId : SessionId)
  | attachObserver (sessionId : SessionId)
  | claimController (sessionId : SessionId) (expectedGeneration : Nat) (token : ControlToken)
  | heartbeat (attachId : AttachId)
  | detach (sessionId : SessionId) (target : AttachId) (authority : ControlAuthority)
  | recordResize (attachId : AttachId)
  | recordGrantMutation (sessionId : SessionId)
  | expireDue
  | sweepSession (sessionId : SessionId)
  | transferControl (sessionId : SessionId) (expectedGeneration : Nat) (authority : ControlAuthority) (target : AttachId)
  | abort (sessionId : SessionId) (expectedGeneration : Nat) (authority : ControlAuthority) (cause : ConsumerStopCause)
  | operatorStop (sessionId : SessionId) (expectedGeneration : Nat) (cause : DaemonStopCause)
  | kill (sessionId : SessionId) (expectedGeneration : Nat)
  | escalateAbort (sessionId : SessionId)
  | completePreBindCancel (sessionId : SessionId) (cleanup : CleanupClass)
  | recordTermination (sessionId : SessionId) (observation : ExitObservation) (cleanup : CleanupClass)
  | collectRetained
  | assignLeaseClient (attachId : AttachId) (clientId : ClientId)
  | noteOrigin (sessionId : SessionId) (ownerClientId : Option ClientId) (createdByKind : OriginKind)
  | noteRequester (sessionId : SessionId) (requester : Requester)
  | observeWorker (sessionId : SessionId)

inductive Answer
  | done
  | created (session : CreatedSession)
  | session (snapshot : SessionSnapshot)
  | attached (attached : Attached)
  | claimed (claimed : Claimed)
  | renewed (heartbeat : LeaseHeartbeat)
  | detached (detached : Detached)
  | transferred (transferred : Transferred)
  | expired (expired : List LeaseExpiry)
  | stop (outcome : StopOutcome)
  | escalated (escalation : Option AbortEscalation)
  | termination (termination : Termination)
  | collected (collected : List SessionId)
  deriving DecidableEq

structure Call where
  op : Op
  now : MonotonicMs

structure Event where
  call : Call
  answer : Except LeaseRefusal Answer

namespace SessionHost

open Mutation

def empty (registryLimits : RegistryLimits) (sizeOfRecord : Nat) (registryEntropy : Entropy) (limits : LeaseLimits)
    (entropy : Entropy) : SessionHost where
  registry := { limits := registryLimits, sizeOfRecord, entropy := registryEntropy }
  limits
  entropy

variable (digest : ControlToken → ControlTokenDigest)

def perform (call : Call) : HostM Answer :=
  match call.op with
  | .create request kind => do return .created (← createKind digest request kind call.now)
  | .discardCreated sessionId => do
    discardCreated sessionId
    return .done
  | .bind sessionId => do return .session (← bind sessionId call.now)
  | .attachObserver sessionId => do return .attached (← attachObserver sessionId call.now)
  | .claimController sessionId expectedGeneration token => do
    return .claimed (← claimController digest sessionId expectedGeneration token call.now)
  | .heartbeat attachId => do return .renewed (← heartbeat attachId call.now)
  | .detach sessionId target authority => do return .detached (← detach digest sessionId target authority call.now)
  | .recordResize attachId => do return .session (← recordResize attachId call.now)
  | .recordGrantMutation sessionId => do return .session (← recordGrantMutation sessionId call.now)
  | .expireDue => do return .expired (← expireDue call.now)
  | .sweepSession sessionId => do return .expired (← sweepSession sessionId call.now)
  | .transferControl sessionId expectedGeneration authority target => do
    return .transferred (← transferControl digest sessionId expectedGeneration authority target call.now)
  | .abort sessionId expectedGeneration authority cause => do
    return .stop (← abort digest sessionId expectedGeneration authority cause call.now)
  | .operatorStop sessionId expectedGeneration cause => do
    return .stop (← operatorStop sessionId expectedGeneration cause call.now)
  | .kill sessionId expectedGeneration => do return .stop (← kill sessionId expectedGeneration call.now)
  | .escalateAbort sessionId => do return .escalated (← escalateAbort sessionId call.now)
  | .completePreBindCancel sessionId cleanup => do
    return .termination (← completePreBindCancel sessionId cleanup call.now)
  | .recordTermination sessionId observation cleanup => do
    return .termination (← recordTermination sessionId observation cleanup call.now)
  | .collectRetained => fun h => (.ok (.collected (h.collectRetained call.now).1), (h.collectRetained call.now).2)
  | .assignLeaseClient attachId clientId => fun h => (.ok .done, h.assignLeaseClient attachId clientId)
  | .noteOrigin sessionId ownerClientId createdByKind => fun h =>
    (.ok .done, h.noteOrigin sessionId ownerClientId createdByKind)
  | .noteRequester sessionId requester => fun h => (.ok .done, h.noteRequester sessionId requester)
  | .observeWorker sessionId => do
    observeWorker sessionId call.now
    return .done

def step (h : SessionHost) (call : Call) : SessionHost × List Event :=
  ((perform digest call h).2, [⟨call, (perform digest call h).1⟩])

def after (h : SessionHost) (calls : List Call) : SessionHost := (Transducer.run (step digest) h calls).1

def events (h : SessionHost) (calls : List Call) : List Event := (Transducer.run (step digest) h calls).2

end SessionHost

def Op.told : Op → Answer → SessionId → List Label
  | .create _ _, .created c => SessionHost.only c.session.sessionId [.created c.controlToken]
  | .bind s, _ => SessionHost.only s [.bound]
  | .claimController s _ _, .claimed c => SessionHost.only s [.issued c.controlToken]
  | .transferControl s _ _ _, .transferred t => SessionHost.only s [.issued t.delivery.token]
  | .detach s _ _, .detached d => if d.controlRetired then SessionHost.only s [.retired] else SessionHost.silent
  | .abort s _ _ cause, .stop x => SessionHost.only s (x.told cause.reason)
  | .operatorStop s _ cause, .stop x => SessionHost.only s (x.told cause.reason)
  | .kill s _, .stop x => SessionHost.only s (x.told .operatorAbort)
  | .completePreBindCancel s _, .termination x => SessionHost.only s x.told
  | .recordTermination s _ _, .termination x => SessionHost.only s x.told
  | _, _ => SessionHost.silent

/-- A terminal transition that passes every check, of a session with too few revisions for its leases. -/
def Op.Overruns (h : SessionHost) : Op → Prop
  | .completePreBindCancel s cleanup => ∃ outcome actor, h.CancelOutcome s cleanup outcome actor ∧ h.Overruns s outcome
  | .recordTermination s observation cleanup =>
    ∃ outcome actor, h.ExitOutcome s observation cleanup outcome actor ∧ h.Overruns s outcome
  | _ => False

def Event.told (e : Event) (s : SessionId) : List Label :=
  match e.answer with
  | .ok x => e.call.op.told x s
  | .error _ => []

namespace SessionHost

open Mutation

variable {digest : ControlToken → ControlTokenDigest} {now : MonotonicMs} {h h' : SessionHost} {s : SessionId}

variable {answer : Except LeaseRefusal Answer}

theorem Ends.map {α : Type} (told : α → SessionId → List Label) {told' : Answer → SessionId → List Label} {m : HostM α}
    {g : α → Answer} (same : ∀ x, told' (g x) = told x)
    (ends : ∀ {answer : Except LeaseRefusal α} {h' : SessionHost}, m h = (answer, h') → Ends digest now told h answer h')
    (run : (m >>= fun x => pure (g x)) h = (answer, h')) : Ends digest now told' h answer h' := by
  rw [bind_pure_apply] at run
  obtain ⟨rfl, rfl⟩ := Prod.mk.inj run
  have ended : Ends digest now told h (m h).1 (m h).2 := ends rfl
  generalize (m h).1 = answer, (m h).2 = h' at ended
  cases ended with
  | refused whole => exact .refused whole
  | done moves =>
    refine .done ?_
    rw [same]
    exact moves

theorem perform_termination {P : Prop} {told' : Answer → SessionId → List Label} {m : HostM Termination}
    {answer' : Except LeaseRefusal Termination} {h₁ : SessionHost}
    (first : m h = (answer', h₁))
    (split : Ends digest now (fun x : Termination => only s x.told) h answer' h₁ ∨
      P ∧ Stranded now h s h₁ ∧ answer' = .error .revisionOverflow)
    (run : (m >>= fun x => pure (Answer.termination x)) h = (answer, h'))
    (same : ∀ x : Termination, told' (.termination x) = only s x.told := by exact fun _ => rfl) :
    Ends digest now told' h answer h' ∨ P ∧ ∃ s, Stranded now h s h' ∧ answer = .error .revisionOverflow := by
  rcases split with ends | ⟨holds, stranded, rfl⟩
  · refine .inl (.map (fun x : Termination => only s x.told) same (fun {answer h'} again => ?_) run)
    obtain ⟨rfl, rfl⟩ := Prod.mk.inj (again.symm.trans first)
    exact ends
  · obtain ⟨rfl, rfl⟩ := Prod.mk.inj (run.symm.trans (bind_of_error first fun x => pure (Answer.termination x)))
    exact .inr ⟨holds, s, stranded, rfl⟩

variable {call : Call}

/-- An operation is refused whole, or done by moves of its sessions; a terminal transition may also be stranded. -/
theorem perform_cases (sound : h.Sound) (run : perform digest call h = (answer, h')) :
    Ends digest call.now call.op.told h answer h' ∨
      call.op.Overruns h ∧ ∃ s, Stranded call.now h s h' ∧ answer = .error .revisionOverflow := by
  obtain ⟨op, now⟩ := call
  cases op with
  | create request kind => exact .inl (.map _ (fun _ => rfl) (createKind_ends sound) run)
  | discardCreated s => exact .inl (.map _ (fun _ => rfl) (discardCreated_ends sound) run)
  | bind s => exact .inl (.map _ (fun _ => rfl) (bind_ends sound) run)
  | attachObserver s => exact .inl (.map _ (fun _ => rfl) (attachObserver_ends sound) run)
  | claimController s generation token => exact .inl (.map _ (fun _ => rfl) (claimController_ends sound) run)
  | heartbeat a => exact .inl (.map _ (fun _ => rfl) (heartbeat_ends sound) run)
  | detach s target authority => exact .inl (.map _ (fun _ => rfl) (detach_ends sound) run)
  | recordResize a => exact .inl (.map _ (fun _ => rfl) (recordResize_ends sound) run)
  | recordGrantMutation s => exact .inl (.map _ (fun _ => rfl) (recordGrantMutation_ends sound) run)
  | expireDue =>
    refine .inl (.map (fun _ => silent) (fun _ => rfl) (fun {answer h'} swept => ?_) run)
    obtain ⟨⟨expired, answered⟩, whole, -⟩ := expireDue_spec sound now
    rw [swept] at answered whole
    obtain rfl : answer = .ok expired := answered
    exact .done (whole.moves sound)
  | sweepSession s =>
    refine .inl (.map (fun _ => silent) (fun _ => rfl) (fun {answer h'} swept => ?_) run)
    obtain ⟨⟨expired, answered⟩, whole, -⟩ := sweepSession_spec sound s now
    rw [swept] at answered whole
    obtain rfl : answer = .ok expired := answered
    exact .done (whole.moves sound)
  | transferControl s generation authority target => exact .inl (.map _ (fun _ => rfl) (transferControl_ends sound) run)
  | abort s generation authority cause => exact .inl (.map _ (fun _ => rfl) (abort_ends sound) run)
  | operatorStop s generation cause => exact .inl (.map _ (fun _ => rfl) (operatorStop_ends sound) run)
  | kill s generation => exact .inl (.map _ (fun _ => rfl) (kill_ends sound) run)
  | escalateAbort s => exact .inl (.map _ (fun _ => rfl) (escalateAbort_ends sound) run)
  | completePreBindCancel s cleanup =>
    cases first : completePreBindCancel s cleanup now h with
    | mk answer' after =>
      have split : Ends digest now (fun x : Termination => only s x.told) h answer' after ∨
          (Op.completePreBindCancel s cleanup).Overruns h ∧ Stranded now h s after ∧ answer' = .error .revisionOverflow := by
        rcases completePreBindCancel_cases digest sound first with ends | ⟨outcome, actor, asked, finish⟩
        · exact .inl ends
        · rcases finishTerminal_ends digest sound (asked.caused sound) finish with ends | ⟨rfl, short, stranded⟩
          · exact .inl ends
          · exact .inr ⟨⟨outcome, actor, asked, short⟩, stranded, rfl⟩
      exact perform_termination (m := completePreBindCancel s cleanup now) first split run
  | recordTermination s observation cleanup =>
    cases first : recordTermination s observation cleanup now h with
    | mk answer' after =>
      have split : Ends digest now (fun x : Termination => only s x.told) h answer' after ∨
          (Op.recordTermination s observation cleanup).Overruns h ∧ Stranded now h s after ∧
            answer' = .error .revisionOverflow := by
        rcases recordTermination_cases digest sound first with ends | ⟨outcome, actor, asked, finish⟩
        · exact .inl ends
        · rcases finishTerminal_ends digest sound (asked.caused sound) finish with ends | ⟨rfl, short, stranded⟩
          · exact .inl ends
          · exact .inr ⟨⟨outcome, actor, asked, short⟩, stranded, rfl⟩
      exact perform_termination (m := recordTermination s observation cleanup now) first split run
  | collectRetained =>
    obtain ⟨rfl, rfl⟩ := Prod.mk.inj run
    exact .inl (.done (collectRetained_moves sound))
  | assignLeaseClient a clientId =>
    obtain ⟨rfl, rfl⟩ := Prod.mk.inj run
    exact .inl (.done (assignLeaseClient_moves sound clientId))
  | noteOrigin s ownerClientId createdByKind =>
    obtain ⟨rfl, rfl⟩ := Prod.mk.inj run
    exact .inl (.done (note_moves sound fun _ => ⟨rfl, rfl, rfl, rfl, Nat.le_refl _⟩))
  | noteRequester s requester =>
    obtain ⟨rfl, rfl⟩ := Prod.mk.inj run
    exact .inl (.done (note_moves sound fun _ => ⟨rfl, rfl, rfl, rfl, Nat.le_refl _⟩))
  | observeWorker s =>
    refine .inl (.map (fun _ => silent) (fun _ => rfl) (fun {answer h'} observed => ?_) run)
    have moves : Moves digest silent h (observeWorker s now h).2 := observeWorker_moves sound
    have answered : (observeWorker s now h).1 = .ok () := rfl
    rw [observed] at moves answered
    obtain rfl : answer = .ok () := answered
    exact .done moves

theorem perform_overruns (sound : h.Sound)
    (overruns : call.op.Overruns h) (run : perform digest call h = (answer, h')) : ∃ s, Stranded call.now h s h' := by
  obtain ⟨op, now⟩ := call
  cases op with
  | completePreBindCancel s cleanup =>
    obtain ⟨outcome, actor, asked, short⟩ := overruns
    obtain ⟨h₁, refused, stranded⟩ := short.refused sound now (asked.caused sound)
    rw [← asked.finish sound] at refused
    have performed : perform digest ⟨.completePreBindCancel s cleanup, now⟩ h = (.error .revisionOverflow, h₁) :=
      bind_of_error refused fun x => pure (Answer.termination x)
    obtain ⟨-, rfl⟩ := Prod.mk.inj (run.symm.trans performed)
    exact ⟨s, stranded⟩
  | recordTermination s observation cleanup =>
    obtain ⟨outcome, actor, asked, short⟩ := overruns
    obtain ⟨h₁, refused, stranded⟩ := short.refused sound now (asked.caused sound)
    rw [← asked.finish sound] at refused
    have performed : perform digest ⟨.recordTermination s observation cleanup, now⟩ h = (.error .revisionOverflow, h₁) :=
      bind_of_error refused fun x => pure (Answer.termination x)
    obtain ⟨-, rfl⟩ := Prod.mk.inj (run.symm.trans performed)
    exact ⟨s, stranded⟩
  | _ => exact overruns.elim

theorem whole_iff {e : LeaseRefusal} (sound : h.Sound) (refused : (perform digest call h).1 = .error e) :
    Whole call.now h (perform digest call h).2 ↔ ¬ call.op.Overruns h := by
  have run : perform digest call h = (.error e, (perform digest call h).2) := Prod.ext refused rfl
  constructor
  · intro whole overruns
    obtain ⟨s, stranded⟩ := perform_overruns sound overruns run
    exact stranded.not_whole whole
  · intro within
    rcases perform_cases sound run with ends | ⟨overruns, -⟩
    · cases ends with
      | refused whole => exact whole
    · exact absurd overruns within

theorem perform_moves (sound : h.Sound)
    (run : perform digest call h = (answer, h')) : Moves digest (Event.told ⟨call, answer⟩) h h' := by
  rcases perform_cases sound run with ends | ⟨-, s, stranded, rfl⟩
  · cases ends with
    | refused whole => exact whole.moves sound
    | done moves => exact moves
  · exact stranded.moves sound

theorem sound_empty (registryLimits : RegistryLimits) (sizeOfRecord : Nat) (registryEntropy : Entropy) (limits : LeaseLimits)
    (entropy : Entropy) : (empty registryLimits sizeOfRecord registryEntropy limits entropy).Sound where
  slots s := by
    have slot : (empty registryLimits sizeOfRecord registryEntropy limits entropy).slot s = ⟨none, none, none⟩ := by
      simp [slot, empty]
    rw [slot]
    exact .absent (by simp)
  owned a s := by simp [empty, slot, Slot.Holds]
  distinct := by simp [empty]
  ordered := by simp [empty]

theorem step_moves (sound : h.Sound) (call : Call) : Moves digest (fun s => (step digest h call).2.flatMap (·.told s)) h
    (step digest h call).1 := by
  simp only [step, List.flatMap_cons, List.flatMap_nil, List.append_nil]
  exact perform_moves sound rfl

theorem run_moves (sound : h.Sound) (calls : List Call) :
    Moves digest (fun s => (events digest h calls).flatMap (·.told s)) h (after digest h calls) := by
  induction calls generalizing h with
  | nil => exact .refl sound
  | cons call calls ih =>
    have first : Moves digest _ h (step digest h call).1 := step_moves sound call
    have rest := ih first.sound
    have joined := first.append rest
    simp only [← List.flatMap_append] at joined
    exact joined

theorem after_sound (sound : h.Sound) (calls : List Call) : (after digest h calls).Sound := (run_moves sound calls).sound

section Sample

def sampleDigest (token : ControlToken) : ControlTokenDigest :=
  ⟨Equiv.swap 10 0x16ee3268ee4a1c6a51dcefd31210597f0e2e4954e385d767eebc6cbc2cebc3f8#256
    (Equiv.swap 9 0x92aabbffecf053ae6331b57102dd78627fc969c732540d1555f63e3abf40296e#256 token.bytes)⟩

theorem sampleDigest_injective : Function.Injective sampleDigest := by
  intro a b same
  have bytes := (Equiv.swap _ _).injective ((Equiv.swap _ _).injective (congrArg ControlTokenDigest.bytes same))
  cases a
  cases b
  exact congrArg ControlToken.mk bytes

/-- A host whose first session is 2, whose leases are 7 and 8 and whose tokens are 9 and 10. -/
def sampleHost : SessionHost :=
  empty ⟨8, 8, 4096, 1000⟩ 512 ⟨[some 1, some 2, some 3], []⟩ ⟨4, 1000, 100, 100, by decide⟩
    ⟨[some 7, some 8], [some 9, some 10]⟩

end Sample

end SessionHost

end Bitty.Daemon
