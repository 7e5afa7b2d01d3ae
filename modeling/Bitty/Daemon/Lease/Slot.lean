import Bitty.Daemon.Lease.Host

/-! One session of the daemon as a machine of its own: its record, its lease state, and every move
the operations of the host can make on them. -/

namespace Bitty.Daemon

namespace SessionLeaseState

def observers (s : SessionLeaseState) : Nat := (s.leases.filter fun _ lease => lease.isObserver).size

def settled (s : SessionLeaseState) : SessionLeaseState :=
  { s with leases := ∅, controller := none, stop := none, cancel := none, token := .retired }

def moved (s : SessionLeaseState) (previous : Option AttachId) (target : AttachId) (digest : ControlTokenDigest) :
    SessionLeaseState :=
  let demoted := match previous with
    | some previous => s.modifyLease previous (·.setRole .observer)
    | none => s
  { demoted.modifyLease target (·.setRole .controller) with
    controller := some target
    token := .current digest
    claimed := true }

def attached (s : SessionLeaseState) (lease : Lease) : SessionLeaseState :=
  { s with leases := s.leases.insert lease.attachId lease }

def claimedBy (s : SessionLeaseState) (lease : Lease) (digest : ControlTokenDigest) : SessionLeaseState :=
  { s.attached lease with controller := some lease.attachId, token := .current digest, claimed := true }

end SessionLeaseState

inductive Label
  | created (token : ControlToken)
  | issued (token : ControlToken)
  | retired
  | accepted (reason : TerminalReason) (actor : Actor)
  | bound
  | completed (snapshot : SessionSnapshot) (reason : TerminalReason) (actor : Actor)
  deriving DecidableEq

structure Slot where
  record : Option SessionRecord
  retained : Option SessionRecord
  state : Option SessionLeaseState

namespace Slot

def live (r : SessionRecord) (s : SessionLeaseState) : Slot := ⟨some r, none, some s⟩

inductive Released (now : MonotonicMs) : Nat → SessionRecord → SessionRecord → Prop
  | none (r : SessionRecord) : Released now 0 r r
  | one {n : Nat} {r r₁ r₂ : SessionRecord} (first : r.detach now = .ok r₁) (rest : Released now n r₁ r₂) :
      Released now (n + 1) r r₂

def Caused (s : SessionLeaseState) (reason : TerminalReason) (actor : Actor) : Prop :=
  (∀ stop, s.stop = some stop → reason = stop.reason ∧ actor = stop.actor) ∧
    ∀ intent, s.cancel = some intent → reason = intent.reason ∧ actor = intent.actor

section

variable (digest : ControlToken → ControlTokenDigest) (maxAttaches : Nat)

inductive Move : Slot → List Label → Slot → Prop
  | touch {r r' s} (same : r.SameCore r') : Move (live r s) [] (live r' s)
  | renew {r s a} {f : Lease → Lease} (keeps : ∀ l, (f l).role = l.role ∧ (f l).attachId = l.attachId) :
      Move (live r s) [] (live r (s.modifyLease a f))
  | attach {r r' s lease now} (fresh : s.leases[lease.attachId]? = none) (role : lease.role = .observer)
      (room : s.observers < maxAttaches) (counted : r.attach now = .ok r') :
      Move (live r s) [] (live r' (s.attached lease))
  | drop {r r' s a lease now} (here : s.leases[a]? = some lease) (counted : r.detach now = .ok r') :
      Move (live r s) [] (live r' (s.removeLease a))
  | claim {r r' s lease token presented now} (fresh : s.leases[lease.attachId]? = none)
      (role : lease.role = .controller) (vacant : s.controller = none)
      (known : s.tokenMatches digest presented = true) (counted : r.attach now = .ok r') :
      Move (live r s) [.issued token] (live r' (s.claimedBy lease (digest token)))
  | hand {r r' s previous target lease token} (holds : s.controller = some previous)
      (here : s.leases[target]? = some lease) (role : lease.role = .observer) (same : r.SameCore r') :
      Move (live r s) [.issued token] (live r' (s.moved (some previous) target (digest token)))
  | take {r r' s target lease token presented} (vacant : s.controller = none)
      (known : s.tokenMatches digest presented = true) (here : s.leases[target]? = some lease)
      (role : lease.role = .observer) (same : r.SameCore r') :
      Move (live r s) [.issued token] (live r' (s.moved none target (digest token)))
  | retire {r s} (vacant : s.controller = none) : Move (live r s) [.retired] (live r { s with token := .retired })
  | cancel {r s reason actor} (created : r.state = .created) (first : s.cancel = none) :
      Move (live r s) [.accepted reason actor] (live r { s with cancel := some ⟨reason, actor⟩ })
  | stop {r r' s now} {begun : StopState} (first : s.cancel = none) (stopping : r.beginStopping now = .ok r') :
      Move (live r s) [.accepted begun.reason begun.actor] (live r' { s with stop := some begun })
  | escalate {r s} {f : StopState → StopState} (keeps : ∀ p, (f p).reason = p.reason ∧ (f p).actor = p.actor) :
      Move (live r s) [] (live r { s with stop := s.stop.map f })
  | bind {r r' s now} (first : s.cancel = none) (running : r.bind now = .ok r') : Move (live r s) [.bound] (live r' s)
  | release {r r' s now n} (within : n ≤ s.leases.size) (released : Released now n r r')
      (overflow : U64_MAX ≤ r'.stateRevision) : Move (live r s) [] (live r' s)
  | complete {r r' s outcome actor target revision now} (released : Released now s.leases.size r r')
      (checked : r'.checkTerminalTransition outcome = .ok (target, revision)) (caused : Caused s outcome.reason actor) :
      Move (live r s) [.completed (r'.terminated outcome target revision now).snapshot outcome.reason actor]
        ⟨none, some (r'.terminated outcome target revision now), some s.settled⟩
  | evict {r s} : Move ⟨none, some r, s⟩ [] ⟨none, none, s⟩
  | forget {s} : Move ⟨none, none, s⟩ [] ⟨none, none, none⟩
  | create {r s token} (created : r.state = .created) (unbound : r.generation = 0) (unattached : r.attachCount = 0) :
      Move ⟨none, none, s⟩ [.created token] (live r (.new (digest token)))
  | discard {r s} (created : r.state = .created) (unbound : r.generation = 0) (free : s.leases = ∅) :
      Move (live r s) [] ⟨none, none, none⟩

inductive Path : Slot → List Label → Slot → Prop
  | nil (x : Slot) : Path x [] x
  | cons {x y z ls ms} (first : Move digest maxAttaches x ls y) (rest : Path y ms z) : Path x (ls ++ ms) z

variable {digest maxAttaches}

theorem Path.one {x y ls} (move : Move digest maxAttaches x ls y) : Path digest maxAttaches x ls y := by
  have path := Path.cons move (.nil y)
  rwa [List.append_nil] at path

theorem Path.append {x y z ls ms} (first : Path digest maxAttaches x ls y) (second : Path digest maxAttaches y ms z) :
    Path digest maxAttaches x (ls ++ ms) z := by
  induction first with
  | nil => exact second
  | @cons x y z ls ms move rest ih =>
    rw [List.append_assoc]
    exact .cons move (ih second)

theorem Path.invariant {P : Slot → Prop} (keeps : ∀ x ls y, P x → Move digest maxAttaches x ls y → P y) {x y ls}
    (path : Path digest maxAttaches x ls y) (holds : P x) : P y := by
  induction path with
  | nil => exact holds
  | cons first rest ih => exact ih (keeps _ _ _ holds first)

end

section

variable {now : MonotonicMs} {n : Nat} {r r' : SessionRecord}

theorem Released.spec (released : Released now n r r') :
    r'.sessionId = r.sessionId ∧ r'.state = r.state ∧ r'.generation = r.generation ∧
      r'.attachCount = r.attachCount - n ∧ r.stateRevision ≤ r'.stateRevision := by
  induction released with
  | none => simp
  | @one n r r₁ r₂ first rest ih =>
    obtain ⟨id, state, generation, count, revision⟩ := ih
    obtain ⟨-, ⟨zero, rfl⟩ | ⟨positive, -, rfl⟩⟩ := SessionRecord.detach_ok first
    · exact ⟨id, state, generation, by simp only at count; omega, revision⟩
    · exact ⟨id, state, generation, by simp only at count; omega, by simp only at revision; omega⟩

theorem Released.room (released : Released now n r r') (room : r'.stateRevision < U64_MAX) : r.stateRevision < U64_MAX :=
  Nat.lt_of_le_of_lt released.spec.2.2.2.2 room

end

end Slot

end Bitty.Daemon
