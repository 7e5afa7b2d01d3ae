import Bitty.Daemon.Lease.Sound

namespace Bitty.Daemon

open Std (ExtTreeMap)

namespace Slot

def Holds (x : Slot) (a : AttachId) : Prop := ∃ s l, x.state = some s ∧ s.leases[a]? = some l

theorem holds_live {r : SessionRecord} {s : SessionLeaseState} {a : AttachId} :
    (live r s).Holds a ↔ ∃ l : Lease, s.leases[a]? = some l := by
  simp [Holds, live]

end Slot

namespace SessionHost

open Mutation

def slot (h : SessionHost) (s : SessionId) : Slot := ⟨h.registry.live[s]?, h.registry.retained[s]?, h.sessions[s]?⟩

/-- The invariant of the host: every session is sound, the reverse index is exact, and retention
knows its records. -/
structure Sound (h : SessionHost) : Prop where
  slots : ∀ s, (h.slot s).Sound h.limits.maxAttachesPerSession
  owned : ∀ a s, h.leaseSessions[a]? = some s ↔ (h.slot s).Holds a
  distinct : (h.registry.retentionOrder.map Prod.snd).Nodup
  ordered : ∀ s ∈ h.registry.retentionOrder.map Prod.snd, h.registry.retained[s]?.isSome

variable {h h' h'' : SessionHost} {s t : SessionId} {a : AttachId} {r r' : SessionRecord} {st : SessionLeaseState}

theorem Sound.live_slot (sound : h.Sound) (here : h.registry.live[s]? = some r) : ∃ st, h.slot s = .live r st := by
  obtain ⟨unretained, hosted⟩ := (sound.slots s).hosted r here
  obtain ⟨st, state⟩ := Option.ne_none_iff_exists'.mp hosted
  exact ⟨st, by simp only [slot, Slot.live] at *; rw [here, unretained, state]⟩

theorem Sound.live_of_lease (sound : h.Sound) {l : Lease} (state : h.sessions[s]? = some st) (here : st.leases[a]? = some l) :
    ∃ r, h.slot s = .live r st := by
  cases record : h.registry.live[s]? with
  | none =>
    have settled := (sound.slots s).settled st record state
    simp [settled.leases] at here
  | some r =>
    obtain ⟨st', eq⟩ := sound.live_slot record
    have same : some st = some st' := state.symm.trans (congrArg Slot.state eq)
    exact ⟨r, by rw [eq, Option.some.inj same]⟩

def putRecord (h : SessionHost) (s : SessionId) (r : SessionRecord) : SessionHost :=
  { h with registry := { h.registry with live := h.registry.live.insert s r } }

theorem slot_putRecord : (h.putRecord s r).slot t = if s = t then { h.slot t with record := some r } else h.slot t := by
  simp only [slot, putRecord, TreeMap.find_insert]
  split_ifs <;> rfl

theorem slot_modifyState {f : SessionLeaseState → SessionLeaseState} :
    (h.modifyState s f).slot t = if s = t then { h.slot t with state := (h.slot t).state.map f } else h.slot t := by
  simp only [slot, modifyState, TreeMap.find_modify]
  split_ifs <;> rfl

theorem onRegistry_cases {change : SessionRecord → Except RegistryRefusal SessionRecord}
    {answer : Except LeaseRefusal SessionSnapshot} (run : onRegistry (SessionRegistry.mutate s change) h = (answer, h')) :
    (∃ e, answer = .error e ∧ h' = h ∧ ∀ r, h.registry.live[s]? = some r → ∃ refusal, change r = .error refusal ∧
        e = .ofRegistry refusal) ∨
      ∃ r r', h.registry.live[s]? = some r ∧ change r = .ok r' ∧ answer = .ok r'.snapshot ∧ h' = h.putRecord s r' := by
  unfold onRegistry zoom SessionRegistry.mutate at run
  cases record : h.registry.live[s]? with
  | none =>
    simp only [record] at run
    obtain ⟨rfl, rfl⟩ := Prod.mk.inj run
    exact .inl ⟨_, rfl, rfl, by simp⟩
  | some r =>
    simp only [record] at run
    cases done : change r with
    | error e =>
      simp only [done] at run
      obtain ⟨rfl, rfl⟩ := Prod.mk.inj run
      exact .inl ⟨_, rfl, rfl, by rintro _ ⟨⟩; exact ⟨e, done, rfl⟩⟩
    | ok r' =>
      simp only [done] at run
      obtain ⟨rfl, rfl⟩ := Prod.mk.inj run
      exact .inr ⟨r, r', rfl, done, rfl, rfl⟩

theorem onRegistry_of_ok {change : SessionRecord → Except RegistryRefusal SessionRecord} (record : h.registry.live[s]? = some r)
    (done : change r = .ok r') :
    onRegistry (SessionRegistry.mutate s change) h = (.ok r'.snapshot, h.putRecord s r') := by
  unfold onRegistry zoom SessionRegistry.mutate
  simp only [record, done]
  rfl

def silent : SessionId → List Label := fun _ => []

def only (s : SessionId) (ls : List Label) : SessionId → List Label := fun t => if s = t then ls else []

@[simp] theorem only_nil : only s [] = silent := by
  funext t
  unfold only silent
  split_ifs <;> rfl

section

variable (digest : ControlToken → ControlTokenDigest)

structure Moves (ls : SessionId → List Label) (h h' : SessionHost) : Prop where
  limits : h'.limits = h.limits
  drains : h'.entropy.fills32 <:+ h.entropy.fills32
  paths : ∀ s, Slot.Path digest h.limits.maxAttachesPerSession (h.slot s) (ls s) (h'.slot s)
  sound : h'.Sound

variable {digest} {ls ms : SessionId → List Label}

theorem Moves.append (first : Moves digest ls h h') (second : Moves digest ms h' h'') :
    Moves digest (fun s => ls s ++ ms s) h h'' where
  limits := second.limits.trans first.limits
  drains := second.drains.trans first.drains
  paths s := by
    have rest := second.paths s
    rw [first.limits] at rest
    exact (first.paths s).append rest
  sound := second.sound

theorem Moves.trans_silent (first : Moves digest silent h h') (second : Moves digest ms h' h'') : Moves digest ms h h'' :=
  first.append second

theorem Moves.silent_trans (first : Moves digest ls h h') (second : Moves digest silent h' h'') : Moves digest ls h h'' := by
  have moves := first.append second
  simp only [silent, List.append_nil] at moves
  exact moves

theorem Moves.same (sound : h.Sound) (slots : ∀ t, h'.slot t = h.slot t) (index : h'.leaseSessions = h.leaseSessions)
    (order : h'.registry.retentionOrder = h.registry.retentionOrder) (limits : h'.limits = h.limits)
    (drains : h'.entropy.fills32 <:+ h.entropy.fills32) : Moves digest silent h h' where
  limits := limits
  drains := drains
  paths t := by
    rw [slots]
    exact .nil _
  sound := by
    refine ⟨fun t => ?_, fun a t => ?_, ?_, fun t inside => ?_⟩
    · rw [slots, limits]
      exact sound.slots t
    · rw [slots, index]
      exact sound.owned a t
    · rw [order]
      exact sound.distinct
    · rw [order] at inside
      have retained : h'.registry.retained[t]? = h.registry.retained[t]? := congrArg Slot.retained (slots t)
      rw [retained]
      exact sound.ordered t inside

theorem Moves.refl (sound : h.Sound) : Moves digest silent h h :=
  .same sound (fun _ => rfl) rfl rfl rfl List.suffix_rfl

variable {labels : List Label}

theorem Moves.single (sound : h.Sound)
    (here : Slot.Path digest h.limits.maxAttachesPerSession (h.slot s) labels (h'.slot s))
    (others : ∀ t, s ≠ t → h'.slot t = h.slot t)
    (index : ∀ a t, h'.leaseSessions[a]? = some t ↔ if s = t then (h'.slot s).Holds a else h.leaseSessions[a]? = some t)
    (order : h'.registry.retentionOrder = h.registry.retentionOrder) (kept : h'.registry.retained = h.registry.retained)
    (limits : h'.limits = h.limits) (entropy : h'.entropy = h.entropy) : Moves digest (only s labels) h h' where
  limits := limits
  drains := by simp only [entropy, List.suffix_rfl]
  paths t := by
    unfold only
    split_ifs with same
    · subst same
      exact here
    · rw [others t same]
      exact .nil _
  sound := by
    refine ⟨fun t => ?_, fun a t => ?_, ?_, fun t inside => ?_⟩
    · rw [limits]
      by_cases same : s = t
      · subst same
        exact here.invariant Slot.Sound.move (sound.slots s)
      · rw [others t same]
        exact sound.slots t
    · rw [index]
      split_ifs with same
      · rw [same]
      · rw [others t same]
        exact sound.owned a t
    · rw [order]
      exact sound.distinct
    · rw [order] at inside
      rw [kept]
      exact sound.ordered t inside

theorem Moves.kept (sound : h.Sound)
    (here : Slot.Path digest h.limits.maxAttachesPerSession (h.slot s) labels (h'.slot s))
    (others : ∀ t, s ≠ t → h'.slot t = h.slot t) (holds : ∀ a, (h'.slot s).Holds a ↔ (h.slot s).Holds a)
    (index : h'.leaseSessions = h.leaseSessions) (order : h'.registry.retentionOrder = h.registry.retentionOrder)
    (kept : h'.registry.retained = h.registry.retained) (limits : h'.limits = h.limits)
    (entropy : h'.entropy = h.entropy) : Moves digest (only s labels) h h' := by
  refine .single sound here others (fun a t => ?_) order kept limits entropy
  rw [index]
  split_ifs with same
  · rw [holds, ← same]
    exact sound.owned a s
  · exact Iff.rfl

theorem Moves.record (sound : h.Sound) (here : h.slot s = .live r st)
    (move : Slot.Move digest h.limits.maxAttachesPerSession (.live r st) labels (.live r' st)) :
    Moves digest (only s labels) h (h.putRecord s r') := by
  have after : (h.putRecord s r').slot s = .live r' st := by
    rw [slot_putRecord, if_pos rfl, here]
    rfl
  refine .kept sound ?_ (fun t other => by rw [slot_putRecord, if_neg other]) (fun a => ?_) rfl rfl rfl rfl rfl
  · rw [here, after]
    exact .one move
  · rw [here, after]
    rfl

theorem Moves.state {f : SessionLeaseState → SessionLeaseState} (sound : h.Sound) (here : h.slot s = .live r st)
    (move : Slot.Move digest h.limits.maxAttachesPerSession (.live r st) labels (.live r (f st)))
    (handles : ∀ a : AttachId, (∃ l : Lease, (f st).leases[a]? = some l) ↔ ∃ l : Lease, st.leases[a]? = some l) :
    Moves digest (only s labels) h (h.modifyState s f) := by
  have after : (h.modifyState s f).slot s = .live r (f st) := by
    rw [slot_modifyState, if_pos rfl, here]
    rfl
  refine .kept sound ?_ (fun t other => by rw [slot_modifyState, if_neg other]) (fun a => ?_) rfl rfl rfl rfl rfl
  · rw [here, after]
    exact .one move
  · rw [here, after]
    simpa [Slot.Holds, Slot.live] using handles a

theorem handles_modifyLease {b : AttachId} {f : Lease → Lease} :
    (∃ l : Lease, (st.modifyLease b f).leases[a]? = some l) ↔ ∃ l : Lease, st.leases[a]? = some l := by
  rw [SessionLeaseState.modifyLease, TreeMap.find_modify]
  split_ifs
  · simp [Option.map_eq_some_iff]
  · exact Iff.rfl

theorem renewLease_moves (sound : h.Sound) (a : AttachId) (now : MonotonicMs) :
    Moves digest silent h (h.renewLease a now) := by
  unfold renewLease
  cases owner : h.leaseSessions[a]? with
  | none => exact .refl sound
  | some s =>
    obtain ⟨st, l, state, here⟩ := (sound.owned a s).mp owner
    obtain ⟨r, live⟩ := sound.live_of_lease state here
    have moves : Moves digest (only s []) h (h.modifyState s (·.modifyLease a (·.renew now h.limits.attachLeaseTtlMs))) :=
      .state sound live (.renew fun _ => ⟨rfl, rfl⟩) fun b => handles_modifyLease
    rwa [only_nil] at moves

end

end SessionHost

end Bitty.Daemon
