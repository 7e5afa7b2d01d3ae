import Bitty.Attach.Seam
import Bitty.Library.Transducer

/-! The operations of the seam as one machine, its runs, and the host with a record of its calls. -/

namespace Bitty.Attach

inductive SeamOp
  | bind (request : AttachRequest)
  | release (handle : BindingHandle)
  | releaseSession (window : WindowId) (session : SessionId)
  | deliverEvent (event : SessionEvent)
  | drainEvents (handle : BindingHandle)
  | onWindowClosed (window : WindowId)
  | onSessionTerminated (session : SessionId)
  | onDaemonStopped
  | onDaemonStarted

inductive SeamAnswer
  | bound (answer : Except AttachError BindingHandle)
  | released (outcome : ReleaseOutcome)
  | delivered (delivery : EventDelivery)
  | drained (answer : Except AttachError DrainOutcome)
  | receipts (released : List ReleaseReceipt)
  | done

structure SeamEntry where
  op : SeamOp
  answer : SeamAnswer

namespace AttachSeam

variable {H : Type} [SessionHost H]

def perform (size : Nat) (s : AttachSeam H) : SeamOp → SeamAnswer × AttachSeam H
  | .bind request => ((bind request s).map .bound id)
  | .release handle => (s.release handle).map .released id
  | .releaseSession window session => (s.releaseSession window session).map .released id
  | .deliverEvent event => (s.deliverEvent size event).map .delivered id
  | .drainEvents handle => (s.drainEvents handle).map .drained id
  | .onWindowClosed window => (s.onWindowClosed window).map .receipts id
  | .onSessionTerminated session => (s.onSessionTerminated session).map .receipts id
  | .onDaemonStopped => s.onDaemonStopped.map .receipts id
  | .onDaemonStarted => (.done, s.onDaemonStarted)

def step (size : Nat) (s : AttachSeam H) (op : SeamOp) : AttachSeam H × List SeamEntry :=
  ((s.perform size op).2, [⟨op, (s.perform size op).1⟩])

def run (size : Nat) (s : AttachSeam H) (ops : List SeamOp) : AttachSeam H × List SeamEntry :=
  Transducer.run (step size) s ops

end AttachSeam

inductive HostCall
  | attach (request : HostAttach) (answer : Except HostRefusal HostAttachGrant)
  | detach (session : SessionId) (attachId : AttachId) (answer : Except HostRefusal HostDetach)

structure Watched (H : Type) where
  host : H
  calls : List HostCall := []

instance {H : Type} [SessionHost H] : SessionHost (Watched H) where
  attach request w :=
    let (answer, host) := SessionHost.attach request w.host
    (answer, ⟨host, w.calls ++ [.attach request answer]⟩)
  detach session attachId w :=
    let (answer, host) := SessionHost.detach session attachId w.host
    (answer, ⟨host, w.calls ++ [.detach session attachId answer]⟩)

namespace HostCall

def grant : HostCall → List AttachId
  | attach _ (.ok grant) => [grant.attachId]
  | _ => []

/-- The attach id that is passed to `detach`. -/
def detached : HostCall → List AttachId
  | detach _ attachId _ => [attachId]
  | _ => []

end HostCall

namespace Watched

variable {H : Type} (w : Watched H)

def granted : List AttachId := w.calls.flatMap HostCall.grant

def returned : List AttachId := w.calls.flatMap HostCall.detached

end Watched

end Bitty.Attach

/-! What each operation can do, over a host with a record of its calls. -/

namespace Bitty.Attach

open Checks

namespace Watched

variable {H : Type} [SessionHost H] (w : Watched H)

theorem granted_attach (request : HostAttach) : (SessionHost.attach request w).2.granted =
    w.granted ++ (SessionHost.attach request w).1.toOption.toList.map (·.attachId) := by
  change (w.calls ++ [HostCall.attach request (SessionHost.attach request w.host).1]).flatMap HostCall.grant = _
  rw [List.flatMap_append]
  change _ = _ ++ (SessionHost.attach request w.host).1.toOption.toList.map (·.attachId)
  cases (SessionHost.attach request w.host).1 <;> rfl

theorem returned_attach (request : HostAttach) : (SessionHost.attach request w).2.returned = w.returned := by
  change (w.calls ++ [HostCall.attach request (SessionHost.attach request w.host).1]).flatMap HostCall.detached = _
  rw [List.flatMap_append]
  exact List.append_nil _

theorem granted_detach (session : SessionId) (attachId : AttachId) :
    (SessionHost.detach session attachId w).2.granted = w.granted := by
  change (w.calls ++ [HostCall.detach session attachId (SessionHost.detach session attachId w.host).1]).flatMap HostCall.grant = _
  rw [List.flatMap_append]
  exact List.append_nil _

theorem returned_detach (session : SessionId) (attachId : AttachId) :
    (SessionHost.detach session attachId w).2.returned = w.returned ++ [attachId] := by
  change (w.calls ++ [HostCall.detach session attachId (SessionHost.detach session attachId w.host).1]).flatMap
    HostCall.detached = _
  rw [List.flatMap_append]
  rfl

end Watched

namespace AttachSeam

variable {H : Type}

def after (minted : Nat) (w : Watched H) (s : AttachSeam (Watched H)) : AttachSeam (Watched H) :=
  { s with nextBinding := minted, host := w }

def keyOf (request : AttachRequest) : BindingKey := ⟨request.window, request.session⟩

variable {s s' : AttachSeam (Watched H)}

/-- What `bind` can do. -/
inductive Bound (request : AttachRequest) (s : AttachSeam (Watched H)) :
    Except AttachError BindingHandle → AttachSeam (Watched H) → Prop
  | still {e} : Bound request s (.error e) s
  | again {bindingId binding} : s.byKey[keyOf request]? = some bindingId → s.bindings[bindingId]? = some binding →
      Bound request s (.ok binding.handle) s
  | refused {e w} : w.granted = s.host.granted → w.returned = s.host.returned →
      Bound request s (.error e) (s.after (s.nextBinding + 1) w)
  | handedBack {e w attachId} : w.granted = s.host.granted ++ [attachId] → w.returned = s.host.returned ++ [attachId] →
      Bound request s (.error e) (s.after (s.nextBinding + 1) w)
  | duplicate {e w attachId bindingId} : w.granted = s.host.granted ++ [attachId] →
      s.byAttach[attachId]? = some bindingId → Bound request s (.error e) (s.after (s.nextBinding + 1) w)
  | fresh {w grant} : w.granted = s.host.granted ++ [grant.attachId] → w.returned = s.host.returned →
      s.byKey[keyOf request]? = none → s.byAttach[grant.attachId]? = none →
      s.windowCounts[request.window]?.getD 0 < s.config.maxBindingsPerWindow →
      Bound request s (.ok ⟨request.window, ⟨s.nextBinding⟩⟩)
        (register request ⟨s.nextBinding⟩ grant (s.after (s.nextBinding + 1) w))

variable {request : AttachRequest}

theorem screen_ok {existing : Option BindingHandle} (passed : screen request s = .ok existing) :
    (∃ bindingId binding, s.byKey[keyOf request]? = some bindingId ∧ s.bindings[bindingId]? = some binding ∧
      existing = some binding.handle) ∨
    (existing = none ∧ s.byKey[keyOf request]? = none ∧
      s.windowCounts[request.window]?.getD 0 < s.config.maxBindingsPerWindow) := by
  simp only [screen, seq_ok] at passed
  obtain ⟨-, -, passed⟩ := passed
  cases found : s.byKey[BindingKey.mk request.window request.session]? with
  | none =>
    rw [found] at passed
    dsimp only at passed
    split_ifs at passed with full
    cases passed
    exact .inr ⟨rfl, found, Nat.lt_of_not_le full⟩
  | some bindingId =>
    rw [found] at passed
    dsimp only at passed
    cases here : s.bindings[bindingId]? with
    | none =>
      rw [here] at passed
      cases passed
    | some binding =>
      rw [here] at passed
      dsimp only [rebind] at passed
      split_ifs at passed
      cases passed
      exact .inl ⟨bindingId, binding, found, here, rfl⟩

variable {bindingId : BindingId}

theorem mintBindingId_ok (minted : mintBindingId s = (.ok bindingId, s')) :
    bindingId = ⟨s.nextBinding⟩ ∧ s' = s.after (s.nextBinding + 1) s.host := by
  unfold mintBindingId at minted
  split_ifs at minted
  · obtain ⟨id, seam⟩ := Prod.mk.inj minted
    exact ⟨(Except.ok.inj id).symm, seam.symm⟩
  · cases (Prod.mk.inj minted).1

variable [SessionHost H]

theorem hostAttach_cases {answer : Except AttachError HostAttachGrant} (run : hostAttach request s = (answer, s')) :
    ∃ w : Watched H, s' = s.after s.nextBinding w ∧ w.returned = s.host.returned ∧
      ((∃ e, answer = .error e ∧ w.granted = s.host.granted) ∨
        ∃ grant, answer = .ok grant ∧ w.granted = s.host.granted ++ [grant.attachId]) := by
  let asked : HostAttach :=
    ⟨request.session, request.role, request.expectedGeneration, request.controlToken, request.observerGrant⟩
  have granted := Watched.granted_attach s.host asked
  obtain ⟨result, state⟩ := Prod.mk.inj run
  refine ⟨(SessionHost.attach asked s.host).2, state.symm, Watched.returned_attach s.host asked, ?_⟩
  cases answered : (SessionHost.attach asked s.host).1 with
  | error refusal =>
    rw [answered] at granted
    refine .inl ⟨.refused refusal, ?_, granted.trans (List.append_nil _)⟩
    rw [← result]
    exact congrArg (Except.mapError AttachError.refused) answered
  | ok grant =>
    rw [answered] at granted
    refine .inr ⟨grant, ?_, granted⟩
    rw [← result]
    exact congrArg (Except.mapError AttachError.refused) answered

theorem hostDetach_snd (session : SessionId) (attachId : AttachId) :
    ∃ w : Watched H, (s.hostDetach session attachId).2 = s.after s.nextBinding w ∧ w.granted = s.host.granted ∧
      w.returned = s.host.returned ++ [attachId] :=
  ⟨(SessionHost.detach session attachId s.host).2, rfl, Watched.granted_detach s.host session attachId,
    Watched.returned_detach s.host session attachId⟩

theorem checkGrant_cases {grant : HostAttachGrant} {answer : Except AttachError Unit}
    (run : checkGrant request grant s = (answer, s')) :
    (∃ e, ∃ w : Watched H, answer = .error e ∧ s' = s.after s.nextBinding w ∧ w.granted = s.host.granted ∧
      w.returned = s.host.returned ++ [grant.attachId]) ∨
    (∃ e bindingId, answer = .error e ∧ s' = s ∧ s.byAttach[grant.attachId]? = some bindingId) ∨
    (answer = .ok () ∧ s' = s ∧ s.byAttach[grant.attachId]? = none) := by
  obtain ⟨w, back, granted, returned⟩ := s.hostDetach_snd request.session grant.attachId
  unfold checkGrant at run
  rw [back] at run
  split_ifs at run with role generation duplicate
  · obtain ⟨rfl, rfl⟩ := Prod.mk.inj run
    exact .inl ⟨_, w, rfl, rfl, granted, returned⟩
  · obtain ⟨rfl, rfl⟩ := Prod.mk.inj run
    exact .inl ⟨_, w, rfl, rfl, granted, returned⟩
  · obtain ⟨rfl, rfl⟩ := Prod.mk.inj run
    obtain ⟨bindingId, taken⟩ := Option.isSome_iff_exists.mp duplicate
    exact .inr (.inl ⟨_, bindingId, rfl, rfl, taken⟩)
  · obtain ⟨rfl, rfl⟩ := Prod.mk.inj run
    exact .inr (.inr ⟨rfl, rfl, by simpa using duplicate⟩)

theorem bind_cases {answer : Except AttachError BindingHandle}
    (run : bind request s = (answer, s')) : Bound request s answer s' := by
  rcases Mutation.ask_bind_cases run with ⟨e, -, rfl, rfl⟩ | ⟨existing, passed, run⟩
  · exact .still
  rcases screen_ok passed with ⟨bindingId, binding, found, here, rfl⟩ | ⟨rfl, absent, room⟩
  · obtain ⟨rfl, rfl⟩ := Prod.mk.inj run
    exact .again found here
  rcases Mutation.bind_cases run with ⟨e, minted, rfl⟩ | ⟨bindingId, s₁, minted, run⟩
  · unfold mintBindingId at minted
    by_cases space : s.nextBinding + 1 ≤ U64_MAX
    · rw [if_pos space] at minted
      cases (Prod.mk.inj minted).1
    · rw [if_neg space] at minted
      rw [← (Prod.mk.inj minted).2]
      exact .still
  obtain ⟨rfl, rfl⟩ := mintBindingId_ok minted
  -- from here on the id is spent, whatever the host answers
  rcases Mutation.bind_cases run with ⟨e, called, rfl⟩ | ⟨grant, s₂, called, run⟩
  · obtain ⟨w, rfl, returned, ⟨e', -, granted⟩ | ⟨grant, impossible, -⟩⟩ := hostAttach_cases called
    · exact .refused granted returned
    · cases impossible
  obtain ⟨w, rfl, returned, ⟨e, impossible, -⟩ | ⟨given, eq, granted⟩⟩ := hostAttach_cases called
  · cases impossible
  cases eq
  rcases Mutation.bind_cases run with ⟨e, checked, rfl⟩ | ⟨_, s₃, checked, run⟩
  · rcases checkGrant_cases checked with ⟨e', w', -, rfl, same, back⟩ | ⟨e', bindingId, -, rfl, taken⟩ | ⟨impossible, -, -⟩
    · exact .handedBack (same.trans granted) (back.trans (congrArg (· ++ [grant.attachId]) returned))
    · exact .duplicate granted taken
    · cases impossible
  rcases checkGrant_cases checked with ⟨e, w', impossible, -⟩ | ⟨e, bindingId, impossible, -⟩ | ⟨-, rfl, free⟩
  · cases impossible
  · cases impossible
  obtain ⟨rfl, rfl⟩ := Prod.mk.inj run
  exact .fresh granted returned absent free room

theorem releaseInner_live {binding : Binding} (cause : ReleaseCause) (here : s.bindings[bindingId]? = some binding) :
    ∃ (w : Watched H) (receipt : ReleaseReceipt), s.releaseInner bindingId cause =
        (some receipt, (s.remove bindingId binding).after s.nextBinding w) ∧
      w.granted = s.host.granted ∧ w.returned = s.host.returned ++ [binding.attachId] ∧
      receipt.binding = binding.snapshot ∧ receipt.cause = cause ∧ receipt.discardedEvents = binding.events.length := by
  obtain ⟨w, back, granted, returned⟩ := (s.remove bindingId binding).hostDetach_snd binding.session binding.attachId
  unfold releaseInner
  rw [here]
  dsimp only
  rw [back]
  exact ⟨w, _, rfl, granted, returned, rfl, rfl, rfl⟩

theorem releaseInner_gone (cause : ReleaseCause) (gone : s.bindings[bindingId]? = none) :
    s.releaseInner bindingId cause = (none, s) := by
  unfold releaseInner
  rw [gone]

end AttachSeam

end Bitty.Attach

/-! The maps beside the table of bindings, and the leases that the host has granted. -/

namespace Bitty.Attach.AttachSeam

open TreeMap

variable {H : Type} {s : AttachSeam (Watched H)} {bindingId : BindingId} {binding : Binding}

structure Indexed (s : AttachSeam (Watched H)) : Prop where
  keys : IsIndex s.bindings Binding.key s.byKey
  leases : IsIndex s.bindings Binding.attachId s.byAttach
  windows : IsTally s.bindings Binding.window s.windowCounts
  named : ∀ (id : BindingId) (b : Binding), s.bindings[id]? = some b → b.handle.binding = id ∧ id.raw < s.nextBinding
  capped : ∀ window, tally s.bindings Binding.window window ≤ s.config.maxBindingsPerWindow

def Balanced (s : AttachSeam (Watched H)) : Prop :=
  ∀ a, s.host.granted.count a = tally s.bindings Binding.attachId a + s.host.returned.count a

structure Steady (f : Binding → Binding) : Prop where
  handle : ∀ b, (f b).handle = b.handle
  session : ∀ b, (f b).session = b.session
  attachId : ∀ b, (f b).attachId = b.attachId

theorem steady_take (size : Nat) (event : SessionEvent) : Steady (Binding.take size event) :=
  ⟨fun _ => rfl, fun _ => rfl, fun _ => rfl⟩

theorem steady_drained : Steady Binding.drained := ⟨fun _ => rfl, fun _ => rfl, fun _ => rfl⟩

namespace Steady

variable {f : Binding → Binding} (steady : Steady f)

include steady

theorem key (b : Binding) : (f b).key = b.key := by
  unfold Binding.key
  rw [steady.handle, steady.session]

theorem window (b : Binding) : (f b).window = b.window := by
  unfold Binding.window
  rw [steady.handle]

end Steady

def modified (bindingId : BindingId) (f : Binding → Binding) (s : AttachSeam (Watched H)) : AttachSeam (Watched H) :=
  { s with bindings := s.bindings.modify bindingId f }

namespace Indexed

variable (held : s.Indexed)

include held

theorem unused : s.bindings[BindingId.mk s.nextBinding]? = none := by
  cases here : s.bindings[BindingId.mk s.nextBinding]? with
  | none => rfl
  | some b => exact absurd (held.named _ _ here).2 (Nat.lt_irrefl _)

theorem here_of_handle {id : BindingId} {b : Binding} (live : s.bindings[id]? = some b) :
    s.bindings[b.handle.binding]? = some b := by
  rw [(held.named id b live).1]
  exact live

theorem after {minted : Nat} (later : s.nextBinding ≤ minted) (w : Watched H) : (s.after minted w).Indexed where
  keys := held.keys
  leases := held.leases
  windows := held.windows
  named id b live := by
    obtain ⟨name, below⟩ := held.named id b live
    exact ⟨name, Nat.lt_of_lt_of_le below later⟩
  capped := held.capped

theorem onDaemon (available : Bool) : Indexed { s with daemonAvailable := available } :=
  ⟨held.keys, held.leases, held.windows, held.named, held.capped⟩

theorem register {request : AttachRequest} {grant : HostAttachGrant} {w : Watched H}
    (absent : s.byKey[keyOf request]? = none) (free : s.byAttach[grant.attachId]? = none)
    (room : s.windowCounts[request.window]?.getD 0 < s.config.maxBindingsPerWindow) :
    (AttachSeam.register request ⟨s.nextBinding⟩ grant (s.after (s.nextBinding + 1) w)).Indexed where
  keys := held.keys.insert held.unused absent
  leases := held.leases.insert held.unused free
  windows := held.windows.insert held.unused
  named id b live := by
    change (s.bindings.insert _ _)[id]? = some b at live
    rw [find_insert] at live
    split_ifs at live with here
    · cases live
      exact ⟨here, here ▸ Nat.lt_succ_self s.nextBinding⟩
    · obtain ⟨name, below⟩ := held.named id b live
      exact ⟨name, Nat.lt_succ_of_lt below⟩
  capped window := by
    change tally (s.bindings.insert _ _) Binding.window window ≤ s.config.maxBindingsPerWindow
    rw [tally_insert _ held.unused]
    have before := held.capped window
    split_ifs with here
    · rw [held.windows.getD] at room
      have same : request.window = window := here
      rw [same] at room
      omega
    · exact before

theorem remove (here : s.bindings[bindingId]? = some binding) : (s.remove bindingId binding).Indexed where
  keys := held.keys.erase here
  leases := held.leases.erase here
  windows := held.windows.erase here
  named id b live := by
    change (s.bindings.erase bindingId)[id]? = some b at live
    rw [find_erase] at live
    split_ifs at live
    exact held.named id b live
  capped window := by
    have before := held.capped window
    have fewer := tally_erase Binding.window here window
    change tally (s.bindings.erase bindingId) Binding.window window ≤ s.config.maxBindingsPerWindow
    omega

theorem modified {f : Binding → Binding} (steady : Steady f) : (s.modified bindingId f).Indexed where
  keys := held.keys.modify steady.key
  leases := held.leases.modify steady.attachId
  windows := held.windows.modify steady.window
  named id b live := by
    change (s.bindings.modify bindingId f)[id]? = some b at live
    rw [find_modify] at live
    split_ifs at live
    · obtain ⟨old, found, rfl⟩ := Option.map_eq_some_iff.mp live
      rw [steady.handle]
      exact held.named id old found
    · exact held.named id b live
  capped window := by
    change tally (s.bindings.modify bindingId f) Binding.window window ≤ s.config.maxBindingsPerWindow
    rw [tally_modify _ steady.window]
    exact held.capped window

theorem tally_eq_zero {a : AttachId} (free : s.byAttach[a]? = none) : tally s.bindings Binding.attachId a = 0 := by
  by_contra some
  have member : 0 < tally s.bindings Binding.attachId a := Nat.pos_of_ne_zero some
  unfold tally at member
  rw [← Std.ExtTreeMap.length_toList] at member
  obtain ⟨entry, inside⟩ := List.exists_mem_of_length_pos member
  have found := Std.ExtTreeMap.mem_toList_iff_getElem?_eq_some.mp inside
  rw [find_filter] at found
  obtain ⟨here, holds⟩ := Option.filter_eq_some_iff.mp found
  have taken := held.leases.find here
  rw [of_decide_eq_true holds, free] at taken
  cases taken

end Indexed

namespace Balanced

variable (balanced : s.Balanced)

include balanced

variable {w : Watched H}

theorem after (minted : Nat) (granted : w.granted = s.host.granted) (returned : w.returned = s.host.returned) :
    (s.after minted w).Balanced := by
  intro a
  change w.granted.count a = tally s.bindings Binding.attachId a + w.returned.count a
  rw [granted, returned]
  exact balanced a

theorem handedBack {attachId : AttachId} (minted : Nat) (granted : w.granted = s.host.granted ++ [attachId])
    (returned : w.returned = s.host.returned ++ [attachId]) : (s.after minted w).Balanced := by
  intro a
  have before := balanced a
  change w.granted.count a = tally s.bindings Binding.attachId a + w.returned.count a
  rw [granted, returned, List.count_append, List.count_append]
  omega

theorem register (held : s.Indexed) {request : AttachRequest} {grant : HostAttachGrant}
    (granted : w.granted = s.host.granted ++ [grant.attachId]) (returned : w.returned = s.host.returned) :
    (AttachSeam.register request ⟨s.nextBinding⟩ grant (s.after (s.nextBinding + 1) w)).Balanced := by
  intro a
  have before := balanced a
  change w.granted.count a = tally (s.bindings.insert _ _) Binding.attachId a + w.returned.count a
  rw [granted, returned, List.count_append, tally_insert _ held.unused, before, List.count_singleton]
  change _ = _ + (if grant.attachId = a then 1 else 0) + _
  by_cases same : grant.attachId = a
  · simp only [same, beq_self_eq_true, if_true]
    omega
  · simp only [same, beq_iff_eq, if_false]
    omega

theorem remove (here : s.bindings[bindingId]? = some binding) (minted : Nat)
    (granted : w.granted = s.host.granted) (returned : w.returned = s.host.returned ++ [binding.attachId]) :
    ((s.remove bindingId binding).after minted w).Balanced := by
  intro a
  have before := balanced a
  have fewer := tally_erase Binding.attachId here a
  change w.granted.count a = tally (s.bindings.erase bindingId) Binding.attachId a + w.returned.count a
  rw [granted, returned, List.count_append, before, List.count_singleton]
  by_cases same : binding.attachId = a
  · simp only [same, beq_self_eq_true, if_true] at fewer ⊢
    omega
  · simp only [same, beq_iff_eq, if_false] at fewer ⊢
    omega

theorem modified {f : Binding → Binding} (steady : Steady f) : (s.modified bindingId f).Balanced := by
  intro a
  change s.host.granted.count a = tally (s.bindings.modify bindingId f) Binding.attachId a + s.host.returned.count a
  rw [tally_modify _ steady.attachId]
  exact balanced a

theorem granted_of_live (here : s.bindings[bindingId]? = some binding) : binding.attachId ∈ s.host.granted := by
  have positive := tally_pos Binding.attachId here
  have balance := balanced binding.attachId
  rw [← List.count_pos_iff]
  omega

end Balanced

end Bitty.Attach.AttachSeam
