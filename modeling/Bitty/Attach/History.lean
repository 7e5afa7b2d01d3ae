import Bitty.Attach.Indexed
import Bitty.Attach.Queue

/-! What the consumer of a seam has seen of its bindings, and how the seam agrees with it. -/

namespace Bitty.Attach

/-- The handles that were handed out, the events that each binding has accepted and those that were
drained from it, and the receipts of the bindings that were released. -/
structure History where
  bound : List BindingHandle := []
  accepted : BindingHandle → List SessionEvent := fun _ => []
  drained : BindingHandle → List SessionEvent := fun _ => []
  receipts : List ReleaseReceipt := []

namespace History

def bind (hist : History) (handle : BindingHandle) : History := { hist with bound := hist.bound ++ [handle] }

def accept (hist : History) (handle : BindingHandle) (event : SessionEvent) : History :=
  { hist with accepted := Function.update hist.accepted handle (hist.accepted handle ++ [event]) }

def drain (hist : History) (handle : BindingHandle) (events : List SessionEvent) : History :=
  { hist with drained := Function.update hist.drained handle (hist.drained handle ++ events) }

def release (hist : History) (receipts : List ReleaseReceipt) : History :=
  { hist with receipts := hist.receipts ++ receipts }

def released (hist : History) : List BindingHandle := hist.receipts.map (·.binding.handle)

def record (hist : History) : SeamEntry → History
  | ⟨.bind _, .bound (.ok handle)⟩ => hist.bind handle
  | ⟨.deliverEvent event, .delivered (.queued handle _)⟩ => hist.accept handle event
  | ⟨_, .delivered (.leaseClosed _ receipt)⟩ => hist.release [receipt]
  | ⟨.drainEvents handle, .drained (.ok outcome)⟩ => (hist.drain handle outcome.events).release outcome.released.toList
  | ⟨_, .released (.released receipt)⟩ => hist.release [receipt]
  | ⟨_, .receipts receipts⟩ => hist.release receipts
  | _ => hist

end History

def history (entries : List SeamEntry) : History := entries.foldl History.record {}

namespace History

theorem drain_nil (hist : History) (handle : BindingHandle) : hist.drain handle [] = hist := by
  unfold drain
  rw [List.append_nil, Function.update_eq_self]

theorem release_nil (hist : History) : hist.release [] = hist := by
  unfold release
  rw [List.append_nil]

theorem release_append (hist : History) (xs ys : List ReleaseReceipt) :
    hist.release (xs ++ ys) = (hist.release xs).release ys := by
  unfold release
  rw [List.append_assoc]

theorem released_release (hist : History) (receipts : List ReleaseReceipt) :
    (hist.release receipts).released = hist.released ++ receipts.map (·.binding.handle) := List.map_append

end History

namespace AttachSeam

open TreeMap

variable {H : Type} {s : AttachSeam (Watched H)} {hist : History} {size : Nat}

structure Settled (hist : History) (s : AttachSeam (Watched H)) : Prop where
  minted : ∀ handle ∈ hist.bound, handle.binding.raw < s.nextBinding
  fate : ∀ handle : BindingHandle, handle ∈ hist.bound ↔
    (∃ b, s.bindings[handle.binding]? = some b ∧ b.handle = handle) ∨ handle ∈ hist.released
  apart : ∀ (id : BindingId) (b : Binding), s.bindings[id]? = some b → b.handle ∉ hist.released
  once : hist.released.Nodup
  rest : ∀ r ∈ hist.receipts, ∃ left, hist.drained r.binding.handle ++ left = hist.accepted r.binding.handle ∧
    left.length = r.discardedEvents
  idle : ∀ handle ∉ hist.bound, hist.accepted handle = [] ∧ hist.drained handle = []

structure Holds (size : Nat) (hist : History) (s : AttachSeam (Watched H)) : Prop where
  indexed : s.Indexed
  balanced : s.Balanced
  settled : Settled hist s
  orderly : ∀ handle, Orderly (hist.accepted handle)
  follows : ∀ (id : BindingId) (b : Binding), s.bindings[id]? = some b →
    Follows size s.config.maxQueuedEventsPerBinding (hist.accepted b.handle) (hist.drained b.handle) b

variable {id : BindingId} {b : Binding}

theorem Settled.bound_of_live (settled : Settled hist s) (indexed : s.Indexed)
    (live : s.bindings[id]? = some b) : b.handle ∈ hist.bound :=
  (settled.fate b.handle).mpr (.inl ⟨b, indexed.here_of_handle live, rfl⟩)

theorem Indexed.eq_of_handle (indexed : s.Indexed) {id' : BindingId} {b' : Binding} (live : s.bindings[id]? = some b)
    (live' : s.bindings[id']? = some b') (same : b.handle = b'.handle) : id = id' := by
  rw [← (indexed.named id b live).1, ← (indexed.named id' b' live').1, same]

theorem Settled.modified (settled : Settled hist s) (indexed : s.Indexed)
    (here : s.bindings[id]? = some b) {f : Binding → Binding} (steady : Steady f)
    {accepted drained : BindingHandle → List SessionEvent}
    (kept : ∀ handle, handle ≠ b.handle → accepted handle = hist.accepted handle ∧ drained handle = hist.drained handle) :
    Settled { hist with accepted, drained } (s.modified id f) := by
  have lookup (id' : BindingId) : (s.modified id f).bindings[id']? = _ := find_modify s.bindings id id' f
  refine ⟨settled.minted, ?_, ?_, settled.once, fun r member => ?_, fun handle outside => ?_⟩
  · intro h
    refine (settled.fate h).trans (or_congr ?_ Iff.rfl)
    rw [lookup]
    split_ifs
    · constructor
      · rintro ⟨b, live, name⟩
        exact ⟨f b, by rw [live]; rfl, (steady.handle b).trans name⟩
      · rintro ⟨b, live, name⟩
        obtain ⟨old, found, rfl⟩ := Option.map_eq_some_iff.mp live
        exact ⟨old, found, (steady.handle old).symm.trans name⟩
    · rfl
  · intro id' b' still
    rw [lookup] at still
    split_ifs at still
    · obtain ⟨old, found, rfl⟩ := Option.map_eq_some_iff.mp still
      rw [steady.handle]
      exact settled.apart id' old found
    · exact settled.apart id' _ still
  · have other : r.binding.handle ≠ b.handle := fun same => settled.apart id b here (same ▸ List.mem_map_of_mem member)
    obtain ⟨same, same'⟩ := kept _ other
    change ∃ left, drained r.binding.handle ++ left = accepted r.binding.handle ∧ _
    rw [same, same']
    exact settled.rest r member
  · have other : handle ≠ b.handle := fun same => outside (same ▸ settled.bound_of_live indexed here)
    obtain ⟨same, same'⟩ := kept _ other
    change accepted handle = [] ∧ drained handle = []
    rw [same, same']
    exact settled.idle handle outside

namespace Holds

variable (held : Holds size hist s)

include held

variable {w : Watched H}

theorem after {minted : Nat} (later : s.nextBinding ≤ minted) (balanced : (s.after minted w).Balanced) :
    Holds size hist (s.after minted w) where
  indexed := held.indexed.after later w
  balanced := balanced
  settled := { held.settled with minted := fun h member => Nat.lt_of_lt_of_le (held.settled.minted h member) later }
  orderly := held.orderly
  follows := held.follows

theorem onDaemon (available : Bool) : Holds size hist { s with daemonAvailable := available } :=
  ⟨held.indexed.onDaemon available, held.balanced, ⟨held.settled.minted, held.settled.fate, held.settled.apart,
    held.settled.once, held.settled.rest, held.settled.idle⟩, held.orderly, held.follows⟩

variable {id : BindingId} {b : Binding}

theorem bindAgain (live : s.bindings[id]? = some b) : Holds size (hist.bind b.handle) s := by
  have member := held.settled.bound_of_live held.indexed live
  have same (handle : BindingHandle) : handle ∈ (hist.bind b.handle).bound ↔ handle ∈ hist.bound := by
    change handle ∈ hist.bound ++ [b.handle] ↔ _
    rw [List.mem_append, List.mem_singleton]
    constructor
    · rintro (before | rfl)
      · exact before
      · exact member
    · exact .inl
  refine ⟨held.indexed, held.balanced, ?_, held.orderly, held.follows⟩
  exact
    { minted := fun handle inside => held.settled.minted handle ((same handle).mp inside)
      fate := fun handle => (same handle).trans (held.settled.fate handle)
      apart := held.settled.apart
      once := held.settled.once
      rest := held.settled.rest
      idle := fun handle outside => held.settled.idle handle fun inside => outside ((same handle).mpr inside) }

theorem bindFresh {request : AttachRequest} {grant : HostAttachGrant}
    (granted : w.granted = s.host.granted ++ [grant.attachId]) (returned : w.returned = s.host.returned)
    (absent : s.byKey[keyOf request]? = none) (free : s.byAttach[grant.attachId]? = none)
    (room : s.windowCounts[request.window]?.getD 0 < s.config.maxBindingsPerWindow) :
    Holds size (hist.bind ⟨request.window, ⟨s.nextBinding⟩⟩)
      (register request ⟨s.nextBinding⟩ grant (s.after (s.nextBinding + 1) w)) := by
  let handle : BindingHandle := ⟨request.window, ⟨s.nextBinding⟩⟩
  have unborn : handle ∉ hist.bound := fun member => Nat.lt_irrefl _ (held.settled.minted handle member)
  obtain ⟨nothing, untouched⟩ := held.settled.idle handle unborn
  have unused := held.indexed.unused
  have lookup (id : BindingId) :
      (register request ⟨s.nextBinding⟩ grant (s.after (s.nextBinding + 1) w)).bindings[id]? = _ :=
    find_insert s.bindings ⟨s.nextBinding⟩ id _
  refine ⟨held.indexed.register absent free room, held.balanced.register held.indexed granted returned, ?_, held.orderly, ?_⟩
  · refine ⟨?minted, ?fate, ?apart, held.settled.once, held.settled.rest, ?idle⟩
    case minted =>
      intro h member
      rcases List.mem_append.mp member with before | here
      · exact Nat.lt_succ_of_lt (held.settled.minted h before)
      · rw [List.mem_singleton.mp here]
        exact Nat.lt_succ_self _
    case fate =>
      intro h
      change h ∈ hist.bound ++ [handle] ↔ _
      rw [List.mem_append, List.mem_singleton, held.settled.fate h, lookup]
      by_cases here : BindingId.mk s.nextBinding = h.binding
      · rw [if_pos here, ← here, unused]
        constructor
        · rintro ((⟨b, impossible, -⟩ | gone) | same)
          · cases impossible
          · exact .inr gone
          · exact .inl ⟨_, rfl, same.symm⟩
        · rintro (⟨b, same, name⟩ | gone)
          · cases same
            exact .inr name.symm
          · exact .inl (.inr gone)
      · have other : h ≠ handle := fun same => here (same ▸ rfl)
        rw [if_neg here]
        simp only [other, or_false]
        rfl
    case apart =>
      intro id b live
      rw [lookup] at live
      split_ifs at live
      · cases live
        intro gone
        exact unborn ((held.settled.fate handle).mpr (.inr gone))
      · exact held.settled.apart id b live
    case idle =>
      intro h outside
      exact held.settled.idle h fun inside => outside (List.mem_append_left _ inside)
  · intro id b live
    rw [lookup] at live
    split_ifs at live
    · cases live
      change Follows size _ (hist.accepted handle) (hist.drained handle) _
      rw [nothing, untouched]
      exact .fresh ..
    · exact held.follows id b live

theorem close (live : s.bindings[id]? = some b)
    (granted : w.granted = s.host.granted) (returned : w.returned = s.host.returned ++ [b.attachId])
    {receipt : ReleaseReceipt} (named : receipt.binding.handle = b.handle) (taken left : List SessionEvent)
    (queue : taken ++ left = b.events) (discarded : left.length = receipt.discardedEvents) :
    Holds size ((hist.drain b.handle taken).release [receipt]) ((s.remove id b).after s.nextBinding w) := by
  have lookup (id' : BindingId) : ((s.remove id b).after s.nextBinding w).bindings[id']? = _ := find_erase s.bindings id id'
  have survivor {id' : BindingId} {b' : Binding} (still : ((s.remove id b).after s.nextBinding w).bindings[id']? = some b') :
      s.bindings[id']? = some b' ∧ b'.handle ≠ b.handle := by
    rw [lookup] at still
    split_ifs at still with gone
    exact ⟨still, fun same => gone (held.indexed.eq_of_handle live still same.symm)⟩
  have released : ((hist.drain b.handle taken).release [receipt]).released = hist.released ++ [b.handle] := by
    rw [History.released_release, List.map_singleton, named]
    rfl
  have whole := (held.follows id b live).whole
  refine ⟨(held.indexed.remove live).after (Nat.le_refl _) w, held.balanced.remove live _ granted returned, ?_, held.orderly, ?_⟩
  · refine ⟨held.settled.minted, ?fate, ?apart, ?once, ?rest, ?idle⟩
    case fate =>
      intro h
      change h ∈ hist.bound ↔ _
      rw [held.settled.fate h, released, List.mem_append, List.mem_singleton, lookup]
      by_cases here : id = h.binding
      · rw [if_pos here, ← here, live]
        constructor
        · rintro (⟨b', same, name⟩ | gone)
          · cases same
            exact .inr (.inr name.symm)
          · exact .inr (.inl gone)
        · rintro (⟨b', impossible, -⟩ | gone | rfl)
          · cases impossible
          · exact .inr gone
          · exact .inl ⟨b, rfl, rfl⟩
      · have other : h ≠ b.handle := fun same => here (((held.indexed.named id b live).1).symm.trans (congrArg _ same.symm))
        rw [if_neg here]
        simp only [other, or_false]
    case apart =>
      intro id' b' still
      obtain ⟨before, other⟩ := survivor still
      rw [released, List.mem_append, List.mem_singleton, not_or]
      exact ⟨held.settled.apart id' b' before, other⟩
    case once =>
      rw [released]
      refine List.nodup_append.mpr ⟨held.settled.once, List.nodup_singleton _, fun h before h' here same => ?_⟩
      rw [List.mem_singleton.mp here] at same
      exact held.settled.apart id b live (same ▸ before)
    case rest =>
      intro r member
      rcases List.mem_append.mp member with before | here
      · have other : r.binding.handle ≠ b.handle := fun same =>
          held.settled.apart id b live (same ▸ List.mem_map_of_mem before)
        change ∃ left, Function.update hist.drained b.handle _ r.binding.handle ++ left = _ ∧ _
        rw [Function.update_of_ne other]
        exact held.settled.rest r before
      · rw [List.mem_singleton.mp here, named]
        refine ⟨left, ?_, discarded⟩
        change Function.update hist.drained b.handle _ b.handle ++ left = hist.accepted b.handle
        rw [Function.update_self, List.append_assoc, queue]
        exact whole
    case idle =>
      intro h outside
      have other : h ≠ b.handle := fun same => outside (same ▸ held.settled.bound_of_live held.indexed live)
      change _ ∧ Function.update hist.drained b.handle _ h = []
      rw [Function.update_of_ne other]
      exact held.settled.idle h outside
  · intro id' b' still
    obtain ⟨before, other⟩ := survivor still
    change Follows size _ (hist.accepted b'.handle) (Function.update hist.drained b.handle _ b'.handle) b'
    rw [Function.update_of_ne other]
    exact held.follows id' b' before

theorem accept {event : SessionEvent} (live : s.bindings[id]? = some b)
    (passed : dropped b event = none) (room : ¬s.overflows size b = true) :
    Holds size (hist.accept b.handle event) (s.modified id (Binding.take size event)) := by
  obtain ⟨running, newest, unseen⟩ := dropped_eq_none passed
  obtain ⟨count, bytes⟩ := overflows_eq_false room
  have steady := steady_take size event
  have follows := held.follows id b live
  have lookup (id' : BindingId) : (s.modified id (Binding.take size event)).bindings[id']? = _ :=
    find_modify s.bindings id id' (Binding.take size event)
  have changed (h : BindingHandle) (other : h ≠ b.handle) : (hist.accept b.handle event).accepted h = hist.accepted h :=
    Function.update_of_ne other _ _
  have grown : (hist.accept b.handle event).accepted b.handle = hist.accepted b.handle ++ [event] :=
    Function.update_self _ _ _
  have settled : Settled (hist.accept b.handle event) (s.modified id (Binding.take size event)) :=
    held.settled.modified held.indexed live steady fun h other => ⟨changed h other, rfl⟩
  refine ⟨held.indexed.modified steady, held.balanced.modified steady, settled, ?_, ?_⟩
  · intro h
    by_cases here : h = b.handle
    · rw [here, grown]
      exact follows.orderly_take (held.orderly b.handle) running newest unseen
    · rw [changed h here]
      exact held.orderly h
  · intro id' b' still
    rw [lookup] at still
    split_ifs at still with here
    · rw [← here, live] at still
      cases still
      change Follows size _ ((hist.accept b.handle event).accepted b.handle) (hist.drained b.handle) _
      rw [grown]
      exact follows.take running count bytes
    · have other : b'.handle ≠ b.handle := fun same => here (held.indexed.eq_of_handle live still same.symm)
      rw [changed _ other]
      exact held.follows id' b' still

theorem drain (live : s.bindings[id]? = some b) (running : b.closing = none) :
    Holds size (hist.drain b.handle b.events) (s.modified id Binding.drained) := by
  have follows := held.follows id b live
  have lookup (id' : BindingId) : (s.modified id Binding.drained).bindings[id']? = _ :=
    find_modify s.bindings id id' Binding.drained
  have changed (h : BindingHandle) (other : h ≠ b.handle) : (hist.drain b.handle b.events).drained h = hist.drained h :=
    Function.update_of_ne other _ _
  have grown : (hist.drain b.handle b.events).drained b.handle = hist.drained b.handle ++ b.events :=
    Function.update_self _ _ _
  have settled : Settled (hist.drain b.handle b.events) (s.modified id Binding.drained) :=
    held.settled.modified held.indexed live steady_drained fun h other => ⟨rfl, changed h other⟩
  refine ⟨held.indexed.modified steady_drained, held.balanced.modified steady_drained, settled, held.orderly, ?_⟩
  intro id' b' still
  rw [lookup] at still
  split_ifs at still with here
  · rw [← here, live] at still
    cases still
    change Follows size _ (hist.accepted b.handle) ((hist.drain b.handle b.events).drained b.handle) _
    rw [grown]
    exact follows.drain running
  · have other : b'.handle ≠ b.handle := fun same => here (held.indexed.eq_of_handle live still same.symm)
    rw [changed _ other]
    exact held.follows id' b' still

end Holds

end AttachSeam

end Bitty.Attach
